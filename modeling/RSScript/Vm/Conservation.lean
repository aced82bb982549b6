import RSScript.Vm.Runs
import RSScript.Vm.Values

/-!
# Conservation of channel values

What was accepted by a channel's sends is what was handed out of it and what is
still queued, in order. A call that takes values out of the queue and hands them
to nobody breaks this for good; there are two, and both are visible in the state
they find.

That a queued value is received at some time is not claimed.
-/

namespace RSScript.Vm

open SortedMap Channels List ChannelEvent

section History

variable {V : Type} (channel : Int)

/-- The value whose send returned `Ok`. -/
def ChannelEvent.accepts : ChannelEvent V → List V
  | .sent id value (.ok _) => if id = channel then [value] else []
  | _ => []

/-- The values a receive or a collect returned. -/
def ChannelEvent.handsOut : ChannelEvent V → List V
  | .received id (.ok value) => if id = channel then value.toList else []
  | .collected id _ (.ok values) => if id = channel then values else []
  | _ => []

/-- The values found in the queue by a call that empties it for nobody: a collect
while a sender is open, or the opening of a channel whose id is taken. -/
def ChannelEvent.discards : ChannelEvent V → List V
  | .opened id replaced => if id = channel then (replaced.map VmChannel.queue).getD [] else []
  | .collected id found _ => if id = channel ∧ found.senders ≠ 0 then found.queue else []
  | _ => []

variable (channels : Channels V)

/-- The values whose send returned `Ok`, in the order of those sends. -/
def Channels.accepted : List V := channels.history.flatMap (ChannelEvent.accepts channel)

/-- The values handed out, in order. -/
def Channels.handedOut : List V := channels.history.flatMap (ChannelEvent.handsOut channel)

def Channels.discarded : List V := channels.history.flatMap (ChannelEvent.discards channel)

/-- The values still queued. -/
def Channels.queued : List V := ((SortedMap.get channel channels.table).map VmChannel.queue).getD []

/-- What was accepted is handed out or still queued, in order. -/
def Channels.Conserved : Prop :=
  channels.handedOut channel ++ channels.queued channel = channels.accepted channel

/-- No queue is longer than its channel's capacity. -/
def Channels.Bounded : Prop :=
  ∀ channel state, SortedMap.get channel channels.table = some state →
    state.queue.length ≤ state.capacity

/-- The books of a channel: balanced while nothing was discarded, and short of
exactly what was discarded otherwise. -/
structure Channels.Booked : Prop where
  conserved : channels.discarded channel = [] → channels.Conserved channel
  count : (channels.handedOut channel).length + (channels.queued channel).length +
    (channels.discarded channel).length = (channels.accepted channel).length

end History

attribute [local simp] Channels.discarded channelCollect

section Calls

variable {V : Type} {channel id : Int} {channels channels' : Channels V}

/-- The books after a call are balanced if the call itself is. -/
theorem Channels.Booked.step (h : channels.Booked channel)
    (hhistory : channels'.history = channels.history ++ [event])
    (hconserved : event.discards channel = [] → event.handsOut channel ++ channels'.queued channel =
      channels.queued channel ++ event.accepts channel)
    (hcount : (event.handsOut channel).length + (channels'.queued channel).length + (event.discards
      channel).length = (channels.queued channel).length + (event.accepts channel).length) :
    channels'.Booked channel := by
  have hbooks := h.count
  constructor
  · intro hnone
    obtain ⟨hbefore, hnow⟩ : channels.discarded channel = [] ∧ event.discards channel = [] := by
      simpa [hhistory] using hnone
    have hold : channels.handedOut channel ++ channels.queued channel =
      channels.accepted channel := h.conserved hbefore
    have hevent := hconserved hnow
    simp only [Conserved, handedOut, accepted, hhistory,
      flatMap_append, flatMap_singleton, append_assoc]
    rw [hevent, ← append_assoc]
    exact congrArg (· ++ event.accepts channel) hold
  · simp only [handedOut, discarded, accepted, hhistory,
      flatMap_append, flatMap_singleton, length_append] at hbooks hcount ⊢
    omega

/-- A call that only changes who holds the ends of a channel. -/
theorem Channels.update_queued (channels : Channels V) (id : Int)
    (hqueue : ∀ state, (change state).queue = state.queue) :
    (channels.update id change).2.queued channel = channels.queued channel := by
  unfold update
  split
  · rfl
  · rename_i state hstate
    simp only [queued, get_insert]
    split
    · rename_i heq
      subst heq
      simp [hstate, hqueue]
    · rfl

@[simp] theorem Channels.update_history (channels : Channels V) (id : Int)
    (change : VmChannel V → VmChannel V) :
    (channels.update id change).2.history = channels.history := by
  unfold update
  split <;> rfl

theorem Channels.Booked.update (h : channels.Booked channel)
    (hqueue : ∀ state, (change state).queue = state.queue) :
    (channels.update id change).2.Booked channel := by
  have hqueued : (channels.update id change).2.queued channel = channels.queued channel :=
    channels.update_queued id hqueue
  have hhistory := channels.update_history id change
  have hconserved := h.conserved
  have hcount := h.count
  constructor
  · simpa [Conserved, handedOut, accepted, hhistory, hqueued]
      using hconserved
  · simpa [handedOut, accepted, hhistory, hqueued]
      using hcount

/-- A send queues its value, or changes nothing. -/
theorem channelSend_cases (table : ChannelTable V) (sender : VmSender) (value : V) :
    (∃ message, channelSend table sender value = (.error message, table)) ∨
    ∃ state, SortedMap.get sender.channelId table = some state ∧
      state.queue.length < state.capacity ∧
      channelSend table sender value = (.ok (), SortedMap.insert sender.channelId
        { state with queue := state.queue ++ [value] } table) := by
  unfold channelSend
  split
  · exact .inl ⟨_, rfl⟩
  split
  · exact .inl ⟨_, rfl⟩
  rename_i state hstate
  split
  · exact .inl ⟨_, rfl⟩
  split
  · exact .inl ⟨_, rfl⟩
  · rename_i hspace
    exact .inr ⟨state, hstate, Nat.lt_of_not_le hspace, rfl⟩

/-- A receive hands out the oldest value, or changes nothing. -/
theorem channelRecv_cases (table : ChannelTable V) (id : Int) :
    (∃ message, channelRecv table id = (.error message, table)) ∨
    channelRecv table id = (.ok none, table) ∨
    ∃ state value queue, SortedMap.get id table = some state ∧ state.queue = value :: queue ∧
      channelRecv table id =
        (.ok (some value), SortedMap.insert id { state with queue := queue } table) := by
  unfold channelRecv
  split
  · exact .inl ⟨_, rfl⟩
  rename_i state hstate
  split
  · rename_i value queue hqueue
    exact .inr (.inr ⟨state, value, queue, hstate, hqueue, rfl⟩)
  · split
    · exact .inr (.inl rfl)
    · exact .inl ⟨_, rfl⟩

section Booked

variable (h : channels.Booked channel)

include h

attribute [local simp] Channels.queued

/-- A call that stores one channel's new state is balanced if it is so at that
channel. -/
theorem Channels.Booked.store (hstate : SortedMap.get id channels.table = some state)
    (hother : channel ≠ id → event.discards channel = [] ∧ event.handsOut channel = [] ∧
      event.accepts channel = []) (hconserved : channel = id → event.discards channel = [] →
      event.handsOut channel ++ state'.queue = state.queue ++ event.accepts channel)
    (hcount : channel = id → (event.handsOut channel).length + state'.queue.length + (event.discards
      channel).length = state.queue.length + (event.accepts channel).length) :
    ({ channels with
      table := SortedMap.insert id state' channels.table
      history := channels.history ++ [event] } : Channels V).Booked channel := by
  by_cases heq : channel = id
  · subst heq
    apply h.step rfl
    · simpa [hstate] using hconserved rfl
    · simpa [hstate] using hcount rfl
  · obtain ⟨hdiscards, hhandsOut, haccepts⟩ := hother heq
    apply h.step rfl
    · simp [get_insert_of_ne heq, hhandsOut, haccepts]
    · simp [get_insert_of_ne heq, hdiscards, hhandsOut, haccepts]

/-- A call that changes no channel is balanced if nothing was accepted, handed out
or discarded. -/
theorem Channels.Booked.note (hdiscards : event.discards channel = [])
    (hhandsOut : event.handsOut channel = []) (haccepts : event.accepts channel = []) :
    ({ channels with history := channels.history ++ [event] } : Channels V).Booked channel := by
  apply h.step rfl
  · simp [hhandsOut, haccepts]
  · simp [hdiscards, hhandsOut, haccepts]

attribute [local simp] ChannelEvent.handsOut ChannelEvent.accepts ChannelEvent.discards

theorem Channels.Booked.send (sender : VmSender) (value : V) :
    (answerChannel _ (.send sender value) channels).2.Booked channel := by
  rcases channelSend_cases channels.table sender value with
    ⟨message, hsend⟩ | ⟨state, hstate, -, hsend⟩
  · simp only [answerChannel, hsend]
    exact h.note rfl rfl rfl
  · simp only [answerChannel, hsend]
    apply h.store hstate
    · intro hne
      simp [Ne.symm hne]
    · rintro rfl -
      simp
    · rintro rfl
      simp

theorem Channels.Booked.recv (id : Int) :
    (answerChannel _ (.recv id) channels).2.Booked channel := by
  rcases channelRecv_cases channels.table id with
    ⟨message, hrecv⟩ | hrecv | ⟨state, value, queue, hstate, hqueue, hrecv⟩
  · simp only [answerChannel, hrecv]
    exact h.note rfl rfl rfl
  · simp only [answerChannel, hrecv]
    exact h.note rfl (by simp) rfl
  · simp only [answerChannel, hrecv]
    apply h.store hstate
    · intro hne
      simp [Ne.symm hne]
    · rintro rfl -
      simp [hqueue]
    · rintro rfl
      simp [hqueue]
      omega

/-- A collect hands the queue out if no sender is open, and discards it otherwise. -/
theorem Channels.Booked.collect (id : Int) :
    (answerChannel _ (.collect id) channels).2.Booked channel := by
  simp only [answerChannel]
  split
  · exact h
  · rename_i found hfound
    apply h.store hfound
    · intro hne
      by_cases hopen : found.senders = 0 <;>
        simp [hopen, Ne.symm hne]
    · rintro rfl
      by_cases hopen : found.senders = 0 <;>
        simp [hopen]
    · rintro rfl
      by_cases hopen : found.senders = 0 <;>
        simp [hopen]

theorem Channels.Booked.bounded (capacity : Nat) :
    (answerChannel _ (.bounded capacity) channels).2.Booked channel := by
  simp only [answerChannel]
  apply h.step rfl
  · simp only [queued, get_insert, discards]
    grind [handsOut, accepts, VmChannel.new]
  · simp only [queued, get_insert, discards]
    grind [handsOut, accepts, VmChannel.new]

end Booked

theorem answerChannel_booked (h : channels.Booked channel) :
    (answerChannel β request channels).2.Booked channel := by
  cases request with
  | table => exact h
  | bounded capacity => exact h.bounded capacity
  | addSender | closeSender | takeReceiver | closeReceiver => exact h.update fun _ => rfl
  | send sender value => exact h.send sender value
  | recv id => exact h.recv id
  | collect id => exact h.collect id

theorem Channels.Bounded.store (h : channels.Bounded) (id : Int)
    (hstate : state'.queue.length ≤ state'.capacity) (history : List (ChannelEvent V)) (next : Int) :
    (⟨SortedMap.insert id state' channels.table, next, history⟩ : Channels V).Bounded := by
  intro channel found hfound
  rw [get_insert] at hfound
  split at hfound
  · cases hfound
    exact hstate
  · exact h channel found hfound

theorem Channels.Bounded.update (h : channels.Bounded)
    (hqueue : ∀ state, (change state).queue = state.queue)
    (hcapacity : ∀ state, (change state).capacity = state.capacity) :
    (channels.update id change).2.Bounded := by
  unfold Channels.update
  split
  · exact h
  · rename_i state hstate
    apply h.store
    rw [hqueue, hcapacity]
    exact h id state hstate

theorem answerChannel_bounded (h : channels.Bounded) :
    (answerChannel β request channels).2.Bounded := by
  cases request with
  | table => exact h
  | bounded capacity => exact h.store _ (Nat.zero_le _) _ _
  | addSender | closeSender | takeReceiver | closeReceiver =>
    exact h.update (fun _ => rfl) fun _ => rfl
  | send sender value =>
    rcases channelSend_cases channels.table sender value with
      ⟨message, hsend⟩ | ⟨state, -, hspace, hsend⟩
    · simp only [answerChannel, hsend]
      exact h
    · simp only [answerChannel, hsend]
      exact h.store _ (by rw [length_append]; exact hspace) _ _
  | recv id =>
    rcases channelRecv_cases channels.table id with
      ⟨message, hrecv⟩ | hrecv | ⟨state, value, queue, hstate, hqueue, hrecv⟩
    · simp only [answerChannel, hrecv]
      exact h
    · simp only [answerChannel, hrecv]
      exact h
    · have hroom := h id state hstate
      rw [hqueue] at hroom
      simp only [answerChannel, hrecv]
      exact h.store _ (Nat.le_of_succ_le hroom) _ _
  | collect id =>
    simp only [answerChannel]
    split
    · exact h
    · exact h.store _ (Nat.zero_le _) _ _

end Calls

section Runs

variable {V H K : Type}

/-- The channels of a run after `n` steps. -/
def channelsAfter (env : Environment V) (unit : RegUnit) (host : Host V H K) (state : H)
    (orders : Nat → HashOrder) (name : String) (args : List String) (n : Nat) : Channels V :=
  ((Config.start env unit host state name args).run env unit host orders n).world.channels

/-- Along every run, what a channel accepted is what it handed out and still holds,
if and only if no call has emptied its queue for nobody; and no queue is longer
than its capacity. -/
theorem channel_conservation (env : Environment V) (unit : RegUnit) (host : Host V H K) (state : H)
    (orders : Nat → HashOrder) (name : String) (args : List String) (n : Nat) :
    let channels := channelsAfter env unit host state orders name args n
    (∀ channel, channels.Conserved channel ↔
      ∀ event ∈ channels.history, event.discards channel = []) ∧ channels.Bounded := by
  intro channels
  have hbooked : ∀ channel, channels.Booked channel := fun channel =>
    Config.world_invariant (fun world => world.channels.Booked channel)
      ⟨fun _ => rfl, rfl⟩ (by
        intro β request world h
        cases request with
        | host | resource => exact h
        | channel request => exact answerChannel_booked h) orders name args n
  constructor
  · intro channel
    have hcount := (hbooked channel).count
    rw [← flatMap_eq_nil_iff]
    constructor
    · intro hconserved
      have hlength : (channels.handedOut channel ++ channels.queued channel).length =
        (channels.accepted channel).length := congrArg length hconserved
      rw [length_append] at hlength
      have hnone : (channels.discarded channel).length = 0 := by omega
      exact eq_nil_of_length_eq_zero hnone
    · exact (hbooked channel).conserved
  · exact Config.world_invariant (fun world => world.channels.Bounded)
      (by intro _ _ h; cases h) (by
        intro β request world h
        cases request with
        | host | resource => exact h
        | channel request => exact answerChannel_bounded h) orders name args n

/-- Opens a channel, queues one value and collects the stream while the sender is
open. -/
def collectOpen : RegUnit := smallUnit [smallFunction 0 0 6 [
  loadInt 0 1,
  .callIntrinsic 1 "ChannelBounded" [0],
  unwrapOk 1 1,
  .callIntrinsic 2 "ChannelSender" [1],
  .callIntrinsic 3 "ChannelReceiver" [1],
  unwrapOk 3 3,
  .callIntrinsic 4 "ReceiverIntoStream" [3],
  .callIntrinsic 5 "SenderSend" [2, 0],
  .callIntrinsic 5 "StreamCollectList" [4],
  .ret 5]]

/-- The collect fails and the value that was sent is gone. -/
theorem collectOpen_loses :
    ¬(channelsAfter smallEnvironment collectOpen basicHost "" (fun _ => .byId) "main" [] 22).Conserved
      1 := by
  intro hconserved
  have hlength := congrArg length hconserved
  revert hlength
  decide +kernel

end Runs

end RSScript.Vm
