import RSScript.Vm.Conservation
import RSScript.Vm.Phases

/-!
# Woken channel operations

A pass of the scheduler finds the tasks it can wake from one state of the
channels and then resolves waits one after the other. A parked receive or
send gets what it was woken for if the pass starts with a value or a place for
each of the tasks it found, and nothing else uses the channels during it.
-/

namespace RSScript.Vm

open Program SortedMap Option
open List hiding after

variable {V H K : Type}

/-! ## Parked operations -/

/-- The channel of a parked operation exists, and a parked sender is open. -/
def ChannelWait.Known (table : ChannelTable V) : ChannelWait V → Prop
  | .recv channel => (SortedMap.get channel table).isSome
  | .send sender _ => sender.closed = false ∧ (SortedMap.get sender.channelId table).isSome

/-- No channel disappears. -/
def KeepsChannels (before after : ChannelTable V) : Prop :=
  ∀ channel, (SortedMap.get channel before).isSome → (SortedMap.get channel after).isSome

/-- What the running task is about to park on. -/
def Suspended (vm : Machine V) (table : ChannelTable V) : Prop :=
  ∀ blocked resumeDst, vm.suspension = some ⟨.channel blocked, resumeDst⟩ →
    blocked.Known table ∧ resumeDst.isSome

/-- A task that waits has its registers saved, and what it waits for is known. -/
structure TaskSlot.Parked (slot : TaskSlot V) (table : ChannelTable V) : Prop where
  saved : slot.wait.isSome → slot.saved.isSome
  channel : ∀ blocked, slot.wait = some (.channel blocked) →
    blocked.Known table ∧ slot.resumeDst.isSome

structure Parked (vm : Machine V) (table : ChannelTable V) : Prop where
  slots : ∀ tid slot, vm.slot tid = some slot → slot.Parked table
  suspended : Suspended vm table

theorem KeepsChannels.refl (table : ChannelTable V) : KeepsChannels table table := fun _ => id

theorem KeepsChannels.trans (h : KeepsChannels table table') (h' : KeepsChannels table' table'') :
    KeepsChannels table table'' :=
  fun channel hknown => h' channel (h channel hknown)

variable {blocked : ChannelWait V}

theorem ChannelWait.Known.keep (h : blocked.Known before) (hkeeps : KeepsChannels before after) :
    blocked.Known after := by
  cases blocked with
  | recv channel => exact hkeeps channel h
  | send sender value => exact ⟨h.1, hkeeps _ h.2⟩

variable {slot : TaskSlot V}

theorem TaskSlot.Parked.keep (h : slot.Parked before) (hkeeps : KeepsChannels before after) :
    slot.Parked after :=
  ⟨h.saved, fun blocked hwait =>
    let ⟨hknown, hresumes⟩ := h.channel blocked hwait
    ⟨hknown.keep hkeeps, hresumes⟩⟩

theorem TaskSlot.parked_of_none (table : ChannelTable V) (h : slot.wait = none) :
    slot.Parked table :=
  ⟨fun hwait => by simp [h] at hwait, fun blocked hwait => by simp [h] at hwait⟩

theorem keepsChannels_insert : KeepsChannels table (SortedMap.insert channel state table) := by
  intro other hother
  rw [get_insert]
  split
  · rfl
  · exact hother

theorem answerChannel_keeps (request : ChannelCall V β) :
    KeepsChannels channels.table (answerChannel β request channels).2.table := by
  cases request with
  | table => exact .refl _
  | bounded => exact keepsChannels_insert
  | addSender | closeSender | takeReceiver | closeReceiver =>
    simp only [answerChannel, Channels.update]
    split
    · exact .refl _
    · exact keepsChannels_insert
  | send sender value =>
    rcases channelSend_cases channels.table sender value with ⟨message, hsend⟩ | ⟨state, -, -, hsend⟩
    · simpa only [answerChannel, hsend] using .refl _
    · simpa only [answerChannel, hsend] using keepsChannels_insert
  | recv channel =>
    rcases channelRecv_cases channels.table channel with
      ⟨message, hrecv⟩ | hrecv | ⟨state, value, queue, -, -, hrecv⟩
    · simpa only [answerChannel, hrecv] using .refl _
    · simpa only [answerChannel, hrecv] using .refl _
    · simpa only [answerChannel, hrecv] using keepsChannels_insert
  | collect channel =>
    simp only [answerChannel]
    split
    · exact .refl _
    · exact keepsChannels_insert

/-! ## Instructions -/

variable {value : V}

section Instructions

variable {host : Host V H K} {env : Environment V} {unit : RegUnit} {vm vm' : Machine V}
  {world world' : World V H}

variable {α : Type}

theorem run_keeps {program : VmM V K α}
    (hrun : program.runOn (answer host) vm world = .ok (result, vm', world')) :
    KeepsChannels world.channels.table world'.channels.table := by
  let between (world world' : World V H) : Prop :=
    KeepsChannels world.channels.table world'.channels.table
  have : IsPreorder _ between := { refl := fun _ => .refl _, trans := fun _ _ _ => KeepsChannels.trans }
  refine runOn_between between (fun request world => ?_) hrun
  cases request with
  | host | resource => exact .refl _
  | channel call => exact answerChannel_keeps call

theorem Suspended.talks {program : VmM V K α} (hsuspended : Suspended vm world.channels.table)
    (h : TalksTo returned program)
    (hrun : program.runOn (answer host) vm world = .ok (result, vm', world')) :
    Suspended vm' world'.channels.table := by
  intro blocked resumeDst hwait
  obtain ⟨before, hbefore, hresumes⟩ := (h.keeps hrun).quiet.channelWait blocked resumeDst hwait
  obtain ⟨hknown, hsome⟩ := hsuspended blocked before hbefore
  exact ⟨hknown.keep (run_keeps hrun), hresumes hsome⟩

/-- A channel operation has not yet recorded the register for its result. -/
def Parkable (vm : Machine V) (table : ChannelTable V) : Prop :=
  ∀ blocked resumeDst, vm.suspension = some ⟨.channel blocked, resumeDst⟩ → blocked.Known table

variable {dst : Nat}

theorem Suspended.parkable (h : Suspended vm table) : Parkable vm table :=
  fun blocked resumeDst hwait => (h blocked resumeDst hwait).1

theorem recvOrPark_run : (recvOrPark env channel : VmM V K V).runOn (answer host) vm world =
      if channelReady world.channels.table channel then
        .ok (.ok (recvResult env (channelRecv world.channels.table channel).1), vm,
          { world with channels := (answerChannel _ (.recv channel) world.channels).2 })
      else .ok (.ok env.unit, { vm with suspension := some ⟨.channel (.recv channel), none⟩ }, world) := by
  by_cases hready : channelReady world.channels.table channel <;>
    simp [recvOrPark, park, channelCall, runOn_call, answer, answerChannel, hready]

theorem sendOrPark_run : (sendOrPark env sender value : VmM V K V).runOn (answer host) vm world =
      if channelSendWouldBlock world.channels.table sender then
        .ok (.ok env.unit, { vm with suspension := some ⟨.channel (.send sender value), none⟩ }, world)
      else
        .ok (.ok (sendResult env (channelSend world.channels.table sender value).1), vm,
          { world with channels := (answerChannel _ (.send sender value) world.channels).2 }) := by
  by_cases hblock : channelSendWouldBlock world.channels.table sender <;>
    simp [sendOrPark, park, channelCall, runOn_call, answer, answerChannel, hblock]

theorem known_of_not_ready (h : channelReady table channel = false) :
    (ChannelWait.recv channel).Known table := by
  rcases hstate : get channel table with _ | state
  · simp [channelReady, hstate] at h
  · simp [ChannelWait.Known, hstate]

theorem known_of_sendWouldBlock (h : channelSendWouldBlock table sender) :
    (ChannelWait.send sender value).Known table := by
  unfold channelSendWouldBlock at h
  split at h
  · cases h
  · rename_i hclosed
    rcases hstate : get sender.channelId table with _ | state
    · simp [hstate] at h
    · exact ⟨by simpa using hclosed, by rw [hstate]; rfl⟩

theorem Suspended.keep (h : Suspended vm table) (hkeeps : KeepsChannels table table') :
    Suspended vm table' := fun blocked resumeDst hwait =>
  let ⟨hknown, hsome⟩ := h blocked resumeDst hwait
  ⟨hknown.keep hkeeps, hsome⟩

theorem parkable_of_suspension (h : blocked.Known table) :
    Parkable { vm with suspension := some ⟨.channel blocked, resumeDst⟩ } table := by
  rintro _ _ ⟨⟩
  exact h

/-- A channel operation fails only before it parks. -/
theorem Parking.run (h : Parking env program) (hsuspended : Suspended vm world.channels.table)
    (hrun : program.runOn (answer host) vm world = .ok (result, vm', world')) :
    Parkable vm' world'.channels.table ∧
      ∀ error, result = .error error → Suspended vm' world'.channels.table := by
  induction h generalizing vm world with
  | talks h =>
    have hafter := hsuspended.talks h hrun
    exact ⟨hafter.parkable, fun _ _ => hafter⟩
  | recv channel =>
    rw [recvOrPark_run] at hrun
    split at hrun
    · obtain ⟨rfl, rfl, rfl⟩ := (by simpa using hrun)
      have hafter := hsuspended.keep (answerChannel_keeps (.recv channel))
      exact ⟨hafter.parkable, nofun⟩
    · rename_i hready
      obtain ⟨rfl, rfl, rfl⟩ := (by simpa using hrun)
      exact ⟨parkable_of_suspension (known_of_not_ready (by simpa using hready)), nofun⟩
  | send sender value =>
    rw [sendOrPark_run] at hrun
    split at hrun
    · rename_i hblock
      obtain ⟨rfl, rfl, rfl⟩ := (by simpa using hrun)
      exact ⟨parkable_of_suspension (known_of_sendWouldBlock hblock), nofun⟩
    · obtain ⟨rfl, rfl, rfl⟩ := (by simpa using hrun)
      have hafter := hsuspended.keep (answerChannel_keeps (.send sender value))
      exact ⟨hafter.parkable, nofun⟩
  | after hfirst _ ih =>
    rcases runOn_bind_ok hrun with ⟨error, hfailed, rfl⟩ | ⟨value, vm₁, world₁, hreturned, hrest⟩
    · have hafter := hsuspended.talks hfirst hfailed
      exact ⟨hafter.parkable, fun _ _ => hafter⟩
    · exact ih value (hsuspended.talks hfirst hreturned) hrest

/-- The register for the result is recorded at the end of the intrinsic. -/
theorem Parkable.finish
    (h : Parkable vm world.channels.table)
    (hrun : (finishHost ⟨dst, nextBase, true⟩ value : VmM V K Unit).runOn (answer host) vm world =
      .ok (result, vm', world')) : Suspended vm' world'.channels.table := by
  rcases hsuspension : vm.suspension with _ | suspension
  · have hnone : Suspended vm world.channels.table := fun _ _ hwait => by
      rw [hsuspension] at hwait
      cases hwait
    exact hnone.talks (talks_of_local (local_finishHost ..)) hrun
  · obtain ⟨-, rfl, rfl⟩ := (by simpa [finishHost, hsuspension] using hrun)
    intro blocked resumeDst hwait
    obtain ⟨hblocked, rfl⟩ := (by simpa using hwait)
    refine ⟨h blocked suspension.resumeDst ?_, rfl⟩
    rw [hsuspension, ← hblocked]

/-- Go on after a program that does not park. -/
theorem Suspended.bind
    {result : Except EvalError β} (hsuspended : Suspended vm world.channels.table)
    (hfirst : Talks first) (hnext : ∀ value vm₁ world₁, Suspended vm₁ world₁.channels.table →
      (cont value).runOn (answer host) vm₁ world₁ = .ok (result, vm', world') →
      Suspended vm' world'.channels.table)
    (hrun : (first >>= cont).runOn (answer host) vm world = .ok (result, vm', world')) :
    Suspended vm' world'.channels.table := by
  rcases runOn_bind_ok hrun with ⟨error, hfailed, -⟩ | ⟨value, vm₁, world₁, hreturned, hrest⟩
  · exact hsuspended.talks hfirst hfailed
  · exact hnext value vm₁ world₁ (hsuspended.talks hfirst hreturned) hrest

theorem Suspended.execIntrinsic
    {result : Except EvalError (List (Op V K))} (hsuspended : Suspended vm world.channels.table)
    (hin : intrinsic ∈ channelIntrinsics)
    (hrun : (execIntrinsic env base nextBase dst intrinsic args).runOn (answer host) vm world =
      .ok (result, vm', world')) : Suspended vm' world'.channels.table := by
  refine hsuspended.bind (talks_of_local (local_checkOperands ..)) (fun budget vm₁ world₁ h₁ => ?_) hrun
  refine h₁.bind (talks_of_local local_hostCall) fun _ vm₂ world₂ h₂ => ?_
  refine h₂.bind (talks_of_local (local_operandsOf ..)) fun operands vm₃ world₃ h₃ hrest => ?_
  rw [if_pos hin] at hrest
  rcases runOn_bind_ok hrest with ⟨error, hfailed, -⟩ | ⟨value, vm₄, world₄, hreturned, hrest⟩
  · exact ((parking_execChannelIntrinsic ..).run h₃ hfailed).2 error rfl
  have hparkable := ((parking_execChannelIntrinsic ..).run h₃ hreturned).1
  have hpure : Talks (pure [] : VmM V K (List (Op V K))) := trivial
  rw [runOn_bind, runOn_get, andThen_returned] at hrest
  split at hrest
  · rename_i haccounted
    -- The result was computed at once, so nothing is parked.
    have hnone : Suspended vm₄ world₄.channels.table := fun _ _ hwait => by
      simp [hwait] at haccounted
    refine hnone.bind (talks_of_local local_hostCall) (fun _ vm₅ world₅ h₅ => ?_) hrest
    exact h₅.bind (talks_of_local (local_finishHost ..)) fun _ _ _ h₆ => h₆.talks hpure
  · rcases runOn_bind_ok hrest with ⟨error, hfailed, -⟩ | ⟨_, vm₅, world₅, hreturned, hrest⟩
    · exact hparkable.finish hfailed
    · exact (hparkable.finish hreturned).talks hpure hrest

theorem Suspended.advance {frame : Frame} (hsuspended : Suspended vm world.channels.table)
    (hinstr : frame.func.code[frame.ip]? = some (.callIntrinsic dst intrinsic args))
    (hin : intrinsic ∈ channelIntrinsics)
    (hrun : (advance env unit floor frame).runOn (answer host) vm world =
      .ok (result, vm', world')) :
    Suspended vm' world'.channels.table := by
  simp only [Vm.advance, hinstr] at hrun
  refine hsuspended.bind (talks_of_local local_hostCall) (fun _ vm₁ world₁ h₁ => ?_) hrun
  refine h₁.bind (talks_of_local (local_setIp _)) fun _ vm₂ world₂ h₂ hrest => ?_
  rcases runOn_bind_ok hrest with ⟨error, hfailed, -⟩ | ⟨ops, vm₃, world₃, hreturned, hrest⟩
  · exact h₂.execIntrinsic hin hfailed
  · have hpush : Talks (pure (.push (ops ++ [.poll floor])) : VmM V K (Progress V K)) := trivial
    exact (h₂.execIntrinsic hin hreturned).talks hpush hrest

/-! ## Steps -/

theorem Parked.evolve (h : Parked vm table) (hevolves : Evolves vm vm')
    (hkeeps : KeepsChannels table table') (hsuspended : Suspended vm' table') :
    Parked vm' table' := by
  refine ⟨fun tid slot hslot => ?_, hsuspended⟩
  rcases hevolves.slots tid slot hslot with hbefore | ⟨-, hnone, -⟩
  · exact (h.slots tid slot hbefore).keep hkeeps
  · exact slot.parked_of_none table' hnone

/-- One slot is replaced. -/
theorem Parked.insert (h : Parked vm table)
    (htasks : vm'.tasks = SortedMap.insert tid slot vm.tasks) (hslot : slot.Parked table)
    (hsuspended : Suspended vm' table) : Parked vm' table := by
  refine ⟨fun other found hfound => ?_, hsuspended⟩
  rw [Machine.slot, htasks, get_insert] at hfound
  split at hfound
  · exact some.inj hfound ▸ hslot
  · exact h.slots other found hfound

theorem Parked.quiet (h : Parked vm table) (hquiet : Quiet vm vm') : Parked vm' table := by
  refine h.evolve hquiet.evolves (.refl table) fun blocked resumeDst hwait => ?_
  obtain ⟨before, hbefore, hresumes⟩ := hquiet.channelWait blocked resumeDst hwait
  obtain ⟨hknown, hsome⟩ := h.suspended blocked before hbefore
  exact ⟨hknown, hresumes hsome⟩

end Instructions

section Steps

variable {host : Host V H K} {env : Environment V} {unit : RegUnit} {order : HashOrder}
  {config next : Config V H K} {op : Op V K} {inner : List (Op V K)} {phase : Phase V}
  {result : Except EvalError (Progress V K)}

/-- A channel intrinsic is about to be executed. -/
theorem Config.instruction_onChannels (hinstr : config.instruction = some instr)
    (h : instr.OnChannels) (hagenda : config.agenda = op :: inner ++ phase.ops) :
    config.control = .next ∧ ∃ floor frame dst intrinsic args, op = .drive floor ∧
      config.vm.running.frames.head? = some frame ∧
      frame.func.code[frame.ip]? = some (.callIntrinsic dst intrinsic args) ∧
      intrinsic ∈ channelIntrinsics := by
  unfold Config.instruction at hinstr
  split at hinstr
  · rename_i hcontrol hdrive
    obtain ⟨frame, hframe, hcode⟩ := bind_eq_some_iff.mp hinstr
    cases instr with
    | callIntrinsic dst intrinsic args =>
      rw [hagenda] at hdrive
      obtain ⟨rfl, -⟩ := cons.inj hdrive
      exact ⟨hcontrol, _, frame, dst, intrinsic, args, rfl, hframe, hcode, h⟩
    | _ => cases h
  · cases hinstr

theorem Parked.performed (hparked : Parked config.vm config.world.channels.table)
    (hat : config.At (op :: inner) phase)
    (hrun : (config.program env unit order op).runOn (answer host) config.vm config.world =
      .ok (result, next.vm, next.world)) : Parked next.vm next.world.channels.table := by
  by_cases hchannels : ∃ instr, config.instruction = some instr ∧ instr.OnChannels
  · obtain ⟨instr, hinstr, honChannels⟩ := hchannels
    obtain ⟨hcontrol, floor, frame, dst, intrinsic, args, rfl, hframe, hcode, hin⟩ :=
      config.instruction_onChannels hinstr honChannels hat.agenda
    simp only [Config.program, hcontrol] at hrun
    have hevolves := (evolves_perform env unit order (allInner_cons.mp hat.inner).1).keeps hrun
    refine hparked.evolve hevolves (run_keeps hrun) ?_
    rw [perform, driveStep_run, hframe] at hrun
    exact hparked.suspended.advance hcode hin hrun
  · have hquiet := hat.quiet (fun instr hinstr honChannels => hchannels ⟨instr, hinstr, honChannels⟩) hrun
    rw [hquiet.2]
    exact hparked.quiet hquiet.1

theorem Parked.moves (hparked : Parked config.vm config.world.channels.table)
    (hat : config.At inner phase) (hmoves : config.Moves env unit order host next inner phase) :
    Parked next.vm next.world.channels.table := by
  cases hmoves with
  | idle _ _ _ still =>
    rw [still.channels]
    refine ⟨fun tid slot hslot => hparked.slots tid slot ?_, fun blocked resumeDst hwait => ?_⟩
    · rwa [Machine.slot, still.tasks] at hslot
    · exact hparked.suspended blocked resumeDst (still.suspension ▸ hwait)
  | inner _ run => exact hparked.performed hat run
  | @dispatched root tid slot saved _ found runnable _ queue vm world =>
    have hnone : slot.wait = none := by
      simp only [TaskSlot.runnable, Bool.and_eq_true, isNone_iff_eq_none] at runnable
      exact runnable.1.2
    rw [world, vm]
    exact hparked.insert rfl (TaskSlot.parked_of_none _ hnone) hparked.suspended
  | @finished root tid slot value _ found tasks _ suspension world =>
    rw [world]
    have hslot := hparked.slots tid slot found
    refine hparked.insert tasks ⟨hslot.saved, hslot.channel⟩ ?_
    intro blocked resumeDst hwait
    exact hparked.suspended blocked resumeDst (suspension ▸ hwait)
  | @suspended root tid slot suspension _ found waits vm world =>
    rw [world, vm]
    refine hparked.insert rfl ⟨fun _ => rfl, fun blocked hwait => ?_⟩ (by rintro _ _ ⟨⟩)
    refine hparked.suspended blocked suspension.resumeDst ?_
    rw [waits, ← some.inj hwait]
  | woken _ _ vm world => rwa [vm, world]
  | resolved _ _ _ _ run =>
    have hunwaits := (resolveWait_unwaits run).1
    have hkeeps := run_keeps run
    refine ⟨fun tid slot hslot => ?_, fun blocked resumeDst hwait => ?_⟩
    · rcases hunwaits.slots tid slot hslot with hnone | hbefore
      · exact slot.parked_of_none _ hnone
      · exact (hparked.slots tid slot hbefore).keep hkeeps
    · rw [hunwaits.suspension] at hwait
      exact (hparked.suspended.keep hkeeps) blocked resumeDst hwait
  | @completed completion tasks loop slot saved written _ found parked writes vm world =>
    rw [world, vm]
    have hslot := hparked.slots _ slot found
    exact hparked.insert rfl ⟨fun _ => rfl, hslot.channel⟩ hparked.suspended

end Steps

/-! ## What a pass promises -/

/-- Whether a task is parked in a receive from the channel. -/
def Machine.receives (vm : Machine V) (channel : Int) (tid : Nat) : Bool :=
  match (vm.slot tid).bind TaskSlot.wait with
  | some (.channel (.recv id)) => id = channel
  | _ => false

/-- Whether a task is parked in a send to the channel. -/
def Machine.sends (vm : Machine V) (channel : Int) (tid : Nat) : Bool :=
  match (vm.slot tid).bind TaskSlot.wait with
  | some (.channel (.send sender _)) => sender.channelId = channel
  | _ => false

/-- Every channel has a value for each of the tasks that receive from it, or no
sender any more, and a place for each of the tasks that send to it, or no receiver. -/
def Fits (vm : Machine V) (table : ChannelTable V) (tasks : List Nat) : Prop :=
  ∀ channel state, SortedMap.get channel table = some state →
    (tasks.countP (vm.receives channel) ≤ state.queue.length ∨ state.senders = 0) ∧
    (tasks.countP (vm.sends channel) ≤ state.capacity - state.queue.length ∨ state.receiverClosed)

/-- The tasks of `vm'` that wait did so in `vm`. -/
def FewerWaits (vm vm' : Machine V) : Prop :=
  ∀ tid wait, (vm'.slot tid).bind TaskSlot.wait = some wait →
    (vm.slot tid).bind TaskSlot.wait = some wait

theorem Fits.nil (vm : Machine V) (table : ChannelTable V) : Fits vm table [] := by
  intro channel state _
  exact ⟨.inl (by simp), .inl (by simp)⟩

section Fits

variable {vm vm' : Machine V} {tid : Nat} {tasks : List Nat} {channel : Int}

theorem FewerWaits.receives (h : FewerWaits vm vm') (htid : vm'.receives channel tid) :
    vm.receives channel tid := by
  unfold Machine.receives at htid
  split at htid
  · rename_i hwait
    simp only [Machine.receives, h tid _ hwait]
    exact htid
  · cases htid

theorem FewerWaits.sends (h : FewerWaits vm vm') (htid : vm'.sends channel tid) :
    vm.sends channel tid := by
  unfold Machine.sends at htid
  split at htid
  · rename_i hwait
    simp only [Machine.sends, h tid _ hwait]
    exact htid
  · cases htid

theorem Fits.mono (h : Fits vm table tasks) (hwaits : FewerWaits vm vm')
    (htasks : tasks'.Sublist tasks) : Fits vm' table tasks' := by
  intro channel state hstate
  have hreceives : tasks'.countP (vm'.receives channel) ≤ tasks.countP (vm.receives channel) :=
    (countP_mono_left fun _ _ => hwaits.receives).trans htasks.countP_le
  have hsends : tasks'.countP (vm'.sends channel) ≤ tasks.countP (vm.sends channel) :=
    (countP_mono_left fun _ _ => hwaits.sends).trans htasks.countP_le
  exact ⟨(h channel state hstate).1.imp_left hreceives.trans,
    (h channel state hstate).2.imp_left hsends.trans⟩

/-- A slot that is new or changed waits for nothing. -/
theorem fewerWaits_of_slots
    (h : ∀ tid slot, vm'.slot tid = some slot → slot.wait = none ∨ vm.slot tid = some slot) :
    FewerWaits vm vm' := by
  intro tid wait hwait
  obtain ⟨slot, hslot, hsome⟩ := bind_eq_some_iff.mp hwait
  rcases h tid slot hslot with hnone | hbefore
  · rw [hnone] at hsome
    cases hsome
  · exact bind_eq_some_iff.mpr ⟨slot, hbefore, hsome⟩

/-- Taking one value serves one receive. -/
theorem Fits.received (h : Fits vm table (tid :: tasks)) (htid : vm.receives channel tid)
    (hstate : SortedMap.get channel table = some state) (hqueue : state.queue = value :: queue) :
    Fits vm (SortedMap.insert channel { state with queue := queue } table) tasks := by
  intro other found hfound
  rw [get_insert] at hfound
  split at hfound
  · rename_i heq
    obtain rfl := some.inj hfound
    obtain ⟨hvalues, hplaces⟩ := h channel state hstate
    rw [countP_cons_of_pos htid, hqueue, length_cons] at hvalues
    have hsublist := (sublist_cons_self tid tasks).countP_le (p := vm.sends channel)
    rw [hqueue, length_cons] at hplaces
    subst heq
    exact ⟨hvalues.imp_left (by dsimp only; omega), hplaces.imp_left (by dsimp only; omega)⟩
  · exact h.mono (fun _ _ => id) (sublist_cons_self tid tasks) other found hfound

/-- Queueing one value serves one send. -/
theorem Fits.sent (h : Fits vm table (tid :: tasks)) (htid : vm.sends channel tid)
    (hstate : SortedMap.get channel table = some state) :
    Fits vm (SortedMap.insert channel { state with queue := state.queue ++ [value] } table) tasks := by
  intro other found hfound
  rw [get_insert] at hfound
  split at hfound
  · rename_i heq
    obtain rfl := some.inj hfound
    obtain ⟨hvalues, hplaces⟩ := h channel state hstate
    have hsublist := (sublist_cons_self tid tasks).countP_le (p := vm.receives channel)
    rw [countP_cons_of_pos htid] at hplaces
    subst heq
    refine ⟨hvalues.imp_left fun hcount => ?_, hplaces.imp_left fun hcount => ?_⟩
    · simp only [length_append, length_singleton]
      omega
    · simp only [length_append, length_singleton]
      omega
  · exact h.mono (fun _ _ => id) (sublist_cons_self tid tasks) other found hfound

theorem Fits.resolved (h : Fits vm world.channels.table (tid :: tasks))
    (hslot : vm.slot tid = some slot) (hwait : slot.wait = some wait)
    (hrun : (resolveWait env tid).runOn (answer host) vm world = .ok (result, vm', world')) :
    Fits vm' world'.channels.table tasks := by
  have hwaits : FewerWaits vm vm' := fewerWaits_of_slots (resolveWait_unwaits hrun).1.slots
  suffices hfits : Fits vm world'.channels.table tasks from hfits.mono hwaits (.refl tasks)
  have hrest : Fits vm world.channels.table tasks :=
    h.mono (fun _ _ => id) (sublist_cons_self tid tasks)
  cases wait with
  | channel blocked =>
    cases blocked with
    | recv channel =>
      have htid : vm.receives channel tid := by simp [Machine.receives, hslot, hwait]
      obtain ⟨-, -, rfl⟩ := (by simpa [resolveWait_recv env host world hslot hwait] using hrun)
      rcases channelRecv_cases world.channels.table channel with
        ⟨message, hrecv⟩ | hrecv | ⟨state, value, queue, hstate, hqueue, hrecv⟩
      · simpa only [answerChannel, hrecv] using hrest
      · simpa only [answerChannel, hrecv] using hrest
      · simpa only [answerChannel, hrecv] using h.received htid hstate hqueue
    | send sender value =>
      have htid : vm.sends sender.channelId tid := by simp [Machine.sends, hslot, hwait]
      obtain ⟨-, -, rfl⟩ := (by simpa [resolveWait_send env host world hslot hwait] using hrun)
      rcases channelSend_cases world.channels.table sender value with
        ⟨message, hsend⟩ | ⟨state, hstate, -, hsend⟩
      · simpa only [answerChannel, hsend] using hrest
      · simpa only [answerChannel, hsend] using h.sent htid hstate
  | join task =>
    rw [resolveWait_join env host world hslot hwait] at hrun
    split at hrun
    · cases hrun
    · obtain ⟨-, -, rfl⟩ := (by simpa using hrun)
      exact hrest
  | joinAll =>
    obtain ⟨-, -, rfl⟩ := (by simpa [resolveWait_joinAll env host world hslot hwait] using hrun)
    exact hrest
  | select =>
    rw [resolveWait_select env host world hslot hwait] at hrun
    split at hrun
    · cases hrun
    · split at hrun
      · cases hrun
      · obtain ⟨-, -, rfl⟩ := (by simpa using hrun)
        exact hrest

end Fits

/-! ## Runs -/

/-- Whether the next step looks for tasks to wake. -/
def Config.startsPass (config : Config V H K) : Bool :=
  match config.control, config.agenda with
  | .next, .satisfyWaiters :: _ => true
  | _, _ => false

/-- Whether waits of a pass are still to be resolved. -/
def Config.inPass (config : Config V H K) : Bool :=
  config.agenda.any fun
    | .resolveWaits _ => true
    | _ => false

/-- A pass starts with what the tasks it finds need, and during a pass no drop
function uses channels. -/
structure Config.Calm (order : HashOrder) (config : Config V H K) : Prop where
  provides : config.startsPass → Fits config.vm config.world.channels.table
    (config.vm.readyWaiters order config.world.channels.table)
  undisturbed : config.inPass → ∀ instr ∈ config.instruction, ¬instr.OnChannels

instance (vm : Machine V) (table : ChannelTable V) (tasks : List Nat) : Decidable (Fits vm table tasks) :=
  decidable_of_iff
    (∀ channel ∈ table.map Prod.fst, ∀ state ∈ SortedMap.get channel table,
      (tasks.countP (vm.receives channel) ≤ state.queue.length ∨ state.senders = 0) ∧
      (tasks.countP (vm.sends channel) ≤ state.capacity - state.queue.length ∨ state.receiverClosed))
    ⟨fun h channel state hstate =>
      h channel (List.mem_map_of_mem (SortedMap.get_mem hstate)) state hstate,
      fun h channel _ state hstate => h channel state hstate⟩

instance : DecidablePred RegInstr.OnChannels
  | .callIntrinsic _ intrinsic _ => inferInstanceAs (Decidable (intrinsic ∈ channelIntrinsics))
  | .plain .. | .deepCopyElided _ | .tailCallGuard | .runtimeError _ | .jump _ | .jumpIf ..
  | .matchCase .. | .matchGet .. | .makeClosure .. | .callKnown .. | .callDynamic .. | .spawnTask ..
  | .awaitJoin .. | .cancelTask _ | .joinTasks _ | .selectWait .. | .callExternal .. | .callClosure ..
  | .listFilter .. | .listMap .. | .listFold .. | .callback .. | .callTypedIntrinsic .. | .tryResult ..
  | .resourceAcquire _ | .resourceDrop _ | .ret _ | .native .. => inferInstanceAs (Decidable False)

instance (order : HashOrder) (config : Config V H K) : Decidable (config.Calm order) :=
  decidable_of_iff
    ((config.startsPass → Fits config.vm config.world.channels.table
      (config.vm.readyWaiters order config.world.channels.table)) ∧
      (config.inPass → ∀ instr ∈ config.instruction, ¬instr.OnChannels))
    ⟨fun h => ⟨h.1, h.2⟩, fun h => ⟨h.provides, h.undisturbed⟩⟩

/-- Along a calm run the tasks of a pass are still provided for. -/
structure Config.Provided (config : Config V H K) : Prop where
  parked : Parked config.vm config.world.channels.table
  pending : ∃ inner phase, config.At inner phase ∧
    Fits config.vm config.world.channels.table phase.pending

attribute [local simp] channelResult channelRecv channelSend Except.map

section Runs

variable {host : Host V H K} {env : Environment V} {unit : RegUnit} {order : HashOrder}
  {config next : Config V H K} {inner : List (Op V K)} {phase : Phase V}

theorem Phase.inPass (h : phase.pending ≠ []) : ((phase.ops : List (Op V K)).any fun
      | .resolveWaits _ => true
      | _ => false) = true := by
  cases phase with
  | resolving | completing => simp [Phase.ops]
  | _ => exact absurd rfl h

variable {table : ChannelTable V} {vm : Machine V} {slot : TaskSlot V} {tid : Nat} {value : V}
  {tasks : List Nat}

theorem Fits.leads (h : Fits vm table phase.pending) (hleads : phase.Leads phase') :
    Fits vm table phase'.pending := by
  rcases hleads with rfl | ⟨-, hnone | hsame⟩
  · exact h
  · rw [hnone]
    exact .nil vm table
  · rwa [hsame]

theorem fewerWaits_insert (slot' : TaskSlot V) (hslot : vm.slot tid = some slot)
    (htasks : vm'.tasks = SortedMap.insert tid slot' vm.tasks) (hwait : slot'.wait = slot.wait) :
    FewerWaits vm vm' := by
  intro other wait hother
  rw [Machine.slot, htasks, get_insert] at hother
  split at hother
  · rename_i heq
    subst heq
    simpa [hslot, hwait] using hother
  · exact hother

theorem Config.Provided.step (h : config.Provided) (hcalm : config.Calm order) :
    (config.step env unit order host).Provided := by
  obtain ⟨hparked, inner, phase, hat, hfits⟩ := h
  have hmoves : config.Moves env unit order host (config.step env unit order host) inner phase :=
    hat.moves
  refine ⟨hparked.moves hat hmoves, ?_⟩
  cases hmoves with
  | idle at_next _ leads still =>
    refine ⟨_, _, at_next, Fits.leads ?_ leads⟩
    rw [still.channels]
    refine hfits.mono (fun tid wait hwait => ?_) (.refl _)
    rwa [Machine.slot, still.tasks] at hwait
  | @inner op inner _ _ at_next run =>
    refine ⟨_, _, at_next, ?_⟩
    by_cases hpending : phase.pending = []
    · rw [hpending]
      exact .nil _ _
    · have hpass : config.inPass := by
        rw [Config.inPass, hat.agenda, any_append, phase.inPass hpending, Bool.or_true]
      obtain ⟨hquiet, hchannels⟩ := hat.quiet (hcalm.undisturbed hpass) run
      rw [hchannels]
      refine hfits.mono (fewerWaits_of_slots fun tid slot hslot => ?_) (.refl _)
      exact (hquiet.evolves.slots tid slot hslot).symm.imp_left fun hnew => hnew.2.1
  | dispatched at_next => exact ⟨_, _, at_next, .nil _ _⟩
  | finished at_next => exact ⟨_, _, at_next, .nil _ _⟩
  | suspended at_next => exact ⟨_, _, at_next, .nil _ _⟩
  | woken control at_next vm world =>
    refine ⟨_, _, at_next, ?_⟩
    rw [vm, world]
    refine hcalm.provides ?_
    simp [Config.startsPass, control, hat.agenda, Phase.ops]
  | resolved _ at_next found waits run => exact ⟨_, _, at_next, Fits.resolved hfits found waits run⟩
  | @completed completion tasks loop slot saved written at_next found parked writes vm world =>
    refine ⟨_, _, at_next, ?_⟩
    rw [world]
    refine hfits.mono (fewerWaits_insert { slot with saved := some written } found ?_ rfl) (.refl _)
    rw [vm]

theorem Config.start_provided (env : Environment V) (unit : RegUnit) (host : Host V H K) (state : H)
    (name : String) (args : List String) : (Config.start env unit host state name args).Provided := by
  rcases start_cases env unit host state name args with ⟨control, hstart⟩ | ⟨func, values, hstart⟩
  · rw [hstart]
    exact ⟨⟨nofun, nofun⟩, [], .ended, ⟨rfl, allInner_nil⟩, .nil _ _⟩
  · rw [hstart]
    refine ⟨⟨fun tid slot hslot => TaskSlot.parked_of_none _ ?_, nofun⟩, [],
      .looping (.schedule 0), ⟨rfl, allInner_nil⟩, .nil _ _⟩
    obtain ⟨-, rfl⟩ := (by simpa [Machine.slot, Machine.initial, SortedMap.get] using hslot)
    rfl

/-- The parked channel operation the next step resolves. -/
def Config.wakes (config : Config V H K) : Option (Nat × ChannelWait V) :=
  match config.control, config.agenda with
  | .next, .resolveWaits (tid :: _) :: _ =>
    match (config.vm.slot tid).bind TaskSlot.wait with
    | some (.channel blocked) => some (tid, blocked)
    | _ => none
  | _, _ => none

/-- What stands in the register recorded for the result of a parked task. -/
def Config.resultOf (config : Config V H K) (tid : Nat) : Option V := do
  let slot ← config.vm.slot tid
  let saved ← slot.saved
  saved.stack[(← slot.resumeDst)]?

/-- The result a parked channel operation is due, and what it leaves in the channel:
a receive the oldest value, or nothing if there is none and no sender is left; a send
its place in the queue, or the error that the receiver was closed. -/
def ChannelWait.Due (env : Environment V) (before after : ChannelTable V) (result : V) :
    ChannelWait V → Prop
  | .recv channel => ∃ state, SortedMap.get channel before = some state ∧
      ((∃ value queue, state.queue = value :: queue ∧ result = env.ok (env.some value) ∧
          after = SortedMap.insert channel { state with queue := queue } before) ∨
        state.queue = [] ∧ state.senders = 0 ∧ result = env.ok env.none ∧ after = before)
  | .send sender sent => ∃ state, SortedMap.get sender.channelId before = some state ∧
      (state.receiverClosed = false ∧ state.queue.length < state.capacity ∧ result = env.ok env.unit ∧
          after = SortedMap.insert sender.channelId
            { state with queue := state.queue ++ [sent] } before ∨
        state.receiverClosed = true ∧ result = env.err (env.channelError "channel closed") ∧
          after = before)

theorem Config.Provided.run
    (hcalm : ∀ m < n, ((Config.start env unit host state name args).run env unit host orders m).Calm
      (orders m)) :
    ((Config.start env unit host state name args).run env unit host orders n).Provided := by
  induction n with
  | zero => exact start_provided env unit host state name args
  | succ n ih => exact (ih fun m hm => hcalm m (hm.trans n.lt_succ_self)).step (hcalm n n.lt_succ_self)

theorem SavedTask.write_stack (saved : SavedTask V) :
    (saved.write dst value filler).stack[dst]? = some value := by
  have hlength : dst < (Vm.grow saved.stack (dst + 1) filler).length := by
    simp only [Vm.grow, length_append, length_replicate]
    omega
  simp [SavedTask.write, SavedTask.put, SavedTask.grow, getElem?_set_self hlength]

/-- The result of a wait goes to the register recorded with it. -/
theorem Config.completes (hcontrol : config.control = .next)
    (hagenda : config.agenda = .completeWait tid value :: rest)
    (hslot : config.vm.slot tid = some slot) (hsaved : slot.saved.isSome)
    (hresumes : slot.resumeDst = some dst) :
    (config.step env unit order host).resultOf tid = some value := by
  obtain ⟨saved, hsaved⟩ := isSome_iff_exists.mp hsaved
  rw [step_next hcontrol hagenda]
  simp [Config.proceed, Config.ofResult, perform, completeWait, hslot, hresumes,
    runOn_completeWaitAt hslot hsaved]
  simp [Config.resultOf, Config.after, Machine.slot, SavedTask.write_stack]

theorem Fits.due (h : Fits vm table (tid :: tasks)) (htid : vm.receives channel tid)
    (hknown : (ChannelWait.recv channel).Known table) :
    (ChannelWait.recv channel).Due env table (channelRecv table channel).2
      (recvResult env (channelRecv table channel).1) := by
  obtain ⟨state, hstate⟩ := isSome_iff_exists.mp hknown
  refine ⟨state, hstate, ?_⟩
  have hvalues := (h channel state hstate).1
  rw [countP_cons_of_pos htid] at hvalues
  rcases hqueue : state.queue with _ | ⟨value, queue⟩
  · have hsenders : state.senders = 0 := hvalues.resolve_left (by simp [hqueue])
    exact .inr ⟨rfl, hsenders, by simp [hstate, hqueue, hsenders, recvResult, optionValue],
      by simp [hstate, hqueue, hsenders]⟩
  · exact .inl ⟨value, queue, rfl, by simp [hstate, hqueue, recvResult, optionValue],
      by simp [hstate, hqueue]⟩

theorem Fits.dueSend (h : Fits vm table (tid :: tasks)) (htid : vm.sends sender.channelId tid)
    (hknown : (ChannelWait.send sender value).Known table) :
    (ChannelWait.send sender value).Due env table (channelSend table sender value).2
      (sendResult env (channelSend table sender value).1) := by
  obtain ⟨hopen, hsome⟩ := hknown
  obtain ⟨state, hstate⟩ := isSome_iff_exists.mp hsome
  refine ⟨state, hstate, ?_⟩
  have hplaces := (h sender.channelId state hstate).2
  rw [countP_cons_of_pos htid] at hplaces
  cases hclosed : state.receiverClosed with
  | true =>
    exact .inr ⟨rfl, by simp [hopen, hstate, hclosed, sendResult], by simp [hopen, hstate, hclosed]⟩
  | false =>
    have hspace : state.queue.length < state.capacity := by
      have := hplaces.resolve_right (by simp [hclosed])
      omega
    exact .inl ⟨rfl, hspace, by simp [hopen, hstate, hclosed, hspace.not_ge, sendResult],
      by simp [hopen, hstate, hclosed, hspace.not_ge]⟩

/-- The step that resolves a wait, up to the result that is written next. -/
theorem Config.resolves {world : World V H}
    (hcontrol : config.control = .next)
    (hagenda : config.agenda = .resolveWaits (tid :: tasks) :: rest) (hsaved : slot.saved.isSome)
    (hresumes : slot.resumeDst = some dst)
    (hrun : (resolveWait env tid).runOn (answer host) config.vm config.world =
      .ok (.ok [.completeWait tid value], config.vm.unwait tid slot, world)) :
    (config.step env unit order host).world = world ∧
      ((config.step env unit order host).step env unit order' host).resultOf tid = some value := by
  rw [step_next hcontrol hagenda, perform, proceed_then hrun]
  have hslot : (config.vm.unwait tid slot).slot tid = some { slot with wait := none } :=
    get_insert_self
  exact ⟨rfl, completes rfl rfl hslot hsaved hresumes⟩

theorem Config.Provided.wakes (h : config.Provided) (order' : HashOrder)
    (hwakes : config.wakes = some (tid, blocked)) :
    ∃ result, blocked.Due env config.world.channels.table
        (config.step env unit order host).world.channels.table result ∧
      ((config.step env unit order host).step env unit order' host).resultOf tid = some result := by
  obtain ⟨hparked, inner, phase, hat, hfits⟩ := h
  unfold Config.wakes at hwakes
  split at hwakes
  · rename_i first tasks rest hcontrol hagenda
    split at hwakes
    · rename_i found hwait
      obtain ⟨rfl, rfl⟩ := (by simpa using hwakes)
      obtain ⟨-, loop, rfl⟩ := hat.resolving hagenda
      obtain ⟨slot, hslot, hwait⟩ := bind_eq_some_iff.mp hwait
      obtain ⟨hknown, hresumes⟩ := (hparked.slots _ slot hslot).channel _ hwait
      obtain ⟨dst, hresumes⟩ := isSome_iff_exists.mp hresumes
      have hsaved := (hparked.slots _ slot hslot).saved (by rw [hwait]; rfl)
      cases found with
      | recv channel =>
        have htid : config.vm.receives channel first := by simp [Machine.receives, hslot, hwait]
        have hrun := resolveWait_recv env host config.world hslot hwait
        obtain ⟨hworld, hresult⟩ := resolves hcontrol hagenda hsaved hresumes hrun
        rw [hworld]
        exact ⟨_, hfits.due htid hknown, hresult⟩
      | send sender value =>
        have htid : config.vm.sends sender.channelId first := by simp [Machine.sends, hslot, hwait]
        have hrun := resolveWait_send env host config.world hslot hwait
        obtain ⟨hworld, hresult⟩ := resolves hcontrol hagenda hsaved hresumes hrun
        rw [hworld]
        exact ⟨_, hfits.dueSend htid hknown, hresult⟩
    · cases hwakes
  · cases hwakes

/-- In a calm run every woken receive and send gets what it is due, in the register
it was parked with. -/
theorem woken_due (orders : Nat → HashOrder) (state : H) (name : String) (args : List String)
    (n tid : Nat) (blocked : ChannelWait V)
    (hcalm : ∀ m < n, ((Config.start env unit host state name args).run env unit host orders m).Calm
      (orders m))
    (hwakes : ((Config.start env unit host state name args).run env unit host orders n).wakes =
      some (tid, blocked)) :
    ∃ result,
      blocked.Due env
        ((Config.start env unit host state name args).run env unit host orders n).world.channels.table
        ((Config.start env unit host state name args).run env unit host orders
          (n + 1)).world.channels.table result ∧
      ((Config.start env unit host state name args).run env unit host orders (n + 2)).resultOf tid =
        some result :=
  (Config.Provided.run hcalm).wakes _ hwakes

end Runs

/-- A task that sends its argument. -/
def sendingTask (ordinal : Nat) : RegFunction := smallFunction ordinal 2 3 [
  .callIntrinsic 2 "SenderSend" [0, 1],
  .ret 2]

/-- A receive on an empty channel parks until a task has sent. -/
def receiveLater : RegUnit := smallUnit [smallFunction 0 0 6 [
  loadInt 0 1,
  .callIntrinsic 1 "ChannelBounded" [0],
  unwrapOk 1 1,
  .callIntrinsic 2 "ChannelSender" [1],
  .callIntrinsic 3 "ChannelReceiver" [1],
  unwrapOk 3 3,
  .spawnTask 4 1 [2, 0],
  .callIntrinsic 5 "ReceiverRecv" [3],
  .ret 5], sendingTask 1]

theorem receiveLater_due : ∃ result,
    (ChannelWait.recv 1).Due smallEnvironment
      ((Config.start smallEnvironment receiveLater basicHost "" "main" []).run smallEnvironment
        receiveLater basicHost (fun _ => .byId) 27).world.channels.table
      ((Config.start smallEnvironment receiveLater basicHost "" "main" []).run smallEnvironment
        receiveLater basicHost (fun _ => .byId) 28).world.channels.table result ∧
    ((Config.start smallEnvironment receiveLater basicHost "" "main" []).run smallEnvironment
      receiveLater basicHost (fun _ => .byId) 29).resultOf 0 = some result :=
  woken_due (fun _ => .byId) "" "main" [] 27 0 (.recv 1) (by decide +kernel) rfl

/-- Two tasks are parked in a send to a full channel when one place becomes free. -/
def twoSends : RegUnit := smallUnit [smallFunction 0 0 8 [
  loadInt 0 1,
  .callIntrinsic 1 "ChannelBounded" [0],
  unwrapOk 1 1,
  .callIntrinsic 2 "ChannelSender" [1],
  .callIntrinsic 3 "ChannelReceiver" [1],
  unwrapOk 3 3,
  .spawnTask 4 1 [2, 0],
  .spawnTask 5 1 [2, 0],
  .spawnTask 6 1 [2, 0],
  .awaitJoin 7 4,
  .callIntrinsic 7 "ReceiverRecv" [3],
  .awaitJoin 7 5,
  .ret 7], sendingTask 1]

/-- The second one is woken with the error that the send would block. -/
theorem twoSends_wouldBlock :
    ((Config.start smallEnvironment twoSends basicHost "" "main" []).run smallEnvironment twoSends
      basicHost (fun _ => .byId) 58).wakes =
        some (3, .send ⟨1, false⟩ (.int 1)) ∧
    ((Config.start smallEnvironment twoSends basicHost "" "main" []).run smallEnvironment twoSends
      basicHost (fun _ => .byId) 60).resultOf 3 =
        some (smallEnvironment.err (smallEnvironment.channelError sendWouldBlock)) :=
  ⟨rfl, rfl⟩

end RSScript.Vm
