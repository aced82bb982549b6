import Mathlib.Algebra.Order.Ring.Int
import RSScript.Lib.Program
import RSScript.Lib.SortedMap

/-!
# Channels

The channel table of the interpreter and the operations on it. Nothing else of
the interpreter reaches the table: an instruction or the scheduler makes a
`ChannelCall`, and `answerChannel` answers it. The answers keep a history of what
was put into a channel and what was taken out; no operation reads it.
-/

namespace RSScript.Vm

/-- How an evaluation fails. -/
inductive EvalError where
  | runtime (message : String)
  /-- A limit of the execution was reached. -/
  | execution (kind message : String)
  deriving DecidableEq, Repr

def runtime (message : String) : EvalError := .runtime message

/-- Addition of `i64`s that stops at the ends of the range. -/
def saturatingAdd (left right : Int) : Int := max (-2 ^ 63) (min (left + right) (2 ^ 63 - 1))

structure VmSender where
  channelId : Int
  closed : Bool
  deriving DecidableEq, Repr

/-- A bounded queue with its ends. -/
structure VmChannel (V : Type) where
  capacity : Nat
  /-- The queued values, the oldest first. -/
  queue : List V
  senders : Int
  receiverTaken : Bool
  receiverClosed : Bool

def VmChannel.new {V : Type} (capacity : Nat) : VmChannel V :=
  { capacity := capacity, queue := [], senders := 0, receiverTaken := false, receiverClosed := false }

/-- A call that puts values into a channel, takes values out or replaces it. -/
inductive ChannelEvent (V : Type) where
  | opened (channel : Int) (replaced : Option (VmChannel V))
  | sent (channel : Int) (value : V) (result : Except String Unit)
  | received (channel : Int) (result : Except String (Option V))
  | collected (channel : Int) (found : VmChannel V) (result : Except String (List V))

structure Channels (V : Type) where
  table : List (Int × VmChannel V) := []
  nextChannelId : Int := 1
  /-- What happened to the channels so far, in order. -/
  history : List (ChannelEvent V) := []

section Operations

variable {V : Type}

abbrev ChannelTable (V : Type) := List (Int × VmChannel V)

/-- A receive would not block. -/
def channelReady (table : ChannelTable V) (channel : Int) : Bool :=
  (SortedMap.get channel table).all fun state =>
    !state.queue.isEmpty || state.senders == 0 || state.receiverClosed

/-- A send would not block. -/
def channelHasSpace (table : ChannelTable V) (channel : Int) : Bool :=
  (SortedMap.get channel table).all fun state =>
    state.receiverClosed || decide (state.queue.length < state.capacity)

def channelSendWouldBlock (table : ChannelTable V) (sender : VmSender) : Bool :=
  if sender.closed then false
  else (SortedMap.get sender.channelId table).any fun state =>
    !state.receiverClosed && decide (state.capacity ≤ state.queue.length)

def sendWouldBlock : String := "channel send would block on a full channel in the VM"

def recvWouldBlock : String := "channel recv would block on an open empty channel in the VM"

def unknownChannel (channel : Int) : String := s!"unknown channel id `{channel}`"

/-- `channel_send`: the result, and the table with the value queued. -/
def channelSend (table : ChannelTable V) (sender : VmSender) (value : V) :
    Except String Unit × ChannelTable V :=
  if sender.closed then (.error "channel sender closed", table)
  else
    match SortedMap.get sender.channelId table with
    | none => (.error (unknownChannel sender.channelId), table)
    | some state =>
      if state.receiverClosed then (.error "channel closed", table)
      else if state.capacity ≤ state.queue.length then (.error sendWouldBlock, table)
      else
        (.ok (), SortedMap.insert sender.channelId { state with queue := state.queue ++ [value] }
          table)

/-- `channel_recv`: the oldest value, or none when no sender is left. -/
def channelRecv (table : ChannelTable V) (channel : Int) :
    Except String (Option V) × ChannelTable V :=
  match SortedMap.get channel table with
  | none => (.error (unknownChannel channel), table)
  | some state =>
    match state.queue with
    | value :: queue =>
      (.ok (some value), SortedMap.insert channel { state with queue := queue } table)
    | [] => if state.senders = 0 then (.ok none, table) else (.error recvWouldBlock, table)

/-- The channel part of `Stream.collect_list`: the queue is drained before the
open senders are looked at. -/
def channelCollect (state : VmChannel V) : Except String (List V) × VmChannel V :=
  (if state.senders = 0 then .ok state.queue
    else .error "stream collect_list would block on an open channel stream",
    { state with queue := [] })

/-! ## Calls -/

/-- What instructions and the scheduler do to channels. -/
inductive ChannelCall (V : Type) : Type → Type where
  | table : ChannelCall V (ChannelTable V)
  | bounded (capacity : Nat) : ChannelCall V Int
  | addSender (channel : Int) : ChannelCall V Unit
  | closeSender (channel : Int) : ChannelCall V Unit
  | takeReceiver (channel : Int) : ChannelCall V Unit
  | closeReceiver (channel : Int) : ChannelCall V Unit
  | send (sender : VmSender) (value : V) : ChannelCall V (Except String Unit)
  | recv (channel : Int) : ChannelCall V (Except String (Option V))
  | collect (channel : Int) : ChannelCall V (Except String (List V))

/-- `channel_state_mut`, with what is done to the state. -/
def Channels.update (channels : Channels V) (channel : Int) (change : VmChannel V → VmChannel V) :
    Except EvalError Unit × Channels V :=
  match SortedMap.get channel channels.table with
  | none => (.error (runtime (unknownChannel channel ++ ".")), channels)
  | some state =>
    (.ok (), { channels with table := SortedMap.insert channel (change state) channels.table })

/-- The operations on the table, with their history. -/
def answerChannel : (β : Type) → ChannelCall V β → Channels V → Except EvalError β × Channels V
  | _, .table, channels => (.ok channels.table, channels)
  | _, .bounded capacity, channels =>
    let id := channels.nextChannelId
    (.ok id, {
      table := SortedMap.insert id (VmChannel.new capacity) channels.table
      nextChannelId := saturatingAdd id 1
      history := channels.history ++ [.opened id (SortedMap.get id channels.table)] })
  | _, .addSender channel, channels =>
    channels.update channel fun state => { state with senders := saturatingAdd state.senders 1 }
  | _, .closeSender channel, channels =>
    channels.update channel fun state => { state with senders := saturatingAdd state.senders (-1) }
  | _, .takeReceiver channel, channels =>
    channels.update channel fun state => { state with receiverTaken := true }
  | _, .closeReceiver channel, channels =>
    channels.update channel fun state => { state with receiverClosed := true }
  | _, .send sender value, channels =>
    let (result, table) := channelSend channels.table sender value
    (.ok result, { channels with
      table := table
      history := channels.history ++ [.sent sender.channelId value result] })
  | _, .recv channel, channels =>
    let (result, table) := channelRecv channels.table channel
    (.ok result, { channels with
      table := table
      history := channels.history ++ [.received channel result] })
  | _, .collect channel, channels =>
    match SortedMap.get channel channels.table with
    | none => (.error (runtime (unknownChannel channel ++ ".")), channels)
    | some found =>
      let (result, state) := channelCollect found
      (.ok result, { channels with
        table := SortedMap.insert channel state channels.table
        history := channels.history ++ [.collected channel found result] })

end Operations

end RSScript.Vm
