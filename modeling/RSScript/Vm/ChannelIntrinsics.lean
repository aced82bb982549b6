import RSScript.Vm.Calls

/-!
# Channel intrinsics

The intrinsics on channels, senders, receivers and streams. A receive on an
empty open channel and a send on a full one park the task; the others answer at
once.
-/

namespace RSScript.Vm

def channelIntrinsics : List String := [
  "ChannelBounded", "ChannelSender", "ChannelReceiver", "ReceiverClose", "ReceiverIntoStream",
  "ReceiverRecv", "ReceiverRecvCancellable", "StreamCollectList", "StreamNext", "SenderClose",
  "SenderSend", "SenderSendCancellable"]

section Intrinsics

variable {V K : Type} (env : Environment V)

def intrinsicArg (operands : List (Option V)) (index : Nat) : VmM V K V :=
  match operands[index]?.join with
  | some value => return value
  | none => throw (runtime s!"reg VM missing argument {index}.")

/-- `json_result` of a channel operation. -/
def channelResult : Except String V → V
  | .ok value => env.ok value
  | .error message => env.err (env.channelError message)

def optionValue : Option V → V
  | some value => env.some value
  | none => env.none

/-- The result of `channel_recv`. -/
def recvResult (result : Except String (Option V)) : V :=
  channelResult env (result.map (optionValue env))

/-- The result of `channel_send`. -/
def sendResult (result : Except String Unit) : V :=
  channelResult env (result.map fun _ => env.unit)

/-- Receive, or park until a sender enqueues or closes. -/
def recvOrPark (channel : Int) : VmM V K V := do
  let table ← channelCall .table
  if channelReady table channel then return recvResult env (← channelCall (.recv channel))
  else
    park (.channel (.recv channel)) none
    return env.unit

/-- Send, or park until a receiver frees space. -/
def sendOrPark (sender : VmSender) (value : V) : VmM V K V := do
  let table ← channelCall .table
  if channelSendWouldBlock table sender then
    park (.channel (.send sender value)) none
    return env.unit
  else return sendResult env (← channelCall (.send sender value))

def channelBounded (operands : List (Option V)) : VmM V K V := do
  let capacity ← liftResult (env.expectInt (← intrinsicArg operands 0))
  if capacity ≤ 0 then return channelResult env (.error "channel capacity must be positive")
  else
    let id ← channelCall (.bounded capacity.toNat)
    return env.ok (env.channel ⟨id, capacity, false⟩)

/-- The first argument's register, which the intrinsic overwrites. -/
def receiverRegister (base : Nat) (args : List Nat) (missing : String) : VmM V K Nat :=
  match args.head? with
  | some register => return base + register
  | none => throw (runtime missing)

def channelReceiver (base : Nat) (args : List Nat) : VmM V K V := do
  let register ← receiverRegister base args "reg VM Channel.receiver missing channel."
  let channel ← liftResult (env.expectChannel (← reg register))
  let table ← channelCall .table
  let taken := ((SortedMap.get channel.id table).map VmChannel.receiverTaken).getD
    channel.receiverTaken
  if taken then return channelResult env (.error "channel receiver already taken")
  else
    channelCall (.takeReceiver channel.id)
    setReg register (env.channel { channel with receiverTaken := true })
    return env.ok (env.receiver ⟨channel.id, false⟩)

def receiverClose (base : Nat) (args : List Nat) : VmM V K V := do
  let register ← receiverRegister base args "reg VM Receiver.close missing receiver."
  let receiver ← liftResult (env.expectReceiver (← reg register))
  channelCall (.closeReceiver receiver.channelId)
  setReg register (env.receiver ⟨receiver.channelId, true⟩)
  return env.unit

def senderClose (base : Nat) (args : List Nat) : VmM V K V := do
  let register ← receiverRegister base args "reg VM Sender.close missing sender."
  let sender ← liftResult (env.expectSender (← reg register))
  if ¬sender.closed then channelCall (.closeSender sender.channelId)
  setReg register (env.sender ⟨sender.channelId, true⟩)
  return env.unit

def streamNext (operands : List (Option V)) : VmM V K V := do
  let value ← intrinsicArg operands 0
  let stream ← liftResult (env.expectStream value)
  match stream.collectError, stream.channelId with
  | some message, _ => return channelResult env (.error message)
  | none, some channel => return recvResult env (← channelCall (.recv channel))
  | none, none => hostCall (.streamItems "StreamNext" value)

def streamCollectList (operands : List (Option V)) : VmM V K V := do
  let value ← intrinsicArg operands 0
  let stream ← liftResult (env.expectStream value)
  match stream.collectError, stream.channelId with
  | some message, _ => return channelResult env (.error message)
  | none, some channel =>
    return channelResult env ((← channelCall (.collect channel)).map env.list)
  | none, none => hostCall (.streamItems "StreamCollectList" value)

/-- The cancellable forms give up when their token is already cancelled. -/
def unlessCancelled (token : V) (message : String) (operation : VmM V K V) : VmM V K V := do
  if ← hostCall (.cancelled token) then return channelResult env (.error message)
  else operation

def execChannelIntrinsic (base : Nat) (intrinsic : String) (args : List Nat)
    (operands : List (Option V)) : VmM V K V :=
  match intrinsic with
  | "ChannelBounded" => channelBounded env operands
  | "ChannelSender" => do
    let channel ← liftResult (env.expectChannel (← intrinsicArg operands 0))
    channelCall (.addSender channel.id)
    return env.sender ⟨channel.id, false⟩
  | "ChannelReceiver" => channelReceiver env base args
  | "ReceiverClose" => receiverClose env base args
  | "ReceiverIntoStream" => do
    let receiver ← liftResult (env.expectReceiver (← intrinsicArg operands 0))
    return if receiver.closed then env.streamOfError "channel receiver closed"
      else env.streamOfChannel receiver.channelId
  | "ReceiverRecv" => do
    let receiver ← liftResult (env.expectReceiver (← intrinsicArg operands 0))
    if receiver.closed then return channelResult env (.error "channel receiver closed")
    else recvOrPark env receiver.channelId
  | "ReceiverRecvCancellable" => do
    let receiver ← liftResult (env.expectReceiver (← intrinsicArg operands 0))
    if receiver.closed then return channelResult env (.error "channel receiver closed")
    else
      let token ← intrinsicArg operands 1
      unlessCancelled env token "channel recv cancelled" (recvOrPark env receiver.channelId)
  | "StreamCollectList" => streamCollectList env operands
  | "StreamNext" => streamNext env operands
  | "SenderClose" => senderClose env base args
  | "SenderSend" => do
    let sender ← liftResult (env.expectSender (← intrinsicArg operands 0))
    let value ← intrinsicArg operands 1
    sendOrPark env sender value
  | "SenderSendCancellable" => do
    let sender ← liftResult (env.expectSender (← intrinsicArg operands 0))
    let value ← intrinsicArg operands 1
    let token ← intrinsicArg operands 2
    unlessCancelled env token "channel send cancelled" (sendOrPark env sender value)
  | _ => .panic .unreachable

end Intrinsics

end RSScript.Vm
