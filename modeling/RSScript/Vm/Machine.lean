import RSScript.Vm.Model
import RSScript.Vm.Resources

/-!
# The register machine

The state of the interpreter: one register stack on which every frame owns a
window, a table of parked tasks, and the closures made so far. Channels and
resource scopes are reached through their calls. What operations compute is a
parameter: an arbitrary type of values, of which an `Environment` has the few
views the interpreter itself takes, and a `Host` that answers the calls of the
other instructions over an arbitrary state of its own.
-/

namespace RSScript.Vm

open RSScript.Bytecode

/-- Where the interpreter can panic. -/
inductive Panic where
  /-- The assertion of `reg` and `take_reg`. -/
  | uninitializedRegister (index : Nat)
  /-- `stack[index]` or `written[index]` out of range. -/
  | registerIndex (index : Nat)
  /-- `args[position]` out of range. -/
  | argumentIndex (position : Nat)
  /-- `unit.functions[id]` out of range. -/
  | functionIndex (id : Nat)
  /-- A failed `expect` on the scheduler's own tables. -/
  | expect (what : String)
  | unreachable
  deriving DecidableEq, Repr

/-! ## State -/

/-- An activation of a function. -/
structure Frame where
  func : RegFunction
  ip : Nat := 0
  base : Nat
  /-- The caller's register for the result, absolute; none is `usize::MAX`. -/
  retDst : Option Nat
  /-- The caller's and the callee's register of every `mut` argument, absolute. -/
  mutWriteback : List (Nat × Nat) := []
  tailCalls : Nat := 0

/-- The frames of a task, the top one first, and its register stack. -/
structure SavedTask (V : Type) where
  frames : List Frame
  stack : List V
  written : List Bool

/-- A blocking channel operation. -/
inductive ChannelWait (V : Type) where
  | recv (channel : Int)
  | send (sender : VmSender) (value : V)

/-- What a parked task waits for. -/
inductive Wait (V : Type) where
  | channel (wait : ChannelWait V)
  | join (task : Nat)
  | joinAll (tasks : List Nat)
  | select (handles : List Nat) (winnerDst valueDst : Nat)

/-- What the running task is about to wait for, and where the result goes. -/
structure Suspension (V : Type) where
  wait : Wait V
  resumeDst : Option Nat

/-- A task of the table: its saved state, its result, its wait. -/
structure TaskSlot (V : Type) where
  saved : Option (SavedTask V)
  done : Option V := none
  wait : Option (Wait V) := none
  resumeDst : Option Nat := none

structure VmClosure (V : Type) where
  function : Nat
  captures : List V

/-- The state of the interpreter other than channels, resource scopes and the host. -/
structure Machine (V : Type) where
  /-- The registers and frames of the running task. -/
  running : SavedTask V := ⟨[], [], []⟩
  suspension : Option (Suspension V) := none
  tasks : List (Nat × TaskSlot V) := []
  readyQueue : List Nat := []
  nextTaskId : Nat := 0
  currentTask : Nat := 0
  /-- The closures made so far; a closure value refers to one of them. -/
  closures : List (VmClosure V) := []
  tasksCreated : Nat := 0
  tasksCompleted : Nat := 0
  tasksCancelled : Nat := 0
  tasksLive : Nat := 0
  tasksPeakLive : Nat := 0

/-! ## Values -/

/-- What `?` makes of a value. -/
inductive TryView (V : Type) where
  | payload (value : V)
  | shortCircuit (value : V)

/-- The value of `Channel.bounded`. -/
structure VmChannelState where
  id : Int
  capacity : Int
  receiverTaken : Bool

structure VmReceiver where
  channelId : Int
  closed : Bool

/-- What a stream value says about where its items come from. -/
structure VmStreamState where
  collectError : Option String
  channelId : Option Int

/-- How the interpreter builds values and looks into them, and its depth limit. -/
structure Environment (V : Type) where
  maxDepth : Nat
  unit : V
  isUnit : V → Bool
  int : Int → V
  display : V → String
  entryArgs : List String → V
  task : Nat → V
  asTaskHandle : V → Option Nat
  closure : Nat → V
  asClosure : V → Option Nat
  /-- The type name and the fields of a struct value. -/
  asStruct : V → Option (String × List (String × V))
  tryView : V → Except EvalError (TryView V)
  expectList : V → Except EvalError Unit
  expectInt : V → Except EvalError Int
  /-- Whether a closure of the given arity has a plan that runs without a frame. -/
  hasPurePlan : VmClosure V → Nat → Bool
  /-- Whether the plan of a closure compiles to a stage of a fused pipeline. -/
  compilesStage : String → VmClosure V → Bool
  some : V → V
  none : V
  ok : V → V
  err : V → V
  list : List V → V
  channelError : String → V
  channel : VmChannelState → V
  expectChannel : V → Except EvalError VmChannelState
  sender : VmSender → V
  expectSender : V → Except EvalError VmSender
  receiver : VmReceiver → V
  expectReceiver : V → Except EvalError VmReceiver
  streamOfChannel : Int → V
  streamOfError : String → V
  expectStream : V → Except EvalError VmStreamState

/-! ## Calls -/

/-- What a plain instruction computes: the value for `dst`, and the one for the
operand it updates. -/
structure Computed (V : Type) where
  value : V
  updated : V

/-- One step of an operation that calls closures; `K` is what it does after. -/
inductive HostStep (V K : Type) where
  | done (value : V)
  | call (closure : V) (args : List V) (next : K)

/-- What the interpreter leaves to its host. -/
inductive HostCall (V K : Type) : Type → Type where
  | tick : HostCall V K Unit
  | accountBytes (slots : Nat) : HostCall V K Unit
  | accountResult (value : V) : HostCall V K Unit
  | refreshLiveMemory (value : V) : HostCall V K Unit
  | chargeProviderCall : HostCall V K Unit
  | chargeIntrinsicCall : HostCall V K Unit
  | hasAllocationBudget : HostCall V K Bool
  | plain (opcode : String) (data : Fields) (operands : List V) (taken : Option V) :
      HostCall V K (Computed V)
  | jumpIf (opcode : String) (data : Fields) (operands : List V) : HostCall V K Bool
  | matchCase (opcode : String) (data : Fields) (value : V) : HostCall V K Bool
  | matchGet (opcode : String) (map key : V) : HostCall V K (Option V)
  /-- None if the closures do not combine to a fused pipeline. -/
  | runPipeline (stages : List (VmClosure V)) (folder : VmClosure V) (list state : V) :
      HostCall V K (Option V)
  | callback (opcode : String) (operands : List V) : HostCall V K (HostStep V K)
  | resume (next : K) (result : V) : HostCall V K (HostStep V K)
  | intrinsic (name : String) (operands : List (Option V)) : HostCall V K (HostStep V K)
  | typedIntrinsic (name typeArg : String) (operands : List (Option V)) : HostCall V K V
  /-- Whether the source of a cancellation token was cancelled. -/
  | cancelled (token : V) : HostCall V K Bool
  /-- `Stream.next` and `Stream.collect_list` on a stream of items. -/
  | streamItems (name : String) (stream : V) : HostCall V K V

/-- Everything the interpreter calls. -/
inductive VmCall (V K : Type) : Type → Type where
  | host {β : Type} (call : HostCall V K β) : VmCall V K β
  | channel {β : Type} (call : ChannelCall V β) : VmCall V K β
  | resource {β : Type} (call : ResourceCall V β) : VmCall V K β

/-- What answers the host's calls, over its own state. -/
abbrev Host (V H K : Type) : Type 1 := Program.Handler (HostCall V K) EvalError H

/-- What is outside of the machine. -/
structure World (V H : Type) where
  host : H
  channels : Channels V := {}
  resources : Resources V := {}

/-- Calls go to the host, to the channels or to the resource scopes. -/
def answer {V H K : Type} (host : Host V H K) :
    Program.Handler (VmCall V K) EvalError (World V H)
  | β, .host request, world =>
    let (result, state) := host β request world.host
    (result, { world with host := state })
  | β, .channel request, world =>
    let (result, channels) := answerChannel β request world.channels
    (result, { world with channels := channels })
  | β, .resource request, world =>
    let (result, resources) := answerResource β request world.resources
    (result, { world with resources := resources })

/-- A program of the interpreter. -/
abbrev VmM (V K : Type) (α : Type) : Type 1 :=
  Program (VmCall V K) Panic EvalError (Machine V) α

section Machine

variable {V K α : Type}

def hostCall (request : HostCall V K α) : VmM V K α := Program.call (.host request)

def channelCall (request : ChannelCall V α) : VmM V K α := Program.call (.channel request)

def resourceCall (request : ResourceCall V α) : VmM V K α := Program.call (.resource request)

def liftResult (result : Except EvalError α) : VmM V K α :=
  match result with
  | .ok value => return value
  | .error error => throw error

/-- `option.expect(what)`. -/
def expect (value : Option α) (what : String) : VmM V K α :=
  match value with
  | some a => return a
  | none => .panic (.expect what)

/-! ## Registers -/

def reg (index : Nat) : VmM V K V := do
  let vm ← get
  if vm.running.written[index]?.getD false then
    match vm.running.stack[index]? with
    | some value => return value
    | none => .panic (.registerIndex index)
  else .panic (.uninitializedRegister index)

/-- Put a value and its written flag at a register. -/
def SavedTask.put (task : SavedTask V) (index : Nat) (value : V) (flag : Bool) : SavedTask V :=
  { task with stack := task.stack.set index value, written := task.written.set index flag }

/-- `stack[index] = value; written[index] = flag`. -/
def putReg (index : Nat) (value : V) (flag : Bool) : VmM V K Unit := do
  let vm ← get
  if index < vm.running.stack.length ∧ index < vm.running.written.length then
    modify fun vm => { vm with running := vm.running.put index value flag }
  else .panic (.registerIndex index)

def setReg (index : Nat) (value : V) : VmM V K Unit := putReg index value true

variable (env : Environment V)

/-- Move the value of a register out. -/
def takeReg (index : Nat) : VmM V K V := do
  let value ← reg index
  putReg index env.unit false
  return value

/-- `vec.resize(length, filler)`, for a vector that does not shrink. -/
def grow (values : List α) (length : Nat) (filler : α) : List α :=
  values ++ List.replicate (length - values.length) filler

def SavedTask.grow (task : SavedTask V) (length : Nat) (filler : V) : SavedTask V :=
  { task with
    stack := Vm.grow task.stack length filler
    written := Vm.grow task.written length false }

/-- Grow the stack; new registers are accounted for. -/
def ensureRegs (upto : Nat) : VmM V K Unit := do
  let vm ← get
  if vm.running.stack.length < upto then
    modify fun vm => { vm with running := vm.running.grow upto env.unit }
    hostCall (.accountBytes (upto - vm.running.stack.length))
  else return ()

/-- The window of a frame starts out as units. -/
def prepareFrame (base regs : Nat) : VmM V K Unit := do
  ensureRegs env (base + regs)
  (List.range' base regs).forM fun index => putReg index env.unit false

/-- `args[position]`. -/
def argAt (args : List Nat) (position : Nat) : VmM V K Nat :=
  match args[position]? with
  | some register => return register
  | none => .panic (.argumentIndex position)

/-- `unit.functions[id]`. -/
def functionAt (unit : RegUnit) (id : Nat) : VmM V K RegFunction :=
  match unit.functions[id]? with
  | some function => return function
  | none => .panic (.functionIndex id)

/-! ## Frames -/

def depthError : EvalError :=
  runtime s!"recursion depth limit exceeded ({env.maxDepth} frames)"

/-- The depth of calls is limited. -/
def pushFrame (frame : Frame) : VmM V K Unit := do
  let vm ← get
  if vm.running.frames.length + 1 > env.maxDepth then throw (depthError env)
  else modify fun vm => { vm with running := { vm.running with
    frames := frame :: vm.running.frames } }

/-- The frame on top of the stack. -/
def activeFrame : VmM V K Frame := do
  let vm ← get
  expect vm.running.frames.head? "active frame"

/-- Change the frame on top of the stack. -/
def updateFrame (update : Frame → Frame) : VmM V K Unit :=
  modify fun vm => { vm with running := { vm.running with
    frames := vm.running.frames.modifyHead update } }

def setIp (ip : Nat) : VmM V K Unit := updateFrame fun frame => { frame with ip := ip }

/-- `mut` arguments go back to the caller. -/
def applyMutWriteback (frame : Frame) : VmM V K Unit :=
  frame.mutWriteback.forM fun (caller, callee) => do
    let value ← reg callee
    setReg caller value

/-- Push the frame `run_frame` drives; the result is the depth below it. -/
def enterFrame (func : RegFunction) (base : Nat) : VmM V K Nat := do
  ensureRegs env (base + func.regs)
  let vm ← get
  pushFrame env { func := func, base := base, retDst := none }
  return vm.running.frames.length

/-! ## Closures -/

/-- The closure a value refers to. -/
def expectClosure (value : V) : VmM V K (VmClosure V) := do
  let vm ← get
  match (env.asClosure value).bind fun handle => vm.closures[handle]? with
  | some closure => return closure
  | none => throw (runtime s!"reg VM expected Closure, got `{env.display value}`.")

def allocateClosure (closure : VmClosure V) : VmM V K V := do
  let vm ← get
  modify fun vm => { vm with closures := vm.closures ++ [closure] }
  return env.closure vm.closures.length

/-- The one closure of a function without captures, made on first use. -/
def cachedNoncapturingClosure (function : Nat) : VmM V K V := do
  let vm ← get
  match vm.closures.findIdx? fun closure => closure.function = function ∧ closure.captures.isEmpty with
  | some handle => return env.closure handle
  | none => allocateClosure env ⟨function, []⟩

/-! ## Tasks -/

/-- A new task's registers: its arguments, then unwritten ones. -/
def initialTask (func : RegFunction) (args : List V) : SavedTask V :=
  let regs := max func.regs args.length
  { frames := [{ func := func, base := 0, retDst := none }]
    stack := grow args regs env.unit
    written := grow (args.map fun _ => true) regs false }

/-- A new task is ready at once. -/
def createTask (func : RegFunction) (args : List V) : VmM V K Nat := do
  let vm ← get
  modify fun vm => { vm with
    nextTaskId := vm.nextTaskId + 1
    tasks := SortedMap.insert vm.nextTaskId { saved := some (initialTask env func args) } vm.tasks
    tasksCreated := vm.tasksCreated + 1
    tasksLive := vm.tasksLive + 1
    tasksPeakLive := max vm.tasksPeakLive (vm.tasksLive + 1)
    readyQueue := vm.readyQueue ++ [vm.nextTaskId] }
  return vm.nextTaskId

/-- The slot of a task, if it is still in the table. -/
def Machine.slot (vm : Machine V) (tid : Nat) : Option (TaskSlot V) := SortedMap.get tid vm.tasks

/-- The value of a finished task. -/
def Machine.doneValue (vm : Machine V) (tid : Nat) : Option V := (vm.slot tid).bind TaskSlot.done

def setSlot (tid : Nat) (slot : TaskSlot V) : VmM V K Unit :=
  modify fun vm => { vm with tasks := SortedMap.insert tid slot vm.tasks }

def removeTask (tid : Nat) : VmM V K Unit :=
  modify fun vm => { vm with tasks := vm.tasks.filter fun entry => entry.1 ≠ tid }

/-- Count a task that ends without finishing. -/
def countCancelled : VmM V K Unit :=
  modify fun vm => { vm with
    tasksCancelled := vm.tasksCancelled + 1
    tasksLive := vm.tasksLive - 1 }

/-- The saved state of a task becomes the running one. -/
def swapIn (tid : Nat) : VmM V K Unit := do
  let vm ← get
  let slot ← expect (vm.slot tid) "task slot"
  let saved ← expect slot.saved "parked task state"
  setSlot tid { slot with saved := none }
  modify fun vm => { vm with running := saved, currentTask := tid }

/-- Park the running task with what it waits for. -/
def swapOut (tid : Nat) (suspension : Suspension V) : VmM V K Unit := do
  let vm ← get
  let slot ← expect (vm.slot tid) "task slot"
  setSlot tid { slot with
    saved := some vm.running
    resumeDst := suspension.resumeDst
    wait := some suspension.wait }
  modify fun vm => { vm with running := ⟨[], [], []⟩ }

/-- Write into a parked register stack, which grows to the register. -/
def SavedTask.write (task : SavedTask V) (index : Nat) (value filler : V) : SavedTask V :=
  (task.grow (index + 1) filler).put index value true

/-- Write a register of a parked task. -/
def writeSavedReg (tid dst : Nat) (value : V) : VmM V K Unit := do
  let vm ← get
  let slot ← expect (vm.slot tid) "task slot"
  let saved ← expect slot.saved "parked task state"
  setSlot tid { slot with saved := some (saved.write dst value env.unit) }

/-- The task has its result and is ready. -/
def completeWaitAt (tid dst : Nat) (result : V) : VmM V K Unit := do
  writeSavedReg env tid dst result
  modify fun vm => { vm with readyQueue := vm.readyQueue ++ [tid] }

/-! ## Resources -/

def acquireResourceScope (register : Nat) : VmM V K Unit := do
  let value ← reg register
  let vm ← get
  resourceCall (.acquire vm.currentTask register value)

end Machine

end RSScript.Vm
