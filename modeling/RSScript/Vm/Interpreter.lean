import RSScript.Vm.ChannelIntrinsics
import RSScript.Vm.Pipelines

/-!
# Instructions

What executing one instruction of the top frame does, and the release of
resources.

What an instruction computes from its operands is left to the host. Registers, frames, tasks and
scopes are modelled here.
-/

namespace RSScript.Vm

section Interpreter

variable {V K : Type} (env : Environment V) (unit : RegUnit)

/-! ## Intrinsics and closures -/

/-- With an allocation budget the operands are looked at before the operation. -/
def checkOperands (base : Nat) (args : List Nat) : VmM V K Bool := do
  let budget ← hostCall .hasAllocationBudget
  if budget then args.forM fun register => do
    let _ ← reg (base + register)
  return budget

/-- The operands of an intrinsic; it does not ask whether they are written. -/
def operandsOf (base : Nat) (args : List Nat) : VmM V K (List (Option V)) := do
  let vm ← get
  return args.map fun register => vm.running.stack[base + register]?

/-- An intrinsic: a channel operation, or an operation of the host. -/
def execIntrinsic (base nextBase dst : Nat) (intrinsic : String) (args : List Nat) :
    VmM V K (List (Op V K)) := do
  let budget ← checkOperands base args
  hostCall .chargeIntrinsicCall
  let operands ← operandsOf base args
  if intrinsic ∈ channelIntrinsics then
    let value ← execChannelIntrinsic env base intrinsic args operands
    let vm ← get
    if budget ∧ vm.suspension.isNone then hostCall (.accountResult value)
    finishHost ⟨base + dst, nextBase, true⟩ value
    return []
  else
    let step ← hostCall (.intrinsic intrinsic operands)
    continueHost step ⟨base + dst, nextBase, true⟩

/-- Run an operation of the host that may call closures. -/
def execCallback (base nextBase dst : Nat) (opcode : String) (reads : List Nat) :
    VmM V K (List (Op V K)) := do
  let operands ← reads.mapM fun register => reg (base + register)
  let step ← hostCall (.callback opcode operands)
  continueHost step ⟨base + dst, nextBase, false⟩

/-- Closures without captures are shared unless their identity is observable. -/
def execMakeClosure (base function : Nat) (captures : List Nat) : VmM V K V :=
  if captures.isEmpty ∧ ¬unit.closureIdentityObservable then
    cachedNoncapturingClosure env function
  else do
    let captured ← captures.mapM fun register => reg (base + register)
    allocateClosure env ⟨function, captured⟩

/-- The map and filter instructions: the fused pipeline, or the operation alone. -/
def execPipeline (frame : Frame) (floor : Nat) (opcode : String) (dst : Nat) (reads : List Nat) :
    VmM V K (Progress V K) := do
  match ← tryFuseIntListPipelineAt env frame.func.code (frame.ip - 1) frame.base with
  | some next =>
    setIp next
    return .push [.drive floor]
  | none =>
    let ops ← execCallback frame.base (frame.base + frame.func.regs) dst opcode reads
    return .push (ops ++ [.poll floor])

/-- Dispatch on the type of the receiver. -/
def execCallDynamic (frame : Frame) (dst : Nat) (dispatch : List (String × Nat))
    (args mutArgs : List Nat) : VmM V K Unit := do
  let receiver ← reg (frame.base + (← argAt args 0))
  let typeName := (env.asStruct receiver).map Prod.fst
  match typeName.bind fun name => dispatch.lookup name with
  | none =>
    let shown := typeName.getD "<non-struct value>"
    throw (runtime s!"reg VM dynamic protocol dispatch found no impl for receiver `{shown}`.")
  | some id =>
    let callee ← functionAt unit id
    callFunction env frame callee dst args mutArgs

/-! ## Tasks -/

/-- The first finished task of a list, with its position. -/
def Machine.firstDone (vm : Machine V) (tasks : List Nat) : Option (Nat × Nat) :=
  tasks.zipIdx.find? fun entry => (vm.doneValue entry.1).isSome

/-- Whether a task is finished or gone. -/
def Machine.settled (vm : Machine V) (task : Nat) : Bool :=
  (vm.slot task).all fun slot => slot.done.isSome

/-- `SpawnTask`: the handle of the new task. -/
def execSpawnTask (base dst function : Nat) (args : List Nat) : VmM V K (List (Op V K)) := do
  let callee ← functionAt unit function
  let values ← args.mapM fun register => reg (base + register)
  let tid ← createTask env callee values
  setReg (base + dst) (env.task tid)
  return []

/-- `AwaitJoin`: a value that is no task is its own result. -/
def execAwaitJoin (base dst src : Nat) : VmM V K (List (Op V K)) := do
  let value ← reg (base + src)
  match env.asTaskHandle value with
  | none =>
    setReg (base + dst) value
    return []
  | some task =>
    let vm ← get
    match vm.doneValue task with
    | some result =>
      removeTask task
      return [.cleanup task none, .setReg (base + dst) result]
    | none =>
      park (.join task) (some (base + dst))
      return []

/-- `cancel_task`; the resources of the task are released after it. -/
def cancelTask (task : Nat) : VmM V K (List (Op V K)) := do
  let vm ← get
  if task = vm.currentTask then
    throw (runtime "reg VM task cannot cancel itself while it is running.")
  else
    match vm.slot task with
    | none => throw (runtime "reg VM cannot cancel an unknown or already-reaped task.")
    | some slot =>
      removeTask task
      if slot.done.isNone then countCancelled
      return [.cleanup task none]

def execCancelTask (base src : Nat) : VmM V K (List (Op V K)) := do
  let value ← reg (base + src)
  match env.asTaskHandle value with
  | none => throw (runtime "reg VM cancel operand did not produce a task.")
  | some task => cancelTask task

/-- `JoinTasks`: waits for all tasks of a group, in the order of their ids. -/
def execJoinTasks (base : Nat) (handles : List Nat) : VmM V K (List (Op V K)) := do
  let values ← handles.mapM fun register => reg (base + register)
  let tasks := ((values.filterMap env.asTaskHandle).insertionSort (· ≤ ·)).dedup
  let vm ← get
  if tasks.all vm.settled then return [.joinAll tasks]
  else
    -- A group join has no result, but the scheduler writes one all the same.
    park (.joinAll tasks) (some base)
    return []

/-- The task of a handle in a `select`. -/
def selectHandle (base register : Nat) : VmM V K Nat := do
  let value ← reg (base + register)
  match env.asTaskHandle value with
  | some task => return task
  | none => throw (runtime "reg VM select arm did not produce a task.")

/-- `SelectWait`: the first handle whose task is done wins, the others are cancelled. -/
def execSelectWait (base : Nat) (handles : List Nat) (winner value : Nat) :
    VmM V K (List (Op V K)) := do
  let tasks ← handles.mapM (selectHandle env base)
  let vm ← get
  match vm.firstDone tasks with
  | some (task, index) =>
    let won ← expect (vm.doneValue task) "done"
    return [.cancelLosers tasks task, .setReg (base + winner) (env.int index),
      .setReg (base + value) won]
  | none =>
    park (.select tasks (base + winner) (base + value)) none
    return []

/-! ## Instructions -/

/-- Read registers, let the host compute, write registers. -/
def execPlain (base : Nat) (opcode : String) (reads : List Nat) (takes updates dst : Option Nat)
    (data : Bytecode.Fields) : VmM V K Unit := do
  let operands ← reads.mapM fun register => reg (base + register)
  let taken ← takes.mapM fun register => takeReg env (base + register)
  let computed ← hostCall (.plain opcode data operands taken)
  updates.toList.forM fun register => setReg (base + register) computed.updated
  dst.toList.forM fun register => setReg (base + register) computed.value

/-- The jumps and matches: where control goes on is decided by the host. -/
def execMatchGet (base : Nat) (opcode : String) (map key valueDst someIp noneIp : Nat) :
    VmM V K Unit := do
  let map ← reg (base + map)
  let key ← reg (base + key)
  match ← hostCall (.matchGet opcode map key) with
  | some value =>
    setReg (base + valueDst) value
    setIp someIp
  | none => setIp noneIp

def execTypedIntrinsic (base dst : Nat) (intrinsic typeArg : String) (args : List Nat) :
    VmM V K Unit := do
  let _ ← checkOperands base args
  let operands ← operandsOf base args
  let value ← hostCall (.typedIntrinsic intrinsic typeArg operands)
  setReg (base + dst) value

/-- Execute an instruction of `frame`, whose `ip` already points past it. -/
def execute (floor : Nat) (frame : Frame) (instr : RegInstr) : VmM V K (Progress V K) :=
  let base := frame.base
  let nextBase := base + frame.func.regs
  match instr with
  | .plain opcode reads takes updates dst data => do
    execPlain env base opcode reads takes updates dst data
    return .push [.poll floor]
  | .deepCopyElided _ => return .push [.poll floor]
  | .tailCallGuard => do
    let vm ← get
    if vm.running.frames.length + frame.tailCalls + 1 > env.maxDepth then throw (depthError env)
    updateFrame fun frame => { frame with tailCalls := frame.tailCalls + 1 }
    return .push [.poll floor]
  | .runtimeError message => throw (runtime message)
  | .jump target => do
    setIp target
    return .push [.poll floor]
  | .jumpIf opcode reads target data => do
    let operands ← reads.mapM fun register => reg (base + register)
    if ← hostCall (.jumpIf opcode data operands) then setIp target
    return .push [.poll floor]
  | .matchCase opcode src matchIp elseIp data => do
    let value ← reg (base + src)
    setIp (if ← hostCall (.matchCase opcode data value) then matchIp else elseIp)
    return .push [.poll floor]
  | .matchGet opcode map key valueDst someIp noneIp => do
    execMatchGet base opcode map key valueDst someIp noneIp
    return .push [.poll floor]
  | .makeClosure dst function captures => do
    let closure ← execMakeClosure env unit base function captures
    setReg (base + dst) closure
    return .push [.poll floor]
  | .callKnown dst function args mutArgs => do
    let vm ← get
    if vm.running.frames.length + 1 > env.maxDepth then throw (depthError env)
    let callee ← functionAt unit function
    callFunction env frame callee dst args mutArgs
    return .push [.drive floor]
  | .callDynamic dst dispatch args mutArgs => do
    execCallDynamic env unit frame dst dispatch args mutArgs
    return .push [.drive floor]
  | .spawnTask dst function args => do
    return .push ((← execSpawnTask env unit base dst function args) ++ [.poll floor])
  | .awaitJoin dst src => do return .push ((← execAwaitJoin env base dst src) ++ [.poll floor])
  | .cancelTask src => do return .push ((← execCancelTask env base src) ++ [.poll floor])
  | .joinTasks handles => do return .push ((← execJoinTasks env base handles) ++ [.poll floor])
  | .selectWait handles winner value => do
    return .push ((← execSelectWait env base handles winner value) ++ [.poll floor])
  | .callExternal _ key _ _ => do
    -- Without provider bindings no symbol resolves.
    hostCall .chargeProviderCall
    throw (runtime s!"reg VM native function `{key}` has no host binding.")
  | .callClosure dst closure args mutArgs => do
    let value ← reg (base + closure)
    let closure ← expectClosure env value
    return .push [.callClosure value (args.map fun register => .register (base + register)) nextBase,
      .closureReturn base nextBase closure.captures.length args mutArgs (base + dst), .poll floor]
  | .listFilter dst list predicate =>
    execPipeline env frame floor "ListFilter" dst [list, predicate]
  | .listMap dst list mapper => execPipeline env frame floor "ListMap" dst [list, mapper]
  | .listFold dst list state folder => do
    return .push ((← execCallback base nextBase dst "ListFold" [list, state, folder]) ++
      [.poll floor])
  | .callback opcode reads dst => do
    return .push ((← execCallback base nextBase dst opcode reads) ++ [.poll floor])
  | .callIntrinsic dst intrinsic args => do
    return .push ((← execIntrinsic env base nextBase dst intrinsic args) ++ [.poll floor])
  | .callTypedIntrinsic dst intrinsic typeArg args => do
    execTypedIntrinsic base dst intrinsic typeArg args
    return .push [.poll floor]
  | .tryResult dst src cleanup => do
    let value ← reg (base + src)
    match ← liftResult (env.tryView value) with
    | .payload payload =>
      setReg (base + dst) payload
      return .push [.poll floor]
    | .shortCircuit failure =>
      return .push ((cleanup.map fun register => .release (base + register)) ++
        [.leave floor failure])
  | .resourceAcquire resource => do
    acquireResourceScope (base + resource)
    return .push [.poll floor]
  | .resourceDrop resource => return .push [.release (base + resource), .poll floor]
  | .ret src => do
    let value ← reg (base + src)
    leaveFrame floor value
  | .native _ _ => .panic .unreachable

/-- The next instruction of the top frame, or its end. -/
def advance (floor : Nat) (frame : Frame) : VmM V K (Progress V K) :=
  match frame.func.code[frame.ip]? with
  | none => leaveFrame floor env.unit
  | some instr => do
    hostCall .tick
    setIp (frame.ip + 1)
    execute env unit floor { frame with ip := frame.ip + 1 } instr

/-- One round of `drive`. -/
def driveStep (floor : Nat) : VmM V K (Progress V K) := do
  advance env unit floor (← activeFrame)

/-! ## Resources -/

/-- The value a release drops, with the ticket of a tracked one. -/
def releaseResourceScope (register : Nat) : VmM V K (V × Option Nat) := do
  let vm ← get
  match ← resourceCall (.pop vm.currentTask) with
  | some tracked =>
    if tracked.register ≠ register then
      throw (runtime "resource scopes must be released in lexical LIFO order.")
    else return (tracked.value, some tracked.ticket)
  | none => return (← reg register, none)

/-- `run_resource_drop`: enter the drop function of a struct value. -/
def runResourceDrop (value : V) : VmM V K (List (Op V K)) :=
  match env.asStruct value with
  | none => return []
  | some (name, fields) =>
    match SortedMap.get name unit.resourceDropFunctions with
    | none => return []
    | some id => do
      let vm ← get
      let base := vm.running.stack.length
      let callee ← functionAt unit id
      prepareFrame env base callee.regs
      fields.forM fun (field, value) =>
        (SortedMap.get field callee.localRegs).toList.forM fun register =>
          setReg (base + register) value
      let floor ← enterFrame env callee base
      return [.drive floor, .dropped name]

end Interpreter

end RSScript.Vm
