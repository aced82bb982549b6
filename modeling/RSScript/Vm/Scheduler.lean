import RSScript.Vm.Interpreter

/-!
# The scheduler and the steps of a run

Tasks run one at a time. After each the scheduler wakes the parked tasks whose
wait can be resolved, and goes on with the next in its queue. A run of a program
is a sequence of configurations; the order in which a hash table is enumerated
may differ from step to step.

Waits for asynchronous provider calls (`WireProvider` and the one with mutations) are left
out. The host answers every call at once, so nothing is said about a task that is parked
until a provider's future completes.
-/

namespace RSScript.Vm

/-- An order in which a hash table enumerates its keys. -/
structure HashOrder where
  arrange : List Nat → List Nat
  perm : ∀ keys, (arrange keys).Perm keys

/-- The order of the ids. -/
def HashOrder.byId : HashOrder := ⟨fun keys => keys, fun keys => .refl keys⟩

section Scheduler

variable {V H K : Type} (env : Environment V) (unit : RegUnit) (order : HashOrder)

/-! ## Waits -/

/-- Whether the wait of a parked task can be resolved. -/
def Machine.waitReady (vm : Machine V) (table : ChannelTable V) : Wait V → Bool
  | .channel (.recv channel) => channelReady table channel
  | .channel (.send sender _) => channelHasSpace table sender.channelId
  | .join task => (vm.doneValue task).isSome
  | .joinAll tasks => tasks.all vm.settled
  | .select handles _ _ => handles.any fun handle => (vm.doneValue handle).isSome

/-- Whether the slot of a task holds a wait that can be resolved. -/
def Machine.canWake (vm : Machine V) (table : ChannelTable V) (tid : Nat) : Bool :=
  (vm.slot tid).any fun slot => slot.done.isNone && slot.wait.any (vm.waitReady table)

/-- The tasks `satisfy_waiters` wakes in one pass: found in the table's own order,
then put into the order of their ids. -/
def Machine.readyWaiters (vm : Machine V) (table : ChannelTable V) : List Nat :=
  ((order.arrange (vm.tasks.map Prod.fst)).filter (vm.canWake table)).insertionSort (· ≤ ·)

/-- The operations that resolve the wait of `tid`. -/
def resolveWait (tid : Nat) : VmM V K (List (Op V K)) := do
  let vm ← get
  let slot ← expect (vm.slot tid) "task slot"
  let wait ← expect slot.wait "parked wait"
  setSlot tid { slot with wait := none }
  let vm ← get
  match wait with
  | .channel (.recv channel) =>
    let result ← channelCall (.recv channel)
    return [.completeWait tid (recvResult env result)]
  | .channel (.send sender sent) =>
    let result ← channelCall (.send sender sent)
    return [.completeWait tid (sendResult env result)]
  | .join task =>
    let result ← expect (vm.doneValue task) "joined task finished"
    removeTask task
    return [.cleanup task none, .completeWait tid result]
  | .joinAll tasks => return [.joinAll tasks, .completeWait tid env.unit]
  | .select handles winnerDst valueDst =>
    let (task, index) ← expect (vm.firstDone handles) "a select arm finished"
    let value ← expect (vm.doneValue task) "winning arm value"
    return [.cancelLosers handles task, .completeSelect tid winnerDst index valueDst value]

/-- `complete_wait`: the result goes to the register recorded with the wait. -/
def completeWait (tid : Nat) (value : V) : VmM V K Unit := do
  let vm ← get
  let slot ← expect (vm.slot tid) "task slot"
  match slot.resumeDst with
  | none => .panic (.registerIndex (2 ^ 64 - 1))
  | some dst => completeWaitAt env tid dst value

/-- Remove a losing arm; its resources are released if it was still running. -/
def cancelLoser (handle winner : Nat) : VmM V K (List (Op V K)) := do
  let vm ← get
  if handle = winner then return []
  else
    match vm.slot handle with
    | none => return []
    | some slot =>
      removeTask handle
      if slot.done.isNone then
        countCancelled
        return [.cleanup handle none]
      else return []

/-! ## Dispatch -/

/-- Whether a queued task can be resumed. -/
def TaskSlot.runnable (slot : TaskSlot V) : Bool :=
  slot.done.isNone && slot.wait.isNone && slot.saved.isSome

/-- The next ready task runs; an empty queue is a deadlock. -/
def dispatchTask (root : Nat) : VmM V K (List (Op V K)) := do
  let vm ← get
  match vm.readyQueue with
  | [] => throw (runtime
      "reg VM async scheduler stalled: every task is blocked (deadlock).")
  | tid :: _ =>
    modify fun vm => { vm with readyQueue := vm.readyQueue.tail }
    -- Finished, parked and running tasks leave stale entries behind.
    if (vm.slot tid).any TaskSlot.runnable then
      swapIn tid
      return [.drive 0, .settle root tid]
    else return [.schedule root]

/-- Count a task that finished, and let go of its registers. -/
def countCompleted : VmM V K Unit :=
  modify fun vm => { vm with
    tasksCompleted := vm.tasksCompleted + 1
    tasksLive := vm.tasksLive - 1
    running := ⟨[], [], []⟩ }

/-- What becomes of a task that completed or was suspended. -/
def settleTask (root tid : Nat) : Outcome V → VmM V K (Progress V K)
  | .completed value => do
    countCompleted
    if tid = root then
      hostCall (.refreshLiveMemory value)
      return .yield (.completed value)
    else
      let vm ← get
      let slot ← expect (vm.slot tid) "task slot"
      setSlot tid { slot with done := some value }
      return .push [.satisfyWaiters, .schedule root]
  | .suspended => do
    let vm ← get
    let suspension ← expect vm.suspension "suspension recorded"
    modify fun vm => { vm with suspension := none }
    swapOut tid suspension
    return .push [.satisfyWaiters, .schedule root]

/-! ## Steps -/

/-- Perform the first operation of the agenda. -/
def perform : Op V K → VmM V K (Progress V K)
  | .drive floor => driveStep env unit floor
  | .poll floor => do
    let vm ← get
    if vm.suspension.isSome then return .yield .suspended else return .push [.drive floor]
  | .leave floor value => leaveFrame floor value
  | .setReg index value => do
    setReg index value
    return .push []
  | .release register => do
    let (value, ticket) ← releaseResourceScope register
    return .push [.drop value ticket]
  | .drop value ticket => do
    ticket.toList.forM fun ticket => resourceCall (.dropping ticket value)
    return .push (← runResourceDrop env unit value)
  | .callClosure closure args base => do
    return .push [.drive (← callClosure env unit closure args base)]
  | .cleanup task firstError => do
    match ← resourceCall (.pop task) with
    | some tracked =>
      return .push [.drop tracked.value (some tracked.ticket), .cleanup task firstError]
    | none =>
      resourceCall (.forget task)
      match firstError with
      | none => return .push []
      | some error => throw error
  | .joinAll [] | .cancelLosers [] _ | .resolveWaits [] => return .push []
  | .joinAll (task :: tasks) => do
    removeTask task
    return .push [.cleanup task none, .joinAll tasks]
  | .cancelLosers (handle :: handles) winner => do
    return .push ((← cancelLoser handle winner) ++ [.cancelLosers handles winner])
  | .completeWait task value => do
    completeWait env task value
    return .push []
  | .completeSelect task winnerDst index valueDst value => do
    writeSavedReg env task winnerDst (env.int index)
    completeWaitAt env task valueDst value
    return .push []
  | .resolveWaits (task :: tasks) => do
    return .push ((← resolveWait env task) ++ [.resolveWaits tasks])
  | .satisfyWaiters => do
    let vm ← get
    let table ← channelCall .table
    match vm.readyWaiters order table with
    | [] => return .push []
    | ready => return .push [.resolveWaits ready, .satisfyWaiters]
  | .schedule root => do
    let vm ← get
    return .push (if vm.readyQueue.isEmpty then [.satisfyWaiters, .dispatch root]
      else [.dispatch root])
  | .dispatch root => do return .push (← dispatchTask root)
  | .cleanupAll => do
    let tasks ← resourceCall .tasks
    return .push [.sweep (order.arrange tasks) none]
  | .sweep (task :: tasks) firstError => return .push [.cleanup task none, .sweep tasks firstError]
  | .sweep [] firstError =>
    match firstError with
    | none => return .push []
    | some error => throw error
  | .deliver result => return .halt result
  | .dropped _ | .closureReturn .. | .resume _ _ | .settle _ _ | .conclude => .panic .unreachable

/-- The end of `call_closure_from_regs`: the `mut` arguments and the result. -/
def returnFromClosure (callerBase calleeBase offset : Nat) (args mutArgs : List Nat) (dst : Nat)
    (result : V) : VmM V K Unit := do
  mutArgs.forM fun position => do
    let value ← reg (calleeBase + offset + position)
    setReg (callerBase + (← argAt args position)) value
  setReg dst result

/-- Hand the outcome of a driven frame to the next operation. -/
def receive (outcome : Outcome V) : Op V K → VmM V K (Progress V K)
  | .dropped name => do
    let result ← synchronous outcome
    if env.isUnit result then return .push []
    else throw (runtime <|
      s!"resource drop for `{name}` returned unsupported value `{env.display result}`.")
  | .closureReturn callerBase calleeBase offset args mutArgs dst => do
    let result ← synchronous outcome
    returnFromClosure callerBase calleeBase offset args mutArgs dst result
    return .push []
  | .resume next target => do
    let result ← synchronous outcome
    let step ← hostCall (.resume next result)
    return .push (← continueHost step target)
  | .settle root task => settleTask root task outcome
  | .conclude => do
    let value ← synchronous outcome
    return .push [.cleanupAll, .deliver (.ok value)]
  | _ => .panic .unreachable

/-- What an operation does with a failure of one before it. -/
def handle (error : EvalError) : Op V K → Option (Progress V K)
  | .cleanup task firstError => some (.push [.cleanup task (firstError.or (some error))])
  | .sweep tasks firstError => some (.push [.sweep tasks (firstError.or (some error))])
  | .conclude => some (.push [.cleanupAll, .deliver (.error error)])
  | .deliver (.ok _) => some (.halt (.error error))
  | .deliver (.error first) => some (.halt (.error first))
  | _ => none

/-- How the last operation ended. -/
inductive Control (V : Type) where
  | next
  | yield (outcome : Outcome V)
  | raise (error : EvalError)
  | halt (result : Except EvalError V)
  | panic (cause : Panic)

/-- A state of a run: the machine, the world and what is left to do. -/
structure Config (V H K : Type) where
  vm : Machine V
  world : World V H
  agenda : List (Op V K)
  control : Control V := .next

/-- Go on with `rest` after an operation. -/
def Config.after (rest : List (Op V K)) (vm : Machine V) (world : World V H) :
    Progress V K → Config V H K
  | .push ops => ⟨vm, world, ops ++ rest, .next⟩
  | .yield outcome => ⟨vm, world, rest, .yield outcome⟩
  | .halt result => ⟨vm, world, [], .halt result⟩

/-- The configuration a program of the machine leads to. -/
def Config.ofResult (vm : Machine V) (world : World V H) (rest : List (Op V K)) :
    Except Panic (Except EvalError (Progress V K) × Machine V × World V H) → Config V H K
  | .error cause => ⟨vm, world, [], .panic cause⟩
  | .ok (.ok progress, vm', world') => Config.after rest vm' world' progress
  | .ok (.error error, vm', world') => ⟨vm', world', rest, .raise error⟩

/-- Run a program of the machine from a configuration. -/
def Config.proceed (host : Host V H K) (config : Config V H K) (rest : List (Op V K))
    (program : VmM V K (Progress V K)) : Config V H K :=
  .ofResult config.vm config.world rest (program.runOn (answer host) config.vm config.world)

variable (host : Host V H K)

/-- Perform the next operation, hand it an outcome, or let it take a failure. -/
def Config.step (config : Config V H K) : Config V H K :=
  match config.control, config.agenda with
  | .next, op :: rest => config.proceed host rest (perform env unit order op)
  | .yield outcome, op :: rest => config.proceed host rest (receive env outcome op)
  | .raise error, op :: rest =>
    match handle error op with
    | some progress => .after rest config.vm config.world progress
    | none => { config with agenda := rest }
  | .raise error, [] => { config with control := .halt (.error error) }
  | .next, [] | .yield _, [] => { config with control := .panic .unreachable }
  | .halt _, _ | .panic _, _ => config

/-- The configuration after `n` steps, each with its own order. -/
def Config.run (orders : Nat → HashOrder) (config : Config V H K) : Nat → Config V H K
  | 0 => config
  | n + 1 => (config.run orders n).step env unit (orders n) host

/-! ## Programs -/

/-- The arguments of the entry point, from its parameter count and signature. -/
def entryArguments (name : String) (func : RegFunction) (args : List String) :
    VmM V K (List V) :=
  let refused : EvalError := runtime <|
    s!"reg VM entry point `{name}` must accept either no parameters or one `List<String>` parameter."
  match func.params with
  | 0 => return []
  | 1 =>
    match SortedMap.get name unit.nativeSignatures with
    | none => throw (runtime s!"reg VM cannot validate the `{name}` entry-point signature.")
    | some params => if params = ["List<String>"] then return [env.entryArgs args] else throw refused
  | _ => throw refused

/-- The beginning of `run_program`: the root task of the entry point. -/
def startProgram (name : String) (args : List String) : VmM V K (Progress V K) := do
  match SortedMap.get name unit.functionIds with
  | none => throw (runtime s!"reg VM cannot resolve function `{name}`.")
  | some id =>
    let func ← functionAt unit id
    let values ← entryArguments env unit name func args
    let root ← createTask env func values
    return .push [.schedule root, .conclude]

/-- A run of the entry point `name` on a fresh machine. -/
def Config.start (state : H) (name : String) (args : List String) : Config V H K :=
  let fresh : Config V H K := ⟨{}, { host := state }, [], .next⟩
  fresh.proceed host [] (startProgram env unit name args)

end Scheduler

end RSScript.Vm
