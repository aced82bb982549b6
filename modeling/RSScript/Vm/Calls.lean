import RSScript.Vm.Machine

/-!
# Operations of the interpreter, and calls

The interpreter is a machine that works off an agenda. Its operations are the
Rust functions a run is inside of: `drive` executes the top frame, `poll` is the
check for a suspension after an instruction, `cleanup` is the loop over a task's
resources, `schedule` the loop over the tasks, and so on. Performing one either
puts further operations in front of the rest, or hands an outcome to the next
one, or fails; a failure drops operations until one handles it. So a call of a
closure or of a resource drop in the middle of an instruction is the operations
for the call in front of what is left of the instruction, and every state of a
run is a configuration.
-/

namespace RSScript.Vm

/-- An argument of a closure: a value, or a register still to be read. -/
inductive CallArg (V : Type) where
  | value (value : V)
  | register (index : Nat)

/-- Where an operation that calls closures puts its result. -/
structure HostTarget where
  dst : Nat
  nextBase : Nat
  /-- A suspended intrinsic has its result written when the task is woken. -/
  intrinsic : Bool

inductive Op (V K : Type) where
  | drive (floor : Nat)
  | poll (floor : Nat)
  | leave (floor : Nat) (value : V)
  | setReg (index : Nat) (value : V)
  | release (register : Nat)
  /-- `run_resource_drop`, with the ticket of a tracked resource. -/
  | drop (value : V) (ticket : Option Nat)
  | dropped (name : String)
  | callClosure (closure : V) (args : List (CallArg V)) (base : Nat)
  | closureReturn (callerBase calleeBase offset : Nat) (args : List Nat) (mutArgs : List Nat)
      (dst : Nat)
  | resume (next : K) (target : HostTarget)
  | cleanup (task : Nat) (firstError : Option EvalError)
  | joinAll (tasks : List Nat)
  | cancelLosers (handles : List Nat) (winner : Nat)
  | completeWait (task : Nat) (value : V)
  | completeSelect (task winnerDst index valueDst : Nat) (value : V)
  | resolveWaits (tasks : List Nat)
  | satisfyWaiters
  | schedule (root : Nat)
  | dispatch (root : Nat)
  | settle (root task : Nat)
  | conclude
  | cleanupAll
  | sweep (tasks : List Nat) (firstError : Option EvalError)
  | deliver (result : Except EvalError V)

/-- What the driven frame came to. -/
inductive Outcome (V : Type) where
  | completed (value : V)
  | suspended

/-- What performing an operation leads to. -/
inductive Progress (V K : Type) where
  | push (ops : List (Op V K))
  | yield (outcome : Outcome V)
  | halt (result : Except EvalError V)

section Calls

variable {V K : Type} (env : Environment V) (unit : RegUnit)

/-- Copy argument registers to the start of the callee's window. -/
def passArgs (base nextBase : Nat) (args : List Nat) : VmM V K Unit :=
  args.zipIdx.forM fun (register, index) => do
    let value ← reg (base + register)
    setReg (nextBase + index) value

def writebackOf (base nextBase : Nat) (args mutArgs : List Nat) : VmM V K (List (Nat × Nat)) :=
  mutArgs.mapM fun position => do
    let register ← argAt args position
    return (base + register, nextBase + position)

/-- Push the frame of a direct or dynamic call. -/
def callFunction (frame : Frame) (callee : RegFunction) (dst : Nat) (args mutArgs : List Nat) :
    VmM V K Unit := do
  let nextBase := frame.base + frame.func.regs
  prepareFrame env nextBase callee.regs
  passArgs frame.base nextBase args
  let mutWriteback ← writebackOf frame.base nextBase args mutArgs
  pushFrame env {
    func := callee
    base := nextBase
    retDst := some (frame.base + dst)
    mutWriteback := mutWriteback }

def readArg : CallArg V → VmM V K V
  | .value value => return value
  | .register index => reg index

/-- `call_closure_*`: the captures, then the arguments, then the frame. -/
def callClosure (value : V) (args : List (CallArg V)) (base : Nat) : VmM V K Nat := do
  let closure ← expectClosure env value
  let callee ← functionAt unit closure.function
  prepareFrame env base callee.regs
  closure.captures.zipIdx.forM fun (capture, index) => setReg (base + index) capture
  args.zipIdx.forM fun (arg, index) => do
    let value ← readArg arg
    setReg (base + closure.captures.length + index) value
  enterFrame env callee base

/-- Pop the top frame with its result. -/
def leaveFrame (floor : Nat) (value : V) : VmM V K (Progress V K) := do
  let frame ← activeFrame
  modify fun vm => { vm with running := { vm.running with frames := vm.running.frames.tail } }
  applyMutWriteback frame
  let vm ← get
  if vm.running.frames.length = floor then return .yield (.completed value)
  else
    match frame.retDst with
    | none => .panic (.registerIndex (2 ^ 64 - 1))
    | some dst =>
      setReg dst value
      return .push [.drive floor]

/-- The value of a frame that may not suspend. -/
def synchronous : Outcome V → VmM V K V
  | .completed value => return value
  | .suspended => throw (runtime
      "reg VM cannot suspend (await/blocking op) inside a synchronous context.")

/-! ## Suspensions and results -/

def park (wait : Wait V) (resumeDst : Option Nat) : VmM V K Unit :=
  modify fun vm => { vm with suspension := some ⟨wait, resumeDst⟩ }

/-- Write the result of an operation that calls closures, or tell the scheduler
where the result of a suspended intrinsic goes. -/
def finishHost (target : HostTarget) (value : V) : VmM V K Unit := do
  let vm ← get
  if vm.suspension.isSome ∧ target.intrinsic then
    modify fun vm => { vm with
      suspension := vm.suspension.map fun suspension =>
        { suspension with resumeDst := some target.dst } }
  else setReg target.dst value

/-- Go on with an operation that may call closures. -/
def continueHost (step : HostStep V K) (target : HostTarget) : VmM V K (List (Op V K)) :=
  match step with
  | .done value => do
    finishHost target value
    return []
  | .call closure args next =>
    return [.callClosure closure (args.map .value) target.nextBase, .resume next target]

end Calls

end RSScript.Vm
