import Mathlib.Data.Finset.Max
import RSScript.Lib.FlaggedWorklist
import RSScript.Mir.Verify.Instruction

/-!
# Dataflow passes

Four analyses over the blocks of a function. Value dominance sweeps over all
blocks until nothing changes and joins by intersection; moves, resources and
tasks run a worklist and join by union.
-/

namespace RSScript.Mir

open Guards Outcome Worklist

/-- Run a check over the instructions of a block. -/
def runBlock {σ : Type} (step : MirInstruction → σ → Verified σ) (block : BasicBlock) (entry : σ) :
    Verified σ :=
  block.instructions.foldlM (fun state instruction => step instruction state) entry

/-- What a worklist pass does with a block: run its instructions, look at how the
block ends, and hand the result to its successors. -/
def blockFlow {σ : Type} (function : MirFunction) (step : MirInstruction → σ → Verified σ)
    (leave : MirTerminator → σ → Verified Unit) (block : BlockId) (entry : σ) :
    Verified (List (BlockId × σ)) := do
  let block ← at_ function.blocks block
  let exit ← runBlock step block entry
  leave block.terminator exit
  return (successors block.terminator).map fun successor => (successor, exit)

/-- Union into a set, and whether that made it larger. -/
def joinSets (existing fact : Finset Nat) : Finset Nat × Bool :=
  (existing ∪ fact, (existing ∪ fact).card ≠ existing.card)

/-! ## Moves -/

/-- The places that some path moved and did not initialize again. -/
def moveProblem (function : MirFunction) : Joining (Finset PlaceId) MirValidationError where
  size := function.blocks.length
  bottom := ∅
  flow := blockFlow function (transferMoveState function) fun _ _ => return ()
  join existing fact := .ok (joinSets existing fact)

def verifyMoveDataflow (fuel : Nat) (function : MirFunction) : Verified Unit :=
  (moveProblem function).solve fuel

/-! ## Value dominance -/

/-- The values defined on entry to each block reached so far, and whether a sweep changed them. -/
structure DominanceState where
  entries : BlockId → Option (Finset ValueId)
  changed : Bool

def blockDefinitions (block : BasicBlock) : Finset ValueId :=
  (block.instructions.flatMap instructionDefinitions).toFinset

/-- Intersect what leaves a block into one of its successors. -/
def joinExit (function : MirFunction) (exit : Finset ValueId) (state : DominanceState)
    (successor : BlockId) : Verified DominanceState := do
  -- `entries[successor.index()]`
  ensure (successor < function.blocks.length) .panic
  let merged := match state.entries successor with
    | some existing => existing ∩ exit
    | none => exit
  if state.entries successor ≠ some merged then
    return ⟨Function.update state.entries successor (some merged), true⟩
  else return state

def dominanceBlock (function : MirFunction) (state : DominanceState) (block : BasicBlock) :
    Verified DominanceState := do
  ensure (block.id < function.blocks.length) .panic
  match state.entries block.id with
  | none => return state
  | some entry =>
    (successors block.terminator).foldlM (joinExit function (entry ∪ blockDefinitions block)) state

/-- One pass over all blocks. -/
def dominanceSweep (function : MirFunction) (entries : BlockId → Option (Finset ValueId)) :
    Verified DominanceState :=
  function.blocks.foldlM (dominanceBlock function) ⟨entries, false⟩

/-- Sweep until nothing changes. -/
def dominanceEntries (function : MirFunction) :
    Nat → (BlockId → Option (Finset ValueId)) → Verified (BlockId → Option (Finset ValueId))
  | 0, _ => throw .outOfFuel
  | fuel + 1, entries => do
    let state ← dominanceSweep function entries
    if state.changed then dominanceEntries function fuel state.entries else return state.entries

def checkUses (function : MirFunction) (block : BasicBlock) (defined : Finset ValueId)
    (values : List ValueId) : Verified Unit :=
  values.forM fun value =>
    ensure (value ∈ defined) (.error (.valueDoesNotDominate function.id block.id value))

/-- Every use of a block against what reaches it. -/
def checkBlockUses (function : MirFunction) (block : BasicBlock) (defined : Finset ValueId) :
    Verified Unit := do
  let defined ← runBlock (fun instruction defined => do
    checkUses function block defined (instructionUses instruction)
    return defined ∪ (instructionDefinitions instruction).toFinset) block defined
  checkUses function block defined (terminatorUses block.terminator)

/-- Sweeps until nothing changes, then checks every use. -/
def verifyValueDominance (fuel : Nat) (function : MirFunction) : Verified Unit := do
  let entries ← dominanceEntries function fuel (Function.update (fun _ => none) 0 (some ∅))
  function.blocks.forM fun block =>
    match entries block.id with
    | none => return ()
    | some defined => checkBlockUses function block defined

/-! ## Resources -/

/-- A resource is acquired while it is not live and released while it is. -/
def resourceStep (function : MirFunction) (instruction : MirInstruction) (live : Finset PlaceId) :
    Verified (Finset PlaceId) :=
  match instruction with
  | .acquireResource place _ _ => do
    ensure (place ∉ live) (.error (.resourceAlreadyLive function.id place))
    return insert place live
  | .releaseResource place => do
    ensure (place ∈ live) (.error (.resourceNotLive function.id place))
    return live.erase place
  | _ => return live

/-- A return leaves no resource live. -/
def checkResourceLeak (function : MirFunction) (terminator : MirTerminator)
    (live : Finset PlaceId) : Verified Unit :=
  match terminator with
  | .return _ =>
    if h : live.Nonempty then reject (.resourceLeak function.id (live.min' h)) else return ()
  | _ => return ()

/-- The resources that some path leaves live. -/
def resourceProblem (function : MirFunction) : Joining (Finset PlaceId) MirValidationError where
  size := function.blocks.length
  bottom := ∅
  flow := blockFlow function (resourceStep function) (checkResourceLeak function)
  join existing fact := .ok (joinSets existing fact)

def verifyResourceLifetimes (fuel : Nat) (function : MirFunction) : Verified Unit :=
  (resourceProblem function).solve fuel

/-! ## Tasks -/

/-- The live tasks, each with its group. -/
abbrev TaskSet := Finset (TaskId × TaskGroupId)

def TaskSet.ids (live : TaskSet) : Finset TaskId := live.image Prod.fst

/-- End the lifetime of one task. -/
def closeTask (function : MirFunction) (live : TaskSet) (task : TaskId) : Verified TaskSet := do
  ensure (task ∈ live.ids) (.error (.taskNotLive function.id task))
  return live.filter fun entry => entry.1 ≠ task

/-- A task is spawned while it is not live and closed while it is. A join closes what is left. -/
def taskStep (function : MirFunction) (instruction : MirInstruction) (live : TaskSet) :
    Verified TaskSet :=
  match instruction with
  | .spawn task group _ _ => do
    ensure (task ∉ live.ids) (.error (.taskAlreadyLive function.id task))
    return insert (task, group) live
  | .await _ task | .cancel task => closeTask function live task
  | .select tasks _ _ => tasks.foldlM (closeTask function) live
  | .join group => return live.filter fun entry => entry.2 ≠ group
  | _ => return live

/-- A return leaves no task live. -/
def checkTaskLeak (function : MirFunction) (terminator : MirTerminator) (live : TaskSet) :
    Verified Unit :=
  match terminator with
  | .return _ =>
    if h : live.ids.Nonempty then reject (.taskLeak function.id (live.ids.min' h)) else return ()
  | _ => return ()

/-- The tasks two predecessors put into different groups. -/
def mismatchedTasks (existing fact : TaskSet) : Finset TaskId :=
  (fact.filter fun entry =>
    (existing.filter fun other => other.1 = entry.1 ∧ other.2 ≠ entry.2).Nonempty).image Prod.fst

/-- A task that two paths leave live is in the same group on both. -/
def joinTasks (function : MirFunction) (existing fact : TaskSet) : Verified (TaskSet × Bool) :=
  if h : (mismatchedTasks existing fact).Nonempty then
    reject (.taskGroupMismatch function.id ((mismatchedTasks existing fact).min' h))
  else return (existing ∪ fact, ¬fact ⊆ existing)

/-- The tasks that some path leaves live. -/
def taskProblem (function : MirFunction) : Joining TaskSet MirValidationError where
  size := function.blocks.length
  bottom := ∅
  flow := blockFlow function (taskStep function) (checkTaskLeak function)
  join := joinTasks function

/-- The instructions of a function, block by block. -/
def MirFunction.instructions (function : MirFunction) : List MirInstruction :=
  function.blocks.flatMap BasicBlock.instructions

/-- No two instructions spawn the same task. -/
def recordSpawn (function : FunctionId) (sites : Finset TaskId) :
    MirInstruction → Verified (Finset TaskId)
  | .spawn task _ _ _ => do
    ensure (task ∉ sites) (.error (.duplicateTaskId function task))
    return insert task sites
  | _ => return sites

/-- No task is spawned at two places. -/
def verifySpawnSites (function : MirFunction) : Verified (Finset TaskId) :=
  function.instructions.foldlM (recordSpawn function.id) ∅

def verifyTaskLifetimes (fuel : Nat) (function : MirFunction) : Verified Unit := do
  let _ ← verifySpawnSites function
  (taskProblem function).solve fuel

end RSScript.Mir
