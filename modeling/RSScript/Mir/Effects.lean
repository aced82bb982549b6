import RSScript.Mir.Verify.Operands

/-!
# What an instruction does

The meaning of an instruction's fields, constructor by constructor: which values
it defines, which it uses, and how it touches each place it names. Paths are
described by these effects. The verifier has operand tables of its own, one for
each pass; the theorems at the end say that they agree with the effects, so no
pass leaves an operand out.
-/

namespace RSScript.Mir

open Guards Outcome

/-- How an instruction touches a place. `cleanup` is what `TryResult` does to the
places it would release on its early exit; on the path that goes on they stay as
they are. -/
inductive PlaceAccess where
  | read
  | borrow
  | mutate
  | take
  | drop
  | cleanup
  | write
  deriving DecidableEq, Repr

/-- The access moves the value out of its place. -/
def PlaceAccess.Moves (access : PlaceAccess) : Prop := access = .take ∨ access = .drop

/-- The access needs a value in its place. -/
def PlaceAccess.Needs (access : PlaceAccess) : Prop := access ≠ .write

/-- What an instruction defines, uses and does to places. -/
structure Effects where
  defines : List ValueId
  uses : List ValueId
  accesses : List (PlaceAccess × PlaceId)

/-- An instruction that computes a value from others. -/
def Effects.compute (destination : ValueId) (uses : List ValueId) : Effects :=
  ⟨[destination], uses, []⟩

/-- An instruction that changes a collection in its place. -/
def Effects.mutate (destination : ValueId) (place : PlaceId) (uses : List ValueId) : Effects :=
  ⟨[destination], uses, [(.mutate, place)]⟩

def MirCallArgument.uses : MirCallArgument → List ValueId
  | value operand => [operand]
  | borrowRead _ | borrowMut _ | take _ => []

def MirCallArgument.accesses : MirCallArgument → List (PlaceAccess × PlaceId)
  | value _ => []
  | borrowRead place => [(.borrow, place)]
  | borrowMut place => [(.mutate, place)]
  | take place => [(.take, place)]

/-- An instruction with call arguments. -/
def Effects.pass (defines uses : List ValueId) (arguments : List MirCallArgument) : Effects :=
  ⟨defines, uses ++ arguments.flatMap MirCallArgument.uses,
    arguments.flatMap MirCallArgument.accesses⟩

/-- The meaning of the fields, constructor by constructor. -/
def MirInstruction.effects : MirInstruction → Effects
  | .loadLiteral destination _ => .compute destination []
  | .makeList destination items => .compute destination items
  | .makeMap destination entries =>
    .compute destination (entries.flatMap fun (key, value) => [key, value])
  | .makeObject destination fields => .compute destination (fields.map Prod.snd)
  | .makeStruct destination _ fields => .compute destination (fields.map Prod.snd)
  | .makeVariant destination _ _ fields => .compute destination (fields.map Prod.snd)
  | .makeResult destination _ value => .compute destination [value]
  | .unwrapResult destination source _ => .compute destination [source]
  | .makeOption destination value => .compute destination value.toList
  | .unwrapOption destination source => .compute destination [source]
  | .listGet destination list index => .compute destination [list, index]
  | .listMap destination list mapper => .compute destination [list, mapper]
  | .listFilter destination list predicate => .compute destination [list, predicate]
  | .listFold destination list state folder => .compute destination [list, state, folder]
  | .listSortBy destination list key compare => .compute destination [list, key, compare]
  | .listSort destination list => .mutate destination list []
  | .listSortWith destination list compare => .mutate destination list [compare]
  | .setForEach destination set callback => .compute destination [set, callback]
  | .listAppend destination list values => .mutate destination list [values]
  | .listClear destination list => .mutate destination list []
  | .listPop destination list => .mutate destination list []
  | .listPush destination list value => .mutate destination list [value]
  | .listRemoveAt destination list index => .mutate destination list [index]
  | .listSet destination list index value => .mutate destination list [index, value]
  | .setClear destination set => .mutate destination set []
  | .setInsert destination set value => .mutate destination set [value]
  | .setRemove destination set value => .mutate destination set [value]
  | .dequeClear destination deque => .mutate destination deque []
  | .dequePopBack destination deque => .mutate destination deque []
  | .dequePopFront destination deque => .mutate destination deque []
  | .dequePushBack destination deque value => .mutate destination deque [value]
  | .dequePushFront destination deque value => .mutate destination deque [value]
  | .sortedMapClear destination map => .mutate destination map []
  | .sortedMapInsert destination map key value => .mutate destination map [key, value]
  | .sortedMapRemove destination map key => .mutate destination map [key]
  | .sortedSetClear destination set => .mutate destination set []
  | .sortedSetInsert destination set value => .mutate destination set [value]
  | .sortedSetRemove destination set value => .mutate destination set [value]
  | .bufferClear destination buffer => .mutate destination buffer []
  | .stringBuilderPush destination builder value => .mutate destination builder [value]
  | .stringBuilderFinish destination builder => .compute destination [builder]
  | .mapGet destination map key => .compute destination [map, key]
  | .mapClear destination map => .mutate destination map []
  | .mapInsert destination map key value => .mutate destination map [key, value]
  | .mapInsertOld destination map key value => .mutate destination map [key, value]
  | .mapRemove destination map key => .mutate destination map [key]
  | .getField destination base _ => .compute destination [base]
  | .setField base _ value => ⟨[], [base, value], []⟩
  | .listLen destination list => .compute destination [list]
  | .readPlace destination place => ⟨[destination], [], [(.read, place)]⟩
  | .borrowRead destination place => ⟨[destination], [], [(.borrow, place)]⟩
  | .takePlace destination place => ⟨[destination], [], [(.take, place)]⟩
  | .manage destination source => .compute destination [source]
  | .retain place => ⟨[], [], [(.read, place)]⟩
  | .drop place => ⟨[], [], [(.drop, place)]⟩
  | .acquireResource place _ source => ⟨[], [source], [(.write, place)]⟩
  | .releaseResource place => ⟨[], [], [(.drop, place)]⟩
  | .spawn _ _ _ arguments => .pass [] [] arguments
  | .await destination _ => .compute destination []
  | .select _ winner value => ⟨[winner, value], [], []⟩
  | .tryResult destination source cleanup =>
    ⟨[destination], [source], cleanup.map fun place => (.cleanup, place)⟩
  | .cancel _ => ⟨[], [], []⟩
  | .join _ => ⟨[], [], []⟩
  | .writePlace place value => ⟨[], [value], [(.write, place)]⟩
  | .binary destination _ left right => .compute destination [left, right]
  | .stringConcat destination left right => .compute destination [left, right]
  | .call destination _ arguments => .pass [destination] [] arguments
  | .makeClosure destination _ captures => .pass [destination] [] captures
  | .callClosure destination closure _ _ arguments => .pass [destination] [closure] arguments
  | .discard value => ⟨[], [value], []⟩

def MirInstruction.defines (instruction : MirInstruction) : List ValueId :=
  instruction.effects.defines

def MirInstruction.uses (instruction : MirInstruction) : List ValueId := instruction.effects.uses

def MirInstruction.accesses (instruction : MirInstruction) : List (PlaceAccess × PlaceId) :=
  instruction.effects.accesses

def MirTerminator.uses : MirTerminator → List ValueId
  | .return value => value.toList
  | .jump _ => []
  | .branch condition _ _ => [condition]
  | .matchVariant value _ _ _ => [value]
  | .matchResult value _ _ => [value]
  | .matchOption value _ _ => [value]
  | .unreachable => []

def MirInstruction.MovesPlace (instruction : MirInstruction) (place : PlaceId) : Prop :=
  ∃ access, (access, place) ∈ instruction.accesses ∧ access.Moves

def MirInstruction.InitializesPlace (instruction : MirInstruction) (place : PlaceId) : Prop :=
  (.write, place) ∈ instruction.accesses

/-! ## The verifier's tables -/

theorem valueArguments_eq : valueArguments arguments = arguments.flatMap MirCallArgument.uses := by
  induction arguments with
  | nil => rfl
  | cons argument arguments ih =>
    rw [List.flatMap_cons, ← ih]
    cases argument <;> rfl

variable (instruction : MirInstruction)

theorem instructionDefinitions_eq : instructionDefinitions instruction = instruction.defines := by
  cases instruction <;> rfl

theorem instructionUses_eq : instructionUses instruction = instruction.uses := by
  cases instruction with
  | call _ _ arguments => exact valueArguments_eq
  | makeClosure _ _ captures => exact valueArguments_eq
  | callClosure _ closure _ _ arguments => exact congrArg (closure :: ·) valueArguments_eq
  | spawn _ _ _ arguments => exact valueArguments_eq
  | _ => rfl

theorem terminatorUses_eq : terminatorUses terminator = terminator.uses := by
  cases terminator with
  | «return» value => cases value <;> rfl
  | _ => rfl

/-- One access against the places moved so far. -/
def transferAccess (function : MirFunction) (movedPlaces : Finset PlaceId)
    (entry : PlaceAccess × PlaceId) : Verified (Finset PlaceId) :=
  match entry with
  | (.read, place) | (.borrow, place) | (.mutate, place) | (.cleanup, place) =>
    useLive function place movedPlaces
  | (.take, place) | (.drop, place) => moveOut function place movedPlaces
  | (.write, place) => return movedPlaces.erase place

variable (function : MirFunction)

theorem transferArguments_eq (arguments : List MirCallArgument) :
    arguments.foldlM (transferArgument function) movedPlaces =
      (arguments.flatMap MirCallArgument.accesses).foldlM (transferAccess function) movedPlaces := by
  induction arguments generalizing movedPlaces with
  | nil => rfl
  | cons argument arguments ih =>
    rw [List.foldlM_cons, List.flatMap_cons]
    simp only [ih]
    cases argument with
    | value => rfl
    | _ => simp [MirCallArgument.accesses, transferArgument, transferAccess]

/-- `TryResult` only looks at its cleanup places. -/
theorem transferCleanup_eq (cleanup : List PlaceId) : (do
      cleanup.forM fun place => checkLive function place movedPlaces return movedPlaces) =
      (cleanup.map fun place => (PlaceAccess.cleanup, place)).foldlM (transferAccess function)
        movedPlaces := by
  induction cleanup with
  | nil => rfl
  | cons place cleanup ih =>
    change (checkLive function place movedPlaces >>= fun _ => _) >>= _ =
      (checkLive function place movedPlaces >>= fun _ => pure movedPlaces) >>= _
    rw [bind_assoc, bind_assoc]
    simp only [pure_bind]
    rw [← ih]

/-- The move table treats every access of every instruction. -/
theorem transferMoveState_eq : transferMoveState function instruction movedPlaces =
      instruction.accesses.foldlM (transferAccess function) movedPlaces := by
  cases instruction with
  | call _ _ arguments | makeClosure _ _ arguments | callClosure _ _ _ _ arguments
  | spawn _ _ _ arguments => exact transferArguments_eq function arguments
  | tryResult _ _ cleanup => exact transferCleanup_eq function cleanup
  -- The others name at most one place.
  | _ => first | rfl | exact (bind_pure _).symm

end RSScript.Mir
