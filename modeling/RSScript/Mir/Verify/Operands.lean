import RSScript.Lib.Outcome
import RSScript.Mir.Model

/-!
# Operand tables

What each instruction defines and uses, and how it moves places. The dataflow
passes read instructions only through these tables, so an operand missing here
would go unchecked.
-/

namespace RSScript.Mir

open Guards Outcome

/-- The result of a verification pass. -/
abbrev Verified := Except (Fault MirValidationError)

/-- The value arguments of a call. -/
def valueArguments (arguments : List MirCallArgument) : List ValueId :=
  arguments.filterMap fun
    | .value value => some value
    | .borrowRead _ | .borrowMut _ | .take _ => none

def instructionDefinitions : MirInstruction → List ValueId
  | .loadLiteral destination _
  | .makeList destination _
  | .makeMap destination _
  | .makeObject destination _
  | .makeStruct destination _ _
  | .makeVariant destination _ _ _
  | .makeResult destination _ _
  | .unwrapResult destination _ _
  | .makeOption destination _
  | .unwrapOption destination _
  | .listGet destination _ _
  | .listAppend destination _ _
  | .listClear destination _
  | .listPop destination _
  | .listPush destination _ _
  | .listMap destination _ _
  | .listFilter destination _ _
  | .listFold destination _ _ _
  | .listSortBy destination _ _ _
  | .listSort destination _
  | .listSortWith destination _ _
  | .setForEach destination _ _
  | .listRemoveAt destination _ _
  | .listSet destination _ _ _
  | .setClear destination _
  | .setInsert destination _ _
  | .setRemove destination _ _
  | .dequeClear destination _
  | .dequePopBack destination _
  | .dequePopFront destination _
  | .dequePushBack destination _ _
  | .dequePushFront destination _ _
  | .sortedMapClear destination _
  | .sortedMapInsert destination _ _ _
  | .sortedMapRemove destination _ _
  | .sortedSetClear destination _
  | .sortedSetInsert destination _ _
  | .sortedSetRemove destination _ _
  | .bufferClear destination _
  | .stringBuilderPush destination _ _
  | .stringBuilderFinish destination _
  | .mapGet destination _ _
  | .mapClear destination _
  | .mapInsert destination _ _ _
  | .mapInsertOld destination _ _ _
  | .mapRemove destination _ _
  | .getField destination _ _
  | .listLen destination _
  | .readPlace destination _
  | .borrowRead destination _
  | .takePlace destination _
  | .manage destination _
  | .binary destination _ _ _
  | .stringConcat destination _ _
  | .call destination _ _
  | .makeClosure destination _ _
  | .callClosure destination _ _ _ _
  | .await destination _
  | .tryResult destination _ _ => [destination]
  | .select _ winner value => [winner, value]
  | .writePlace _ _
  | .retain _
  | .drop _
  | .acquireResource _ _ _
  | .releaseResource _
  | .spawn _ _ _ _
  | .cancel _
  | .join _
  | .setField _ _ _
  | .discard _ => []

def instructionUses : MirInstruction → List ValueId
  | .writePlace _ value | .discard value => [value]
  | .makeList _ items => items
  | .makeMap _ entries => entries.flatMap fun (key, value) => [key, value]
  | .makeObject _ fields | .makeStruct _ _ fields | .makeVariant _ _ _ fields =>
    fields.map Prod.snd
  | .makeResult _ _ value => [value]
  | .unwrapResult _ source _ => [source]
  | .makeOption _ value => value.toList
  | .unwrapOption _ source => [source]
  | .listGet _ list index => [list, index]
  | .listMap _ list mapper => [list, mapper]
  | .listFilter _ list predicate => [list, predicate]
  | .listFold _ list state folder => [list, state, folder]
  | .listSortBy _ list key compare => [list, key, compare]
  | .listSort _ _ => []
  | .listSortWith _ _ compare => [compare]
  | .setForEach _ set callback => [set, callback]
  | .listAppend _ _ values | .listPush _ _ values => [values]
  | .listRemoveAt _ _ index => [index]
  | .listSet _ _ index value => [index, value]
  | .setInsert _ _ value | .setRemove _ _ value => [value]
  | .dequePushBack _ _ value | .dequePushFront _ _ value => [value]
  | .sortedMapInsert _ _ key value => [key, value]
  | .sortedMapRemove _ _ key => [key]
  | .sortedSetInsert _ _ value | .sortedSetRemove _ _ value => [value]
  | .stringBuilderPush _ _ value | .stringBuilderFinish _ value => [value]
  | .mapGet _ map key => [map, key]
  | .mapInsert _ _ key value | .mapInsertOld _ _ key value => [key, value]
  | .mapRemove _ _ key => [key]
  | .getField _ base _ => [base]
  | .setField base _ value => [base, value]
  | .listLen _ list => [list]
  | .acquireResource _ _ source => [source]
  | .manage _ source => [source]
  | .binary _ _ left right | .stringConcat _ left right => [left, right]
  | .call _ _ arguments | .makeClosure _ _ arguments => valueArguments arguments
  | .callClosure _ closure _ _ arguments => closure :: valueArguments arguments
  | .spawn _ _ _ arguments => valueArguments arguments
  | .loadLiteral _ _
  | .readPlace _ _
  | .borrowRead _ _
  | .takePlace _ _
  | .retain _
  | .drop _
  | .releaseResource _
  | .await _ _
  | .select _ _ _
  | .cancel _
  | .join _
  | .mapClear _ _
  | .listClear _ _
  | .listPop _ _
  | .setClear _ _
  | .dequeClear _ _
  | .dequePopBack _ _
  | .dequePopFront _ _
  | .sortedMapClear _ _
  | .sortedSetClear _ _
  | .bufferClear _ _ => []
  | .tryResult _ source _ => [source]

def terminatorUses : MirTerminator → List ValueId
  | .return (some value) => [value]
  | .branch condition _ _ => [condition]
  | .matchVariant value _ _ _ => [value]
  | .matchResult value _ _ => [value]
  | .matchOption value _ _ => [value]
  | .return none | .jump _ | .unreachable => []

/-! ## Moves -/

/-- A place that was moved may not be used. -/
def checkLive (function : MirFunction) (place : PlaceId) (movedPlaces : Finset PlaceId) :
    Verified Unit :=
  ensure (place ∉ movedPlaces) (.error (.useAfterMove function.id place))

/-- Use a place and move it. -/
def moveOut (function : MirFunction) (place : PlaceId) (movedPlaces : Finset PlaceId) :
    Verified (Finset PlaceId) := do
  checkLive function place movedPlaces
  return insert place movedPlaces

/-- Use a place and leave it where it is. -/
def useLive (function : MirFunction) (place : PlaceId) (movedPlaces : Finset PlaceId) :
    Verified (Finset PlaceId) := do
  checkLive function place movedPlaces
  return movedPlaces

def transferArgument (function : MirFunction) (movedPlaces : Finset PlaceId) :
    MirCallArgument → Verified (Finset PlaceId)
  | .value _ => return movedPlaces
  | .borrowRead place | .borrowMut place => useLive function place movedPlaces
  | .take place => moveOut function place movedPlaces

def transferMoveState (function : MirFunction) (instruction : MirInstruction)
    (movedPlaces : Finset PlaceId) : Verified (Finset PlaceId) :=
  match instruction with
  | .readPlace _ place | .borrowRead _ place => useLive function place movedPlaces
  | .takePlace _ place => moveOut function place movedPlaces
  | .manage _ _ => return movedPlaces
  | .retain place => useLive function place movedPlaces
  | .drop place => moveOut function place movedPlaces
  | .acquireResource place _ _ => return movedPlaces.erase place
  | .releaseResource place => moveOut function place movedPlaces
  | .writePlace place _ => return movedPlaces.erase place
  | .mapClear _ map => useLive function map movedPlaces
  | .listAppend _ list _
  | .listClear _ list
  | .listPop _ list
  | .listPush _ list _
  | .listRemoveAt _ list _
  | .listSet _ list _ _
  | .listSort _ list
  | .listSortWith _ list _ => useLive function list movedPlaces
  | .listMap _ _ _
  | .listFilter _ _ _
  | .listFold _ _ _ _
  | .listSortBy _ _ _ _
  | .setForEach _ _ _ => return movedPlaces
  | .setClear _ set
  | .setInsert _ set _
  | .setRemove _ set _ => useLive function set movedPlaces
  | .dequeClear _ deque
  | .dequePopBack _ deque
  | .dequePopFront _ deque
  | .dequePushBack _ deque _
  | .dequePushFront _ deque _ => useLive function deque movedPlaces
  | .sortedMapClear _ map
  | .sortedMapInsert _ map _ _
  | .sortedMapRemove _ map _ => useLive function map movedPlaces
  | .sortedSetClear _ set
  | .sortedSetInsert _ set _
  | .sortedSetRemove _ set _ => useLive function set movedPlaces
  | .bufferClear _ buffer
  | .stringBuilderPush _ buffer _ => useLive function buffer movedPlaces
  | .mapInsert _ map _ _
  | .mapInsertOld _ map _ _
  | .mapRemove _ map _ => useLive function map movedPlaces
  | .call _ _ arguments
  | .makeClosure _ _ arguments
  | .callClosure _ _ _ _ arguments
  | .spawn _ _ _ arguments => arguments.foldlM (transferArgument function) movedPlaces
  | .loadLiteral _ _
  | .makeList _ _
  | .makeMap _ _
  | .makeObject _ _
  | .makeStruct _ _ _
  | .makeVariant _ _ _ _
  | .makeResult _ _ _
  | .unwrapResult _ _ _
  | .makeOption _ _
  | .unwrapOption _ _
  | .listGet _ _ _
  | .mapGet _ _ _
  | .stringBuilderFinish _ _
  | .getField _ _ _
  | .listLen _ _
  | .binary _ _ _ _
  | .stringConcat _ _ _
  | .setField _ _ _
  | .await _ _
  | .select _ _ _
  | .cancel _
  | .join _
  | .discard _ => return movedPlaces
  | .tryResult _ _ cleanup => do
    cleanup.forM fun place => checkLive function place movedPlaces
    return movedPlaces

end RSScript.Mir
