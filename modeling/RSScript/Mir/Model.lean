import Mathlib.Data.Finset.Basic
import RSScript.Abi.Model

/-!
# MIR

The typed control-flow representation shared by the backends. A value is defined
once; mutable local state lives in places. Identities are indices local to a
function or a module.

Nothing here gives an instruction a result: the verifier is about definitions, moves and
lifetimes, not about values.
-/

namespace RSScript.Mir

open RSScript.Abi

abbrev FunctionId := Nat
abbrev TypeId := Nat
abbrev BlockId := Nat
abbrev ValueId := Nat
abbrev PlaceId := Nat
abbrev BuiltinId := Nat
abbrev ExternalSymbolId := Nat
abbrev ResourceTypeId := Nat
abbrev TaskId := Nat
abbrev TaskGroupId := Nat

inductive MirBinaryOp where
  | add
  | subtract
  | multiply
  | divide
  | modulo
  | bitAnd
  | bitOr
  | bitXor
  | shiftLeft
  | shiftRight
  | equal
  | notEqual
  | less
  | lessEqual
  | greater
  | greaterEqual
  | logicalAnd
  | logicalOr
  deriving DecidableEq, Repr

/-- Literals; a float is its bit pattern. -/
inductive MirLiteral where
  | unit
  | int (value : Int64)
  | float (bits : UInt64)
  | bool (value : Bool)
  | string (value : String)
  | char (value : Char)
  deriving DecidableEq, Repr

/-- Required ownership mode of a parameter. -/
inductive MirParameterMode where
  | read
  | mut
  | take
  deriving DecidableEq, Repr

/-- A resolved call argument. Borrows and moves name a place. -/
inductive MirCallArgument where
  | value (value : ValueId)
  | borrowRead (place : PlaceId)
  | borrowMut (place : PlaceId)
  | take (place : PlaceId)
  deriving DecidableEq, Repr

inductive MirCallArgumentMode where
  | value
  | read
  | mut
  | take
  deriving DecidableEq, Repr

def MirCallArgument.mode : MirCallArgument → MirCallArgumentMode
  | .value _ => .value
  | .borrowRead _ => .read
  | .borrowMut _ => .mut
  | .take _ => .take

/-- A fully resolved call target. -/
inductive MirCallTarget where
  | function (function : FunctionId)
  | functionInstance (function : FunctionId) (typeSubstitutions : List (TypeId × TypeId))
  | dynamic (dispatch : List (TypeId × FunctionId)) (parameterModes : List MirParameterMode)
  | builtin (id : BuiltinId) (parameterModes : List MirParameterMode) (typeArguments : List TypeId)
  | external (symbol : ExternalSymbolId)
  deriving DecidableEq, Repr

/-- The instructions of a block. -/
inductive MirInstruction where
  | loadLiteral (destination : ValueId) (value : MirLiteral)
  | makeList (destination : ValueId) (items : List ValueId)
  | makeMap (destination : ValueId) (entries : List (ValueId × ValueId))
  | makeObject (destination : ValueId) (fields : List (String × ValueId))
  | makeStruct (destination : ValueId) (ty : TypeId) (fields : List (String × ValueId))
  | makeVariant (destination : ValueId) (ty : TypeId) (variant : String)
      (fields : List (String × ValueId))
  | makeResult (destination : ValueId) (ok : Bool) (value : ValueId)
  | unwrapResult (destination source : ValueId) (ok : Bool)
  | makeOption (destination : ValueId) (value : Option ValueId)
  | unwrapOption (destination source : ValueId)
  | listGet (destination list index : ValueId)
  | listMap (destination list mapper : ValueId)
  | listFilter (destination list predicate : ValueId)
  | listFold (destination list state folder : ValueId)
  | listSortBy (destination list key compare : ValueId)
  | listSort (destination : ValueId) (list : PlaceId)
  | listSortWith (destination : ValueId) (list : PlaceId) (compare : ValueId)
  | setForEach (destination set callback : ValueId)
  | listAppend (destination : ValueId) (list : PlaceId) (values : ValueId)
  | listClear (destination : ValueId) (list : PlaceId)
  | listPop (destination : ValueId) (list : PlaceId)
  | listPush (destination : ValueId) (list : PlaceId) (value : ValueId)
  | listRemoveAt (destination : ValueId) (list : PlaceId) (index : ValueId)
  | listSet (destination : ValueId) (list : PlaceId) (index value : ValueId)
  | setClear (destination : ValueId) (set : PlaceId)
  | setInsert (destination : ValueId) (set : PlaceId) (value : ValueId)
  | setRemove (destination : ValueId) (set : PlaceId) (value : ValueId)
  | dequeClear (destination : ValueId) (deque : PlaceId)
  | dequePopBack (destination : ValueId) (deque : PlaceId)
  | dequePopFront (destination : ValueId) (deque : PlaceId)
  | dequePushBack (destination : ValueId) (deque : PlaceId) (value : ValueId)
  | dequePushFront (destination : ValueId) (deque : PlaceId) (value : ValueId)
  | sortedMapClear (destination : ValueId) (map : PlaceId)
  | sortedMapInsert (destination : ValueId) (map : PlaceId) (key value : ValueId)
  | sortedMapRemove (destination : ValueId) (map : PlaceId) (key : ValueId)
  | sortedSetClear (destination : ValueId) (set : PlaceId)
  | sortedSetInsert (destination : ValueId) (set : PlaceId) (value : ValueId)
  | sortedSetRemove (destination : ValueId) (set : PlaceId) (value : ValueId)
  | bufferClear (destination : ValueId) (buffer : PlaceId)
  | stringBuilderPush (destination : ValueId) (builder : PlaceId) (value : ValueId)
  | stringBuilderFinish (destination builder : ValueId)
  | mapGet (destination map key : ValueId)
  | mapClear (destination : ValueId) (map : PlaceId)
  | mapInsert (destination : ValueId) (map : PlaceId) (key value : ValueId)
  | mapInsertOld (destination : ValueId) (map : PlaceId) (key value : ValueId)
  | mapRemove (destination : ValueId) (map : PlaceId) (key : ValueId)
  | getField (destination base : ValueId) (field : String)
  | setField (base : ValueId) (field : String) (value : ValueId)
  | listLen (destination list : ValueId)
  | readPlace (destination : ValueId) (place : PlaceId)
  | borrowRead (destination : ValueId) (place : PlaceId)
  | takePlace (destination : ValueId) (place : PlaceId)
  | manage (destination source : ValueId)
  | retain (place : PlaceId)
  | drop (place : PlaceId)
  | acquireResource (place : PlaceId) (resourceType : ResourceTypeId) (source : ValueId)
  | releaseResource (place : PlaceId)
  | spawn (task : TaskId) (group : TaskGroupId) (target : FunctionId)
      (arguments : List MirCallArgument)
  | await (destination : ValueId) (task : TaskId)
  | select (tasks : List TaskId) (winner value : ValueId)
  | tryResult (destination source : ValueId) (cleanup : List PlaceId)
  | cancel (task : TaskId)
  | join (group : TaskGroupId)
  | writePlace (place : PlaceId) (value : ValueId)
  | binary (destination : ValueId) (op : MirBinaryOp) (left right : ValueId)
  | stringConcat (destination left right : ValueId)
  | call (destination : ValueId) (target : MirCallTarget) (arguments : List MirCallArgument)
  | makeClosure (destination : ValueId) (function : FunctionId) (captures : List MirCallArgument)
  | callClosure (destination closure : ValueId) (parameterTypes : List TypeId)
      (parameterModes : List MirParameterMode) (arguments : List MirCallArgument)
  | discard (value : ValueId)
  deriving Repr

/-- How a block ends. -/
inductive MirTerminator where
  | return (value : Option ValueId)
  | jump (target : BlockId)
  | branch (condition : ValueId) (thenTarget elseTarget : BlockId)
  | matchVariant (value : ValueId) (expected : String) (matchTarget elseTarget : BlockId)
  | matchResult (value : ValueId) (okTarget errTarget : BlockId)
  | matchOption (value : ValueId) (someTarget noneTarget : BlockId)
  | unreachable
  deriving DecidableEq, Repr

structure BasicBlock where
  id : BlockId
  instructions : List MirInstruction
  terminator : MirTerminator
  deriving Repr

structure MirSourceLocation where
  file : String
  line : Nat
  column : Nat
  length : Nat
  deriving DecidableEq, Repr

structure MirInstructionSource where
  block : BlockId
  instructionIndex : Nat
  source : MirSourceLocation
  deriving DecidableEq, Repr

structure MirFunctionDebug where
  name : String
  places : List String
  source : Option MirSourceLocation
  instructionSources : List MirInstructionSource
  deriving DecidableEq, Repr

structure MirFunctionSignature where
  parameterTypes : List TypeId
  parameterModes : List MirParameterMode
  result : TypeId
  asynchronous : Bool
  deriving DecidableEq, Repr

structure MirClosureCapture where
  ty : TypeId
  mode : MirParameterMode
  deriving DecidableEq, Repr

/-- A function: its signature, its captures, the size of its frame, its blocks. -/
structure MirFunction where
  id : FunctionId
  signature : MirFunctionSignature
  captures : List MirClosureCapture
  placeCount : Nat
  valueCount : Nat
  blocks : List BasicBlock
  deriving Repr

structure MirExternalImport where
  id : ExternalSymbolId
  symbol : String
  signature : FunctionSignature
  deriving Repr

/-- The field shape of a named value type. -/
structure MirTypeLayout where
  ty : TypeId
  name : String
  fields : List (String × TypeId)
  deriving DecidableEq, Repr

structure MirVariantCaseLayout where
  name : String
  fields : List (String × TypeId)
  deriving DecidableEq, Repr

/-- The cases of a named sum type, in declaration order. -/
structure MirVariantLayout where
  ty : TypeId
  name : String
  variants : List MirVariantCaseLayout
  deriving DecidableEq, Repr

/-- The functions of a module, with the types, layouts and imports they refer to. -/
structure MirModule where
  types : List WireType
  typeLayouts : List MirTypeLayout
  variantLayouts : List MirVariantLayout
  functions : List MirFunction
  functionDebug : List MirFunctionDebug
  externalImports : List MirExternalImport
  deriving Repr

/-! ## Control flow -/

/-- The successors of a block. -/
def successors : MirTerminator → List BlockId
  | .jump target => [target]
  | .branch _ thenTarget elseTarget => [thenTarget, elseTarget]
  | .matchVariant _ _ matchTarget elseTarget => [matchTarget, elseTarget]
  | .matchResult _ okTarget errTarget => [okTarget, errTarget]
  | .matchOption _ someTarget noneTarget => [someTarget, noneTarget]
  | .return _ | .unreachable => []

/-- Why the verifier refuses a module. -/
inductive MirValidationError where
  | functionDebugCount (functions debug : Nat)
  | invalidInstructionSourceBlock (function : FunctionId) (block : BlockId)
  | invalidInstructionSourceIndex (function : FunctionId) (block : BlockId)
      (instructionIndex : Nat)
  | duplicateInstructionSource (function : FunctionId) (block : BlockId) (instructionIndex : Nat)
  | functionParameterModeCount (function : FunctionId) (types modes : Nat)
  | closureFrameTooSmall (function : FunctionId) (required actual : Nat)
  | invalidClosureCaptureType (function : FunctionId) (ty : TypeId)
  | functionIdMismatch (expected actual : Nat)
  | externalImportIdMismatch (expected actual : Nat)
  | emptyFunction (function : FunctionId)
  | blockIdMismatch (function : FunctionId) (expected actual : Nat)
  | invalidBlockTarget (function : FunctionId) (target : BlockId)
  | invalidPlace (function : FunctionId) (place : PlaceId)
  | invalidType (function : FunctionId) (ty : TypeId)
  | invalidRecordType (function : FunctionId) (ty : TypeId)
  | invalidAggregateField (function : FunctionId) (field : String)
  | invalidVariantTag (function : FunctionId)
  | invalidResourceType (function : FunctionId) (resourceType : ResourceTypeId)
  | resourceAlreadyLive (function : FunctionId) (place : PlaceId)
  | resourceNotLive (function : FunctionId) (place : PlaceId)
  | resourceLeak (function : FunctionId) (place : PlaceId)
  | duplicateTaskId (function : FunctionId) (task : TaskId)
  | taskAlreadyLive (function : FunctionId) (task : TaskId)
  | taskNotLive (function : FunctionId) (task : TaskId)
  | taskLeak (function : FunctionId) (task : TaskId)
  | taskGroupMismatch (function : FunctionId) (task : TaskId)
  | spawnTargetNotAsync (function : FunctionId) (target : FunctionId)
  | invalidFunctionTarget (function : FunctionId) (target : FunctionId)
  | emptyDynamicDispatch (function : FunctionId)
  | invalidDynamicDispatchType (function : FunctionId) (ty : TypeId)
  | dynamicDispatchSignatureMismatch (function : FunctionId) (target : FunctionId)
  | closureCaptureArityMismatch (function target : FunctionId) (expected actual : Nat)
  | closureCaptureModeMismatch (function target : FunctionId) (capture : Nat)
      (expected : MirParameterMode) (actual : MirCallArgumentMode)
  | closureParameterModeCount (function : FunctionId) (types modes : Nat)
  | invalidClosureParameterType (function : FunctionId) (ty : TypeId)
  | invalidExternalTarget (function : FunctionId) (target : ExternalSymbolId)
  | invalidBuiltinTarget (function : FunctionId) (target : BuiltinId)
  | invalidBuiltinTypeArgument (function : FunctionId) (ty : TypeId)
  | builtinTypeArgumentArity (function : FunctionId) (target : BuiltinId) (expected actual : Nat)
  | invalidTypeLayout (ty : TypeId) (name : String)
  | callArityMismatch (function : FunctionId) (expected actual : Nat)
  | callArgumentModeMismatch (function : FunctionId) (parameter : Nat)
      (expected : MirParameterMode) (actual : MirCallArgumentMode)
  | useAfterMove (function : FunctionId) (place : PlaceId)
  | invalidValueDefinition (function : FunctionId) (value : ValueId)
  | undefinedValue (function : FunctionId) (value : ValueId)
  | valueDoesNotDominate (function : FunctionId) (block : BlockId) (value : ValueId)
  deriving DecidableEq, Repr

end RSScript.Mir
