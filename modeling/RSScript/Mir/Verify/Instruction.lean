import RSScript.Mir.Verify.Operands

/-!
# Checking one instruction

Every instruction is checked on its own, in the order of the blocks: the value it
defines is new, the places it names exist and were not moved earlier in the same
block, and a call agrees with its target.
-/

namespace RSScript.Mir

open RSScript.Abi Guards Outcome

/-- What the instruction checks accumulate. -/
structure InstructionVerification where
  defined : Finset ValueId
  used : List ValueId
  movedPlaces : Finset PlaceId

/-- The parts of a module an instruction may refer to. `builtins` is the builtin
catalog: the VM name of each known builtin. -/
structure ModuleContext where
  typeCount : Nat
  functions : List MirFunction
  externalImports : List MirExternalImport
  builtins : BuiltinId → Option String

section Checks

variable (function : MirFunction)

def reject (error : MirValidationError) {α : Type} : Verified α := throw (.error error)

/-- A value that an instruction defines is new. -/
def define (value : ValueId) (state : InstructionVerification) :
    Verified InstructionVerification := do
  ensure (value < function.valueCount ∧ value ∉ state.defined)
    (.error (.invalidValueDefinition function.id value))
  return { state with defined := insert value state.defined }

def InstructionVerification.use (state : InstructionVerification) (values : List ValueId) :
    InstructionVerification :=
  { state with used := state.used ++ values }

def checkPlace (place : PlaceId) : Verified Unit :=
  ensure (place < function.placeCount) (.error (.invalidPlace function.id place))

/-- The place exists and was not moved earlier in the block. -/
def checkLivePlace (place : PlaceId) (state : InstructionVerification) : Verified Unit := do
  checkPlace function place
  checkLive function place state.movedPlaces

/-- Instructions that define one value from others. -/
def defineFrom (destination : ValueId) (operands : List ValueId)
    (state : InstructionVerification) : Verified InstructionVerification := do
  let state ← define function destination state
  return state.use operands

/-- Instructions that also use a place. -/
def defineOnPlace (place : PlaceId) (destination : ValueId) (operands : List ValueId)
    (state : InstructionVerification) : Verified InstructionVerification := do
  checkLivePlace function place state
  defineFrom function destination operands state

/-- Instructions that move a place out. -/
def movePlace (place : PlaceId) (state : InstructionVerification) :
    Verified InstructionVerification := do
  checkLivePlace function place state
  return { state with movedPlaces := insert place state.movedPlaces }

/-- Instructions that initialize a place. -/
def initializePlace (place : PlaceId) (operand : ValueId) (state : InstructionVerification) :
    Verified InstructionVerification := do
  checkPlace function place
  return { state with movedPlaces := state.movedPlaces.erase place }.use [operand]

/-! ## Arguments -/

/-- Whether an argument is passed as the parameter asks for. -/
def callArgumentCompatible : MirCallArgumentMode → MirParameterMode → Bool
  | .value, .read | .read, .read | .mut, .mut | .take, .take => true
  | _, _ => false

/-- An argument of a call, at its position, with the mode its parameter expects. -/
structure PassedArgument where
  argument : MirCallArgument
  expected : MirParameterMode
  position : Nat

def passArguments (arguments : List MirCallArgument) (modes : List MirParameterMode) :
    List PassedArgument :=
  (arguments.zip modes).zipIdx.map fun ((argument, expected), position) =>
    ⟨argument, expected, position⟩

/-- One argument; `mismatch` is the error of an incompatible mode. -/
def verifyArgument
    (mismatch : Nat → MirParameterMode → MirCallArgumentMode → MirValidationError)
    (state : InstructionVerification) (passed : PassedArgument) :
    Verified InstructionVerification := do
  let actual := passed.argument.mode
  ensure (callArgumentCompatible actual passed.expected)
    (.error (mismatch passed.position passed.expected actual))
  match passed.argument with
  | .value value => return state.use [value]
  | .borrowRead place | .borrowMut place => do
    checkLivePlace function place state
    return state
  | .take place => movePlace function place state

def verifyArguments
    (mismatch : Nat → MirParameterMode → MirCallArgumentMode → MirValidationError)
    (arguments : List MirCallArgument) (modes : List MirParameterMode)
    (state : InstructionVerification) : Verified InstructionVerification :=
  (passArguments arguments modes).foldlM (verifyArgument function mismatch) state

def requireCallArity (expected actual : Nat) : Verified Unit :=
  ensure (actual = expected) (.error (.callArityMismatch function.id expected actual))

/-! ## Call targets -/

variable (context : ModuleContext)

/-- Both types of a substitution exist. -/
def verifyTypeSubstitution (substitution : TypeId × TypeId) : Verified Unit :=
  let (parameter, argument) := substitution
  ensure (parameter < context.typeCount ∧ argument < context.typeCount)
    (.error (.invalidType function.id
      (if parameter < context.typeCount then argument else parameter)))

def targetFunction (target : FunctionId) : Verified MirFunction :=
  match context.functions[target]? with
  | some callee => return callee
  | none => reject (.invalidFunctionTarget function.id target)

def verifyDispatchEntry (parameterModes : List MirParameterMode) (entry : TypeId × FunctionId) :
    Verified Unit := do
  let (receiver, target) := entry
  ensure (receiver < context.typeCount) (.error (.invalidDynamicDispatchType function.id receiver))
  let callee ← targetFunction function context target
  ensure (callee.signature.parameterModes = parameterModes)
    (.error (.dynamicDispatchSignatureMismatch function.id target))

def effectMode : DataEffect → MirParameterMode
  | .read => .read
  | .mut => .mut
  | .take => .take

/-- The modes a call target expects of its arguments. -/
def expectedModes : MirCallTarget → Verified (List MirParameterMode)
  | .function target | .functionInstance target _ => do
    let callee ← targetFunction function context target
    return callee.signature.parameterModes
  | .dynamic dispatch parameterModes => do
    ensure (dispatch ≠ []) (.error (.emptyDynamicDispatch function.id))
    dispatch.forM (verifyDispatchEntry function context parameterModes)
    return parameterModes
  | .builtin id parameterModes _ =>
    match context.builtins id with
    | some _ => return parameterModes
    | none => reject (.invalidBuiltinTarget function.id id)
  | .external target =>
    match context.externalImports[target]? with
    | some entry => return entry.signature.parameters.map fun parameter => effectMode parameter.effect
    | none => reject (.invalidExternalTarget function.id target)

/-- The type arguments of a builtin: one for the JSON decoders, none otherwise. -/
def verifyBuiltinTypes : MirCallTarget → Verified Unit
  | .builtin id _ typeArguments => do
    let expected ← match context.builtins id with
      | some name => .ok (if name ∈ ["JsonDecode", "JsonDecodeText"] then 1 else 0)
      | none => throw .panic
    ensure (typeArguments.length = expected)
      (.error (.builtinTypeArgumentArity function.id id expected typeArguments.length))
    typeArguments.forM fun ty =>
      ensure (ty < context.typeCount) (.error (.invalidBuiltinTypeArgument function.id ty))
  | _ => return ()

def typeSubstitutions : MirCallTarget → List (TypeId × TypeId)
  | .functionInstance _ substitutions => substitutions
  | _ => []

def verifyCall (destination : ValueId) (target : MirCallTarget) (arguments : List MirCallArgument)
    (state : InstructionVerification) : Verified InstructionVerification := do
  let state ← define function destination state
  (typeSubstitutions target).forM (verifyTypeSubstitution function context)
  let modes ← expectedModes function context target
  verifyBuiltinTypes function context target
  requireCallArity function modes.length arguments.length
  verifyArguments function (.callArgumentModeMismatch function.id) arguments modes state

def verifyMakeClosure (destination : ValueId) (target : FunctionId)
    (captures : List MirCallArgument) (state : InstructionVerification) :
    Verified InstructionVerification := do
  let state ← define function destination state
  let callee ← targetFunction function context target
  ensure (captures.length = callee.captures.length) (.error
    (.closureCaptureArityMismatch function.id target callee.captures.length captures.length))
  verifyArguments function (.closureCaptureModeMismatch function.id target) captures
    (callee.captures.map MirClosureCapture.mode) state

def verifyCallClosure (destination closure : ValueId) (parameterTypes : List TypeId)
    (parameterModes : List MirParameterMode) (arguments : List MirCallArgument)
    (state : InstructionVerification) : Verified InstructionVerification := do
  let state ← defineFrom function destination [closure] state
  ensure (parameterTypes.length = parameterModes.length) (.error
    (.closureParameterModeCount function.id parameterTypes.length parameterModes.length))
  parameterTypes.forM fun ty =>
    ensure (ty < context.typeCount) (.error (.invalidClosureParameterType function.id ty))
  requireCallArity function parameterModes.length arguments.length
  verifyArguments function (.callArgumentModeMismatch function.id) arguments parameterModes state

def verifySpawn (target : FunctionId) (arguments : List MirCallArgument)
    (state : InstructionVerification) : Verified InstructionVerification := do
  let callee ← targetFunction function context target
  ensure callee.signature.asynchronous (.error (.spawnTargetNotAsync function.id target))
  requireCallArity function callee.signature.parameterModes.length arguments.length
  verifyArguments function (.callArgumentModeMismatch function.id) arguments
    callee.signature.parameterModes state

/-! ## Instructions and terminators -/

def verifyInstruction (instruction : MirInstruction) (state : InstructionVerification) :
    Verified InstructionVerification :=
  match instruction with
  | .loadLiteral destination _
  | .makeList destination _
  | .makeMap destination _
  | .makeObject destination _
  | .makeResult destination _ _
  | .listGet destination _ _
  | .mapGet destination _ _
  | .getField destination _ _
  | .listLen destination _
  | .makeStruct destination _ _
  | .makeVariant destination _ _ _
  | .makeOption destination _ => define function destination state
  | .unwrapResult destination source _
  | .unwrapOption destination source => defineFrom function destination [source] state
  | .listAppend destination list values => defineOnPlace function list destination [values] state
  | .listClear destination list
  | .listPop destination list => defineOnPlace function list destination [] state
  | .listPush destination list value => defineOnPlace function list destination [value] state
  | .listSort destination list => defineOnPlace function list destination [] state
  | .listSortWith destination list compare =>
    defineOnPlace function list destination [compare] state
  | .listMap destination receiver callback
  | .listFilter destination receiver callback
  | .setForEach destination receiver callback =>
    defineFrom function destination [receiver, callback] state
  | .listFold destination list fold folder =>
    defineFrom function destination [list, fold, folder] state
  | .listSortBy destination list key compare =>
    defineFrom function destination [list, key, compare] state
  | .listRemoveAt destination list index => defineOnPlace function list destination [index] state
  | .listSet destination list index value =>
    defineOnPlace function list destination [index, value] state
  | .setClear destination set => defineOnPlace function set destination [] state
  | .setInsert destination set value
  | .setRemove destination set value => defineOnPlace function set destination [value] state
  | .dequeClear destination deque
  | .dequePopBack destination deque
  | .dequePopFront destination deque => defineOnPlace function deque destination [] state
  | .dequePushBack destination deque value
  | .dequePushFront destination deque value =>
    defineOnPlace function deque destination [value] state
  | .sortedMapClear destination map => defineOnPlace function map destination [] state
  | .sortedMapInsert destination map key value =>
    defineOnPlace function map destination [key, value] state
  | .sortedMapRemove destination map key => defineOnPlace function map destination [key] state
  | .sortedSetClear destination set => defineOnPlace function set destination [] state
  | .sortedSetInsert destination set value
  | .sortedSetRemove destination set value => defineOnPlace function set destination [value] state
  | .bufferClear destination buffer => defineOnPlace function buffer destination [] state
  | .stringBuilderPush destination builder value =>
    defineOnPlace function builder destination [value] state
  | .stringBuilderFinish destination builder => defineFrom function destination [builder] state
  | .mapClear destination map => defineOnPlace function map destination [] state
  | .mapInsert destination map key value
  | .mapInsertOld destination map key value =>
    defineOnPlace function map destination [key, value] state
  | .mapRemove destination map key => defineOnPlace function map destination [key] state
  | .readPlace destination place
  | .borrowRead destination place => defineOnPlace function place destination [] state
  | .takePlace destination place => do
    let state ← movePlace function place state
    define function destination state
  | .manage destination source => defineFrom function destination [source] state
  | .retain place => do
    checkLivePlace function place state
    return state
  | .drop place => movePlace function place state
  | .acquireResource place _ source => initializePlace function place source state
  | .releaseResource place => movePlace function place state
  | .writePlace place value => initializePlace function place value state
  | .setField base _ value => return state.use [base, value]
  | .binary destination _ left right
  | .stringConcat destination left right => defineFrom function destination [left, right] state
  | .tryResult destination source cleanup => do
    let state ← defineFrom function destination [source] state
    cleanup.forM fun place => checkLivePlace function place state
    return state
  | .call destination target arguments =>
    verifyCall function context destination target arguments state
  | .makeClosure destination target captures =>
    verifyMakeClosure function context destination target captures state
  | .callClosure destination closure parameterTypes parameterModes arguments =>
    verifyCallClosure function context destination closure parameterTypes parameterModes arguments
      state
  | .spawn _ _ target arguments => verifySpawn function context target arguments state
  | .await destination _ => define function destination state
  | .select _ winner value => do
    let state ← define function winner state
    define function value state
  | .cancel _ | .join _ => return state
  | .discard value => return state.use [value]

def checkTarget (target : BlockId) : Verified Unit :=
  ensure (target < function.blocks.length) (.error (.invalidBlockTarget function.id target))

/-- A terminator's targets exist; the values it uses are returned. -/
def verifyTerminator (terminator : MirTerminator) (used : List ValueId) :
    Verified (List ValueId) :=
  match terminator with
  | .return value => return used ++ value.toList
  | .jump target => do
    checkTarget function target
    return used
  | .branch condition thenTarget elseTarget => do
    checkTarget function thenTarget
    checkTarget function elseTarget
    return used ++ [condition]
  | .matchVariant _ expected matchTarget elseTarget => do
    ensure (expected ≠ "") (.error (.invalidVariantTag function.id))
    checkTarget function matchTarget
    checkTarget function elseTarget
    return used
  | .matchResult _ okTarget errTarget => do
    checkTarget function okTarget
    checkTarget function errTarget
    return used
  | .matchOption _ someTarget noneTarget => do
    checkTarget function someTarget
    checkTarget function noneTarget
    return used
  | .unreachable => return used

end Checks

end RSScript.Mir
