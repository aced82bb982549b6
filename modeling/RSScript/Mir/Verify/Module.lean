import RSScript.Mir.Verify.Dataflow

/-!
# Verifying a module

The layout tables, then every function: its frame and instructions, the dataflow
passes, its source table and the types it names.

That lowering produces modules which pass is not a subject of this development.
-/

namespace RSScript.Mir

open RSScript.Abi Guards Outcome

/-! ## Layout tables -/

/-- The fields of a layout have nonempty, distinct names and known types. -/
def verifyLayoutFields (typeCount : Nat) (invalid : Fault MirValidationError)
    (fields : List (String × TypeId)) : Verified Unit := do
  let _ ← fields.foldlM (fun names (name, ty) => do
    ensure (¬name.isEmpty ∧ name ∉ names ∧ ty < typeCount) invalid
    return insert name names) (∅ : Finset String)

/-- The wire type a layout describes: a named type of the same name. -/
def isNamedType (name : String) : Option WireType → Bool
  | some (.named _ found _) => found = name
  | _ => false

/-- The names and types of the layouts before one, and that layout's own. -/
def verifyLayoutHeader (types : List WireType) (seen : Finset String × Finset TypeId) (ty : TypeId)
    (name : String) : Verified (Finset String × Finset TypeId) := do
  let (names, layoutTypes) := seen
  ensure (¬name.isEmpty ∧ name ∉ names) (.error (.invalidTypeLayout ty name))
  ensure (ty ∉ layoutTypes ∧ isNamedType name types[ty]?) (.error (.invalidTypeLayout ty name))
  return (insert name names, insert ty layoutTypes)

def verifyTypeLayouts (types : List WireType) (layouts : List MirTypeLayout) : Verified Unit := do
  let _ ← layouts.foldlM (fun seen layout => do
    let seen ← verifyLayoutHeader types seen layout.ty layout.name
    verifyLayoutFields types.length (.error (.invalidTypeLayout layout.ty layout.name)) layout.fields
    return seen) ((∅, ∅) : Finset String × Finset TypeId)

def verifyVariantLayouts (types : List WireType) (layouts : List MirVariantLayout) :
    Verified Unit := do
  let _ ← layouts.foldlM (fun seen layout => do
    let seen ← verifyLayoutHeader types seen layout.ty layout.name
    let invalid := Fault.error (.invalidTypeLayout layout.ty layout.name)
    let _ ← layout.variants.foldlM (fun names variant => do
      ensure (¬variant.name.isEmpty ∧ variant.name ∉ names) invalid
      verifyLayoutFields types.length invalid variant.fields
      return insert variant.name names) (∅ : Finset String)
    return seen) ((∅, ∅) : Finset String × Finset TypeId)

/-! ## One function -/

def verifyInstructionSource (function : MirFunction) (seen : Finset (BlockId × Nat))
    (entry : MirInstructionSource) : Verified (Finset (BlockId × Nat)) :=
  match function.blocks[entry.block]? with
  | none => reject (.invalidInstructionSourceBlock function.id entry.block)
  | some block => do
    ensure (block.id = entry.block)
      (.error (.invalidInstructionSourceBlock function.id entry.block))
    ensure (entry.instructionIndex < block.instructions.length) (.error
      (.invalidInstructionSourceIndex function.id entry.block entry.instructionIndex))
    ensure ((entry.block, entry.instructionIndex) ∉ seen) (.error
      (.duplicateInstructionSource function.id entry.block entry.instructionIndex))
    return insert (entry.block, entry.instructionIndex) seen

def verifyInstructionSources (function : MirFunction) (debug : MirFunctionDebug) :
    Verified Unit := do
  let _ ← debug.instructionSources.foldlM (verifyInstructionSource function) ∅

def verifyResourceTypes (function : MirFunction) (types : List WireType) : Verified Unit :=
  function.instructions.forM fun
    | .acquireResource _ resourceType _ =>
      match types[resourceType]? with
      | some (.resource _) => return ()
      | _ => reject (.invalidResourceType function.id resourceType)
    | _ => return ()

/-- The type of a record and its field names. -/
def verifyRecord (function : MirFunction) (types : List WireType) (ty : TypeId)
    (fields : List (String × ValueId)) : Verified Unit := do
  match types[ty]? with
  | some (.named _ _ _) =>
    let _ ← fields.foldlM (fun names (field, _) => do
      ensure (¬field.isEmpty ∧ field ∉ names) (.error (.invalidAggregateField function.id field))
      return insert field names) (∅ : Finset String)
  | _ => reject (.invalidRecordType function.id ty)

def verifyRecordTypes (function : MirFunction) (types : List WireType) : Verified Unit :=
  function.instructions.forM fun
    | .makeStruct _ ty fields | .makeVariant _ ty _ fields => verifyRecord function types ty fields
    | .getField _ _ field =>
      ensure (¬field.isEmpty) (.error (.invalidAggregateField function.id field))
    | _ => return ()

/-- The signature and the frame of a function. -/
def verifyFrame (function : MirFunction) (typeCount : Nat) : Verified Unit := do
  ensure (function.blocks ≠ []) (.error (.emptyFunction function.id))
  (function.signature.parameterTypes ++ [function.signature.result]).forM fun ty =>
    ensure (ty < typeCount) (.error (.invalidType function.id ty))
  let parameters := function.signature.parameterTypes.length
  let modes := function.signature.parameterModes.length
  ensure (parameters = modes) (.error (.functionParameterModeCount function.id parameters modes))
  let required := function.captures.length + parameters
  ensure (required ≤ function.placeCount)
    (.error (.closureFrameTooSmall function.id required function.placeCount))
  function.captures.forM fun capture =>
    ensure (capture.ty < typeCount) (.error (.invalidClosureCaptureType function.id capture.ty))

/-- The defined and used values so far; the moves of a block are forgotten at its
end. -/
structure BlocksVerification where
  defined : Finset ValueId
  used : List ValueId

def verifyBlock (function : MirFunction) (context : ModuleContext) (state : BlocksVerification)
    (entry : BasicBlock × Nat) : Verified BlocksVerification := do
  let (block, position) := entry
  ensure (block.id = position) (.error (.blockIdMismatch function.id position block.id))
  let checked ← runBlock (verifyInstruction function context) block
    ⟨state.defined, state.used, ∅⟩
  let used ← verifyTerminator function block.terminator checked.used
  return ⟨checked.defined, used⟩

def verifyFunction (fuel : Nat) (function : MirFunction) (context : ModuleContext) :
    Verified Unit := do
  verifyFrame function context.typeCount
  let state ← function.blocks.zipIdx.foldlM (verifyBlock function context) ⟨∅, []⟩
  verifyMoveDataflow fuel function
  verifyValueDominance fuel function
  state.used.forM fun value =>
    ensure (value < function.valueCount ∧ value ∈ state.defined)
      (.error (.undefinedValue function.id value))

/-! ## The module -/

def MirModule.context (module : MirModule) (builtins : BuiltinId → Option String) :
    ModuleContext :=
  ⟨module.types.length, module.functions, module.externalImports, builtins⟩

def verifyModuleFunction (fuel : Nat) (module : MirModule) (context : ModuleContext)
    (entry : MirFunction × Nat) : Verified Unit := do
  let (function, position) := entry
  ensure (function.id = position) (.error (.functionIdMismatch position function.id))
  verifyFunction fuel function context
  verifyInstructionSources function (← at_ module.functionDebug position)
  verifyResourceTypes function module.types
  verifyRecordTypes function module.types
  verifyResourceLifetimes fuel function
  verifyTaskLifetimes fuel function

/-- Verification of a module against a builtin catalog. -/
def MirModule.verify (fuel : Nat) (builtins : BuiltinId → Option String) (module : MirModule) :
    Verified Unit := do
  verifyTypeLayouts module.types module.typeLayouts
  verifyVariantLayouts module.types module.variantLayouts
  ensure (module.functions.length = module.functionDebug.length) (.error
    (.functionDebugCount module.functions.length module.functionDebug.length))
  module.functions.zipIdx.forM (verifyModuleFunction fuel module (module.context builtins))
  module.externalImports.zipIdx.forM fun (entry, position) =>
    ensure (entry.id = position) (.error (.externalImportIdMismatch position entry.id))

/-! ## What acceptance means for a function -/

/-- The checks of one function of an accepted module. -/
structure FunctionAccepted (fuel : Nat) (function : MirFunction) (context : ModuleContext) :
    Prop where
  verified : verifyFunction fuel function context = .ok ()
  resources : verifyResourceLifetimes fuel function = .ok ()
  tasks : verifyTaskLifetimes fuel function = .ok ()

theorem functionAccepted_of_verify {module : MirModule} (h : module.verify fuel builtins = .ok ())
    (hfunction : function ∈ module.functions) :
    FunctionAccepted fuel function (module.context builtins) := by
  simp only [MirModule.verify, bind_eq_ok] at h
  obtain ⟨_, -, _, -, _, -, _, hfunctions, -⟩ := h
  obtain ⟨position, hposition⟩ := List.getElem?_of_mem hfunction
  have hmem : (function, position) ∈ module.functions.zipIdx := by
    rw [List.mem_zipIdx_iff_getElem?]
    exact hposition
  have hchecked := forM_eq_ok.mp hfunctions _ hmem
  simp only [verifyModuleFunction, bind_eq_ok] at hchecked
  obtain ⟨_, -, _, hverified, _, -, _, -, _, -, _, -, _, hresources, htasks⟩ := hchecked
  exact ⟨hverified, hresources, htasks⟩

/-- What `verifyFunction` says about its parts. -/
theorem verifyFunction_eq_ok (h : verifyFunction fuel function context = .ok ()) :
    function.blocks ≠ [] ∧
    (∃ state, function.blocks.zipIdx.foldlM (verifyBlock function context) ⟨∅, []⟩ = .ok state) ∧
    verifyMoveDataflow fuel function = .ok () ∧ verifyValueDominance fuel function = .ok () := by
  simp only [verifyFunction, verifyFrame, bind_eq_ok, ensure_eq_ok] at h
  obtain ⟨_, ⟨_, hblocks, -⟩, state, hstate, _, hmoves, _, hdominance, -⟩ := h
  exact ⟨hblocks, ⟨state, hstate⟩, hmoves, hdominance⟩

end RSScript.Mir
