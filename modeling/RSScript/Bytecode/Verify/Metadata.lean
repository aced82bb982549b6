import RSScript.Bytecode.Verify.CallShapes

/-!
# Unit metadata

The side tables of an executable unit: the function maps, the type and variant
layouts, the native signatures and the source map. Each pass indexes its objects
by name only after their field sets were checked, and the native signatures rely
on the function map having been checked before them.
-/

namespace RSScript.Bytecode

open Guards Outcome Graceful

structure BytecodeLimits where
  maxArtifactBytes : Nat := 64 * 1024 * 1024
  maxPayloadBytes : Nat := 48 * 1024 * 1024
  maxImports : Nat := 16384
  maxFunctions : Nat := 65536
  maxRegistersPerFunction : Nat := 1048576
  maxInstructions : Nat := 10000000
  maxTypedFactsBytes : Nat := 16 * 1024 * 1024
  deriving DecidableEq, Repr

/-! ## Function maps -/

/-- A map from names to functions of the unit. -/
def verifyFunctionMap (unit : Fields) (field : String) (functions : List Value)
    (namesMustMatch : Bool) : Checked Unit := do
  let entries ← orInvalid (← index unit field).asObject s!"{field} is not an object"
  entries.forM fun (name, value) => do
    let functionId ← jsonUsize value field
    let function ← orInvalid functions[functionId]?
      s!"{field} `{name}` references missing function {functionId}"
    ensure (namesMustMatch → (function.get "name").bind Value.asStr = some name) <| invalidPayload
      s!"function map `{name}` does not match function metadata"

/-! ## Resource drop functions -/

/-- The registers in which a drop function expects the fields of its resource. -/
def resourceFieldRegisters (typeName : String) (fields : List Value) (locals : Fields) :
    Checked (Finset Nat) :=
  fields.foldlM (fun registers field => do
    let name ← orInvalid ((field.get "name").bind Value.asStr)
      s!"resource type `{typeName}` has invalid field"
    let register ← orInvalid (SortedMap.get name locals)
      s!"resource drop `{typeName}` is missing field register `{name}`"
    return insert (← jsonUsize register "resource field register") registers) ∅

/-- The registers each drop function may read before writing. -/
def resourceDropInputs (unit : Fields) (functions : List Value) :
    Checked (List (Nat × Finset Nat)) := do
  let drops ← orInvalid (← index unit "resource_drop_functions").asObject
    "resource_drop_functions is not an object"
  let types ← orInvalid (← index unit "types").asObject "types is not an object"
  drops.foldlM (fun inputs (typeName, functionId) => do
    let functionId ← jsonUsize functionId "resource drop function"
    let function ← orInvalid (functions[functionId]?.bind Value.asObject)
      s!"resource `{typeName}` references missing drop function {functionId}"
    let ty ← orInvalid ((SortedMap.get typeName types).bind Value.asObject)
      s!"resource type `{typeName}` is missing"
    let fields ← orInvalid ((SortedMap.get "fields" ty).bind Value.asArray)
      s!"resource type `{typeName}` has no fields"
    let locals ← orInvalid ((SortedMap.get "local_regs" function).bind Value.asObject)
      s!"resource drop `{typeName}` has no local register map"
    let registers ← resourceFieldRegisters typeName fields locals
    ensure (SortedMap.get functionId inputs).isNone <| invalidPayload
      s!"drop function {functionId} is shared by multiple resource types"
    return SortedMap.insert functionId registers inputs) []

/-! ## Types and variants -/

/-- One field declaration of a type or a variant case; `names` are the fields
before it. -/
def verifyFieldMetadata (owner : String) (names : Finset String) (field : Value) :
    Checked (Finset String) := do
  let field ← orInvalid field.asObject s!"{owner} field is not an object"
  requireObjectFields field ["name", "type_name"] s!"{owner} field"
  let fieldName ← orInvalid (← index field "name").asStr s!"{owner} field name is not a string"
  let typeName ← orInvalid (← index field "type_name").asStr s!"{owner} field type is not a string"
  ensure (¬(fieldName.isEmpty ∨ typeName.isEmpty ∨ fieldName ∈ names)) <| invalidPayload
    s!"{owner} has an empty or duplicate field `{fieldName}`"
  return insert fieldName names

/-- Each type stands under its own name. -/
def verifyTypeMetadata (unit : Fields) (limits : BytecodeLimits) : Checked Unit := do
  let types ← orInvalid (← index unit "types").asObject "types is not an object"
  ensure (types.length ≤ limits.maxFunctions) <| limitExceeded "type count"
  types.forM fun (key, value) => do
    let ty ← orInvalid value.asObject s!"type `{key}` is not an object"
    requireObjectFields ty ["name", "fields"] s!"type `{key}`"
    let name ← orInvalid (← index ty "name").asStr s!"type `{key}` name is not a string"
    ensure (name = key) <| invalidPayload
      s!"type table key `{key}` does not match metadata name `{name}`"
    let fields ← orInvalid (← index ty "fields").asArray s!"type `{key}` fields is not an array"
    ensure (fields.length ≤ limits.maxRegistersPerFunction) <| limitExceeded "fields per type"
    let _ ← fields.foldlM (verifyFieldMetadata s!"type `{key}`") ∅

/-- The declared cases so far, each with its field names. -/
abbrev VariantCases := List (String × Finset String)

/-- One case of a variant layout; `names` are the cases of this layout before it
and `cases` those of every layout. -/
def verifyVariantCase (key : String) (limits : BytecodeLimits) (state : Finset String × VariantCases)
    (variant : Value) : Checked (Finset String × VariantCases) := do
  let (names, cases) := state
  let variant ← orInvalid variant.asObject s!"variant layout `{key}` case is not an object"
  requireObjectFields variant ["name", "fields"] s!"variant layout `{key}` case"
  let variantName ← orInvalid (← index variant "name").asStr
    s!"variant layout `{key}` case name is not a string"
  ensure (¬(variantName.isEmpty ∨ variantName ∈ names)) <| invalidPayload
    s!"variant layout `{key}` has an empty or duplicate case `{variantName}`"
  let fields ← orInvalid (← index variant "fields").asArray
    s!"variant layout `{key}` case fields is not an array"
  ensure (fields.length ≤ limits.maxRegistersPerFunction) <| limitExceeded "fields per variant"
  let fieldNames ← fields.foldlM (verifyFieldMetadata s!"variant layout `{key}`") ∅
  ensure (SortedMap.get variantName cases).isNone <| invalidPayload
    s!"variant case `{variantName}` occurs in multiple layouts"
  return (insert variantName names, SortedMap.insert variantName fieldNames cases)

def verifyVariantLayout (limits : BytecodeLimits) (cases : VariantCases)
    (entry : String × Value) : Checked VariantCases := do
  let (key, value) := entry
  let layout ← orInvalid value.asObject s!"variant layout `{key}` is not an object"
  requireObjectFields layout ["name", "variants"] s!"variant layout `{key}`"
  let name ← orInvalid (← index layout "name").asStr s!"variant layout `{key}` name is not a string"
  ensure (name = key ∧ ¬name.isEmpty) <| invalidPayload
    s!"variant layout key `{key}` does not match metadata name `{name}`"
  let variants ← orInvalid (← index layout "variants").asArray
    s!"variant layout `{key}` variants is not an array"
  ensure (¬variants.isEmpty ∧ variants.length ≤ limits.maxRegistersPerFunction) <|
    limitExceeded "variants per type"
  let (_, cases) ← variants.foldlM (verifyVariantCase key limits) (∅, cases)
  return cases

/-- The cases of an optional table of variant layouts. -/
def verifyVariantLayoutMetadata (unit : Fields) (limits : BytecodeLimits) :
    Checked (Option VariantCases) :=
  match SortedMap.get "variant_layouts" unit with
  | none => return none
  | some layouts => do
    let layouts ← orInvalid layouts.asObject "variant_layouts is not an object"
    ensure (layouts.length ≤ limits.maxFunctions) <| limitExceeded "variant type count"
    return some (← layouts.foldlM (verifyVariantLayout limits) [])

/-- A `MakeVariant` builds a declared case with its declared fields. -/
def verifyVariantInstruction (functionId ip : Nat) (cases : VariantCases) (instruction : Value) :
    Checked Unit :=
  let place := s!"function {functionId} instruction {ip}"
  match (instruction.get "MakeVariant").bind Value.asObject with
  | none => return ()
  | some fields => do
    let layout ← orInvalid ((SortedMap.get "layout" fields).bind Value.asObject)
      s!"{place} MakeVariant layout is not an object"
    let case ← orInvalid ((SortedMap.get "name" layout).bind Value.asStr)
      s!"{place} MakeVariant layout name is not a string"
    -- `Result` is a primitive and needs no layout.
    if case ∈ ["Ok", "Err"] ∧ (SortedMap.get case cases).isNone then return ()
    else
      let expected ← orInvalid (SortedMap.get case cases)
        s!"{place} constructs undeclared variant `{case}`"
      let names ← orInvalid ((SortedMap.get "field_names" layout).bind Value.asArray)
        s!"{place} MakeVariant field_names is not an array"
      let names ← orInvalid (names.mapM Value.asStr)
        s!"{place} MakeVariant field name is not a string"
      ensure (names.toFinset = expected) <| invalidPayload
        s!"{place} variant `{case}` fields disagree with its declared layout"

/-- Instructions on variants agree with the layouts. -/
def verifyVariantInstructionLayouts (functions : List Value) (cases : Option VariantCases) :
    Checked Unit :=
  match cases with
  | none => return ()
  | some cases =>
    functions.zipIdx.forM fun (function, functionId) => do
      let code ← orInvalid ((function.get "code").bind Value.asArray)
        s!"function {functionId} code is not an array"
      code.zipIdx.forM fun (instruction, ip) =>
        verifyVariantInstruction functionId ip cases instruction

/-! ## Native signatures -/

/-- A JSON value that is a nonempty string. -/
def isName (value : Value) : Bool := value.asStr.any fun text => !text.isEmpty

/-- A signature belongs to a function with as many parameters. -/
def verifyNativeSignature (functions : List Value) (functionIds : Fields)
    (entry : String × Value) : Checked Unit := do
  let (name, value) := entry
  let signature ← orInvalid value.asObject s!"native signature `{name}` is not an object"
  requireObjectFields signature ["params", "return_type"] s!"native signature `{name}`"
  let params ← orInvalid (← index signature "params").asArray
    s!"native signature `{name}` params is not an array"
  ensure (params.all isName) <| invalidPayload
    s!"native signature `{name}` has an invalid parameter type"
  let returnType ← index signature "return_type"
  ensure (returnType.isNull ∨ isName returnType) <| invalidPayload
    s!"native signature `{name}` has an invalid return type"
  let functionId ← jsonUsize (← index functionIds name) "function id"
  let function ← at_ functions functionId
  let expected ← orInvalid (function.get "params") s!"function `{name}` is missing params"
  requireArity functionId 0 "native signature" (← jsonUsize expected "params") params.length

def verifyNativeSignatures (unit : Fields) (functions : List Value) (limits : BytecodeLimits) :
    Checked Unit := do
  let signatures ← orInvalid (← index unit "native_signatures").asObject
    "native_signatures is not an object"
  ensure (signatures.length ≤ limits.maxFunctions) <| limitExceeded "native signature count"
  let functionIds ← orInvalid (← index unit "function_ids").asObject "function_ids is not an object"
  ensure ((keys signatures).toFinset = (keys functionIds).toFinset) <| invalidPayload
    "native signature names differ from the public function map"
  signatures.forM (verifyNativeSignature functions functionIds)

/-! ## Source map -/

/-- One entry of the source map; `mapped` are the instructions before it. -/
def verifySourceMapEntry (functions : List Value) (mapped : Finset (Nat × Nat))
    (entry : Value × Nat) : Checked (Finset (Nat × Nat)) := do
  let (entry, position) := entry
  let place := s!"source_map entry {position}"
  let entry ← orInvalid entry.asObject s!"{place} is not an object"
  requireObjectFields entry ["function", "instruction", "file", "line", "column", "length"] place
  let function ← jsonUsize (← index entry "function") "source map function"
  let instruction ← jsonUsize (← index entry "instruction") "source map instruction"
  let code ← orInvalid ((functions[function]?.bind fun function => function.get "code").bind
    Value.asArray) s!"{place} references missing function {function}"
  ensure (instruction < code.length) <| invalidPayload
    s!"{place} references missing instruction {instruction}"
  ensure ((function, instruction) ∉ mapped) <| invalidPayload
    s!"{place} duplicates function {function} instruction {instruction}"
  ensure (isName (← index entry "file")) <| invalidPayload s!"{place} has invalid file"
  ["line", "column", "length"].forM fun field => do
    let _ ← jsonUsize (← index entry field) field
  return insert (function, instruction) mapped

/-- At most one entry for each instruction. -/
def verifySourceMap (unit : Fields) (functions : List Value) (totalInstructions : Nat) :
    Checked Unit :=
  match SortedMap.get "source_map" unit with
  | none => return ()
  | some entries => do
    let entries ← orInvalid entries.asArray "source_map is not an array"
    ensure (entries.length ≤ totalInstructions) <| limitExceeded "source map entries"
    let _ ← entries.zipIdx.foldlM (verifySourceMapEntry functions) ∅

/-! ## The checks always answer -/

section Graceful

variable {limits : BytecodeLimits}

theorem verifyFunctionMap_graceful (hfield : SortedMap.get field unit = some value) :
    Graceful (verifyFunctionMap unit field functions namesMustMatch) := by
  refine (Graceful.index hfield).bind fun _ _ => ?_
  refine Graceful.valid fun entries _ => Graceful.forM fun entry _ => ?_
  exact valid fun _ _ => valid fun _ _ =>
    ensure _

private theorem resourceFieldRegisters_graceful :
    Graceful (resourceFieldRegisters typeName fields locals) :=
  foldlM fun _ _ _ => valid fun _ _ =>
    valid fun _ _ => valid fun _ _ =>
      pure _

theorem resourceDropInputs_graceful
    (hdrops : SortedMap.get "resource_drop_functions" unit = some drops)
    (htypes : SortedMap.get "types" unit = some types) :
    Graceful (resourceDropInputs unit functions) := by
  refine (Graceful.index hdrops).bind fun _ _ => Graceful.valid fun _ _ => ?_
  refine (Graceful.index htypes).bind fun _ _ => Graceful.valid fun _ _ => ?_
  refine foldlM fun inputs entry _ => ?_
  refine valid fun _ _ => valid fun _ _ => ?_
  refine valid fun _ _ => valid fun _ _ => ?_
  refine valid fun _ _ => ?_
  refine (resourceFieldRegisters_graceful).bind fun _ _ => ?_
  exact ensured fun _ _ => pure _

theorem verifyFieldMetadata_graceful : Graceful (verifyFieldMetadata owner names field) := by
  refine object fun object hfields => ?_
  refine (hfields "name" (by simp)).member fun _ => ?_
  refine (hfields "type_name" (by simp)).member fun _ => ?_
  exact ensured fun _ _ => pure _

variable (limits : BytecodeLimits)

theorem verifyTypeMetadata_graceful (htypes : SortedMap.get "types" unit = some types) :
    Graceful (verifyTypeMetadata unit limits) := by
  refine (Graceful.index htypes).bind fun _ _ => Graceful.valid fun _ _ => ?_
  refine Graceful.ensured fun _ _ => Graceful.forM fun entry _ => ?_
  refine object fun object hfields => ?_
  refine (hfields "name" (by simp)).member fun _ => ensured fun _ _ => ?_
  refine (hfields "fields" (by simp)).member fun _ => ensured fun _ _ => ?_
  exact (foldlM fun _ _ _ => verifyFieldMetadata_graceful).bind
    fun _ _ => pure _

theorem verifyVariantCase_graceful : Graceful (verifyVariantCase key limits state variant) := by
  refine object fun object hfields => ?_
  refine (hfields "name" (by simp)).member fun _ => ensured fun _ _ => ?_
  refine (hfields "fields" (by simp)).member fun _ => ensured fun _ _ => ?_
  refine (foldlM fun _ _ _ => verifyFieldMetadata_graceful).bind fun _ _ => ?_
  exact ensured fun _ _ => pure _

theorem verifyVariantLayout_graceful : Graceful (verifyVariantLayout limits cases entry) := by
  refine object fun object hfields => ?_
  refine (hfields "name" (by simp)).member fun _ => ensured fun _ _ => ?_
  refine (hfields "variants" (by simp)).member fun _ => ensured fun _ _ => ?_
  exact (foldlM fun _ _ _ => verifyVariantCase_graceful _).bind
    fun _ _ => pure _

theorem verifyVariantLayoutMetadata_graceful :
    Graceful (verifyVariantLayoutMetadata unit limits) := by
  unfold verifyVariantLayoutMetadata
  split
  · exact pure _
  · refine valid fun _ _ => ensured fun _ _ => ?_
    exact (foldlM fun _ _ _ => verifyVariantLayout_graceful _).bind
      fun _ _ => pure _

private theorem verifyVariantInstruction_graceful :
    Graceful (verifyVariantInstruction functionId ip cases instruction) := by
  unfold verifyVariantInstruction
  split
  · exact pure ()
  · refine valid fun _ _ => valid fun _ _ => ?_
    split
    · exact pure ()
    · refine valid fun _ _ => valid fun _ _ => ?_
      exact valid fun _ _ => ensure _

theorem verifyVariantInstructionLayouts_graceful :
    Graceful (verifyVariantInstructionLayouts functions cases) := by
  unfold verifyVariantInstructionLayouts
  split
  · exact pure ()
  · refine forM fun _ _ => valid fun _ _ => ?_
    exact forM fun _ _ => verifyVariantInstruction_graceful

/-- The functions an accepted function map names are there. -/
theorem lt_of_verifyFunctionMap (h : verifyFunctionMap unit field functions namesMustMatch = .ok ())
    (hfield : SortedMap.get field unit = some value) (hentries : value.asObject = some entries)
    (hentry : (name, entry) ∈ entries) (hid : entry.asU64 = some functionId) :
    functionId < functions.length := by
  obtain ⟨value', hvalue', h⟩ := bind_eq_ok.mp h
  obtain rfl := Option.some.inj (hfield.symm.trans (index_eq_ok.mp hvalue'))
  obtain ⟨entries', hentries', h⟩ := bind_eq_ok.mp h
  obtain rfl := Option.some.inj (hentries.symm.trans (orInvalid_eq_ok.mp hentries'))
  obtain ⟨functionId', hid', h⟩ := bind_eq_ok.mp (forM_eq_ok.mp h (name, entry) hentry)
  obtain rfl := Option.some.inj (hid.symm.trans (jsonUsize_eq_ok.mp hid'))
  obtain ⟨function, hfunction, -⟩ := bind_eq_ok.mp h
  exact (List.getElem?_eq_some_iff.mp (orInvalid_eq_ok.mp hfunction)).1

/-- A signature may index the function map and the functions because its name is
in the map and the map was checked. -/
theorem verifyNativeSignature_graceful
    (hname : entry.1 ∈ keys functionIds)
    (hids : ∀ name value functionId, (name, value) ∈ functionIds → value.asU64 = some functionId →
      functionId < functions.length) :
    Graceful (verifyNativeSignature functions functionIds entry) := by
  refine Graceful.object fun object hfields => ?_
  refine (hfields "params" (by simp)).member fun _ => Graceful.ensured fun _ _ => ?_
  refine (hfields _ (by simp)).bind fun _ _ => Graceful.ensured fun _ _ => ?_
  obtain ⟨value, hvalue⟩ := exists_get_of_mem_keys hname
  refine (Graceful.index hvalue).bind fun found hfound => ?_
  obtain rfl := Option.some.inj (hvalue.symm.trans (index_eq_ok.mp hfound))
  refine Graceful.valid fun functionId hid => ?_
  have hlt := hids entry.1 value functionId (SortedMap.get_mem hvalue) (jsonUsize_eq_ok.mp hid)
  refine (Graceful.at_ hlt).bind fun _ _ => Graceful.valid fun _ _ => ?_
  exact Graceful.valid fun _ _ => requireArity_graceful

theorem verifyNativeSignatures_graceful
    (hsignatures : SortedMap.get "native_signatures" unit = some signatures)
    (hids : SortedMap.get "function_ids" unit = some functionIds)
    (hmap : verifyFunctionMap unit "function_ids" functions true = .ok ()) :
    Graceful (verifyNativeSignatures unit functions limits) := by
  refine (Graceful.index hsignatures).bind fun _ _ => Graceful.valid fun _ _ => ?_
  refine Graceful.ensured fun _ _ => ?_
  refine (Graceful.index hids).bind fun ids hfound => ?_
  obtain rfl := Option.some.inj (hids.symm.trans (index_eq_ok.mp hfound))
  refine Graceful.valid fun entries hentries => ?_
  refine Graceful.ensured fun _ hkeys => Graceful.forM fun entry hentry => ?_
  refine verifyNativeSignature_graceful ?_ fun name value functionId hmem hid => ?_
  · have hname : entry.1 ∈ (keys entries).toFinset := by
      rw [← ensure_eq_ok.mp hkeys, List.mem_toFinset]
      exact List.mem_map_of_mem hentry
    exact List.mem_toFinset.mp hname
  · exact lt_of_verifyFunctionMap hmap hids (orInvalid_eq_ok.mp hentries) hmem hid

theorem verifySourceMapEntry_graceful : Graceful (verifySourceMapEntry functions mapped entry) := by
  refine object fun object hfields => ?_
  refine (hfields "function" (by simp)).member fun _ => ?_
  refine (hfields "instruction" (by simp)).member fun _ => valid fun _ _ => ?_
  refine ensured fun _ _ => ensured fun _ _ => ?_
  refine (hfields _ (by simp)).bind fun _ _ => ensured fun _ _ => ?_
  refine (forM fun field hfield => ?_).bind fun _ _ => pure _
  have hexpected : field ∈ ["function", "instruction", "file", "line", "column", "length"] := by
    tauto
  exact (hfields field hexpected).member fun _ => pure _

theorem verifySourceMap_graceful : Graceful (verifySourceMap unit functions totalInstructions) := by
  unfold verifySourceMap
  split
  · exact pure ()
  · refine valid fun _ _ => ensured fun _ _ => ?_
    exact (foldlM fun _ _ _ => verifySourceMapEntry_graceful).bind
      fun _ _ => pure _

end Graceful

end RSScript.Bytecode
