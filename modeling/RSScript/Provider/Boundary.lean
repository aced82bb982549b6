import RSScript.Lib.Guards
import RSScript.Provider.ResourceTable
import RSScript.Provider.Values

/-!
# The provider boundary

Arguments of a provider call are converted to wire values and its results back,
both along the types of the linked signature. A value is the finite tree it unfolds
to. A value that contains itself has none, so the check for cycles shows in one place
only: it also refuses a list, map, struct or variant at a qualified type.
-/

namespace RSScript.Abi

/-- The type without its qualifiers. -/
def WireType.unqualified : WireType → WireType
  | .qualified _ value => value.unqualified
  | ty => ty

def WireType.isQualified : WireType → Bool
  | .qualified _ _ => true
  | _ => false

/-- The name records of the type carry. -/
def WireType.wireTypeName : WireType → String
  | .named (some package) name _ => s!"{package}.{name}"
  | .named none name _ => name
  | _ => ""

end RSScript.Abi

namespace RSScript.Provider

open Guards RSScript.Abi

/-- A message, or a value that is no key, whose rendering is not modelled. -/
inductive EvalError where
  | runtime (message : String)
  | unsupportedMapKey (value : VmValue)

abbrev Evaluated := Except EvalError

def failure {α : Type} (message : String) : Evaluated α := .error (.runtime message)

/-- An identity of the linked signature. -/
def identity {α : Type} (what : String) : Option α → Evaluated α
  | some id => .ok id
  | none => failure s!"linked Provider signature is missing {what} identity"

/-- The case of a result by its name, with the type of its payload. -/
def resultCase (name : String) (ok error : WireType) : Evaluated (WireVariantId × WireType) :=
  if name = "Ok" then .ok (WireCallTypeTable.resultOkVariant, ok)
  else if name = "Err" then .ok (WireCallTypeTable.resultErrVariant, error)
  else failure "Result value has an unknown variant"

/-- The values with a node of their own (`vm_value_node_id`), but for managed cells, which are
opened before a qualifier is looked at. -/
def VmValue.hasNode : VmValue → Bool
  | .list _ | .deque _ | .map _ | .struct _ _ | .variant _ _ => true
  | _ => false

variable (types : WireCallTypeTable)

/-! ## To the provider -/

mutual

/-- An argument on its way to a provider. -/
def wireValueFromVmValue (value : VmValue) (expected : WireType) : Evaluated WireValue :=
  -- below a qualifier the same node is visited once more while it is active
  if value.hasNode ∧ expected.isQualified then
    failure "cyclic value cannot cross a Provider wire boundary"
  else
  match value, expected.unqualified with
  | .unit, .unit => .ok .unit
  | .bool value, .bool => .ok (.bool value)
  | .int value, .int _ _ => .ok (.int value)
  | .float bits, .float _ => .ok (.float bits)
  | .string text, .string => .ok (.string text)
  | .char value, .char => .ok (.char value)
  | .bytes value, .bytes => .ok (.bytes value)
  | .managed value, _ => wireValueFromVmValue value expected
  | .native typeName id, .resource name =>
    if typeName = name then do
      let resourceType ← identity "a resource type" (types.resourceTypeId (.resource name))
      return .resource ((ResourceHandle.fromNativeId id).toWire resourceType)
    else failure "VM value does not match its linked Provider wire type"
  | .list values, .list element | .deque values, .list element => do
    let elementType ← identity "a list element" (types.typeId element)
    return .list elementType (← wireElements values element)
  | .list values, .tuple elements | .deque values, .tuple elements => do
    ensure (values.length = elements.length)
      (.runtime "Provider tuple argument length does not match its linked signature")
    return .tuple (← wireTuple values elements)
  | .map entries, .map key value => do
    let keyType ← identity "a map key" (types.typeId key)
    let valueType ← identity "a map value" (types.typeId value)
    return .map keyType valueType (← wireEntries entries key value)
  | .struct layout fields, .named package name arguments => do
    let named := WireType.named package name arguments
    match types.recordLayout named with
    | none => failure "linked Provider record layout is unavailable"
    | some record => do
      ensure (layout.name = named.wireTypeName ∧
          (layout.fieldNames.zip fields).length = record.fields.length)
        (.runtime "Provider record argument does not match its linked layout")
      let values ← wireFields "Provider record field order does not match its linked layout"
        layout.fieldNames fields record.fields
      return .record (← identity "a record" (types.typeId named)) values
  | .variant layout fields, .result ok error => do
    let result := WireType.result ok error
    let (variantId, payloadType) ← resultCase layout.name ok error
    match layout.slot "value" with
    | none => failure "Result value is missing its payload"
    | some slot => do
      let (typeId, payload) ← wirePayload
        (identity "a result" (types.typeId result)) fields slot payloadType
      return .variant typeId variantId (some payload)
  | .variant layout fields, .named package name arguments => do
    let named := WireType.named package name arguments
    match types.variantLayout named with
    | none => failure "linked Provider variant layout is unavailable"
    | some variants =>
      match variants.variants.findIdx? fun case => case.name = layout.name with
      | none => failure "Provider variant is not declared by its linked layout"
      | some index => do
        let declared := (variants.variants[index]?.map WireVariantCaseLayout.fields).getD []
        ensure ((layout.fieldNames.zip fields).length = declared.length)
          (.runtime "Provider variant argument does not match its linked layout")
        let values ← wireFields "Provider variant field order does not match its linked layout"
          layout.fieldNames fields declared
        let payload := match values with
          | [] => none
          | [value] => some value
          | values => some (.tuple values)
        return .variant (← identity "a variant" (types.typeId named)) ⟨.ofNat index⟩ payload
  | .optionSome value, .option element => do
    let typeId ← identity "an option" (types.typeId (.option element))
    return .variant typeId WireCallTypeTable.optionSomeVariant
      (some (← wireValueFromVmValue value element))
  | .optionNone, .option element => do
    let typeId ← identity "an option" (types.typeId (.option element))
    return .variant typeId WireCallTypeTable.optionNoneVariant none
  | _, _ => failure "VM value does not match its linked Provider wire type"

def wireElements (values : List VmValue) (element : WireType) : Evaluated (List WireValue) :=
  match values with
  | [] => .ok []
  | value :: values => do
    let value ← wireValueFromVmValue value element
    return value :: (← wireElements values element)

def wireTuple (values : List VmValue) (elements : List WireType) : Evaluated (List WireValue) :=
  match values, elements with
  | value :: values, element :: elements => do
    let value ← wireValueFromVmValue value element
    return value :: (← wireTuple values elements)
  | _, _ => .ok []

def wireFields (mismatch : String) (names : List String) (fields : List VmValue)
    (layouts : List WireRecordFieldLayout) : Evaluated (List WireValue) :=
  match names, fields, layouts with
  | name :: names, field :: fields, layout :: layouts => do
    ensure (name = layout.name) (.runtime mismatch)
    let value ← wireValueFromVmValue field layout.ty
    return value :: (← wireFields mismatch names fields layouts)
  | _, _, _ => .ok []

def wireEntries (entries : List (VmValue × VmValue)) (key value : WireType) :
    Evaluated (List (WireValue × WireValue)) :=
  match entries with
  | [] => .ok []
  | entry :: entries => do
    let entry ← wireEntry entry key value
    return entry :: (← wireEntries entries key value)

def wireEntry (entry : VmValue × VmValue) (key value : WireType) :
    Evaluated (WireValue × WireValue) :=
  match entry with
  | (entryKey, entryValue) => do
    let first ← wireValueFromVmValue entryKey key
    return (first, ← wireValueFromVmValue entryValue value)

/-- The field at a slot, behind the identity of its type. -/
def wirePayload (typeId : Evaluated WireTypeId) (fields : List VmValue) (slot : Nat)
    (expected : WireType) : Evaluated (WireTypeId × WireValue) :=
  match fields, slot with
  | [], _ => failure "Result value is missing its payload"
  | field :: _, 0 => do
    let typeId ← typeId
    return (typeId, ← wireValueFromVmValue field expected)
  | _ :: fields, slot + 1 => wirePayload typeId fields slot expected

end

/-! ## From the provider -/

/-- The identity a result has against the one of the linked signature. -/
def expectIdentity {α : Type} [DecidableEq α] (what wrong : String) (found : α)
    (expected : Option α) : Evaluated Unit := do
  let id ← identity what expected
  ensure (found = id) (.runtime wrong)

mutual

/-- A result on its way back. -/
def vmValueFromWireValue (value : WireValue) (expected : WireType) : Evaluated VmValue :=
  match value, expected.unqualified with
  | .unit, .unit => .ok .unit
  | .bool value, .bool => .ok (.bool value)
  | .int value, .int _ _ => .ok (.int value)
  | .float bits, .float _ => .ok (.float bits)
  | .string text, .string => .ok (.string text)
  | .char value, .char => .ok (.char value)
  | .bytes value, .bytes => .ok (.bytes value)
  | .resource handle, .resource name => do
    expectIdentity "a resource type" "Provider resource result has the wrong type identity"
      handle.resourceType (types.resourceTypeId (.resource name))
    return .native name (ResourceHandle.fromWire handle).toNativeId
  | .list elementType values, .list element => do
    expectIdentity "a list element" "Provider list result has the wrong element identity"
      elementType (types.typeId element)
    return .list (← vmElements values element)
  | .tuple values, .tuple elements => do
    ensure (values.length = elements.length)
      (.runtime "Provider tuple result length does not match its linked signature")
    return .list (← vmTuple values elements)
  | .map keyType valueType entries, .map key value => do
    let wrong := "Provider map result has the wrong type identity"
    expectIdentity "a map key" wrong keyType (types.typeId key)
    expectIdentity "a map value" wrong valueType (types.typeId value)
    return .map (← vmEntries entries key value [])
  | .variant typeId variantId none, .option element => do
    let wrong := "Provider option result has the wrong variant identity"
    expectIdentity "an option" wrong typeId (types.typeId (.option element))
    ensure (variantId = WireCallTypeTable.optionNoneVariant) (.runtime wrong)
    return .optionNone
  | .variant typeId variantId (some payload), .option element => do
    let wrong := "Provider option result has the wrong variant identity"
    expectIdentity "an option" wrong typeId (types.typeId (.option element))
    ensure (variantId = WireCallTypeTable.optionSomeVariant) (.runtime wrong)
    return .optionSome (← vmValueFromWireValue payload element)
  | .variant typeId variantId (some payload), .result ok error => do
    expectIdentity "a result" "Provider result has the wrong type identity" typeId
      (types.typeId (.result ok error))
    if variantId = WireCallTypeTable.resultOkVariant then
      return .variant ⟨"Ok", ["value"]⟩ [← vmValueFromWireValue payload ok]
    else if variantId = WireCallTypeTable.resultErrVariant then
      return .variant ⟨"Err", ["value"]⟩ [← vmValueFromWireValue payload error]
    else failure "Provider result has the wrong variant identity"
  | _, _ => failure "Provider wire result does not match its linked signature"

def vmElements (values : List WireValue) (element : WireType) : Evaluated (List VmValue) :=
  match values with
  | [] => .ok []
  | value :: values => do
    let value ← vmValueFromWireValue value element
    return value :: (← vmElements values element)

def vmTuple (values : List WireValue) (elements : List WireType) : Evaluated (List VmValue) :=
  match values, elements with
  | value :: values, element :: elements => do
    let value ← vmValueFromWireValue value element
    return value :: (← vmTuple values elements)
  | _, _ => .ok []

/-- Collect the entries of a map behind those before them. -/
def vmEntries (entries : List (WireValue × WireValue)) (key value : WireType)
    (collected : List (VmValue × VmValue)) : Evaluated (List (VmValue × VmValue)) :=
  match entries with
  | [] => .ok collected
  | entry :: entries => do
    let (entryKey, entryValue) ← vmEntry entry key value
    vmEntries entries key value (VmValue.insertEntry entryKey entryValue collected)

def vmEntry (entry : WireValue × WireValue) (key value : WireType) :
    Evaluated (VmValue × VmValue) :=
  match entry with
  | (entryKey, entryValue) => do
    let found ← vmValueFromWireValue entryKey key
    match found.mapKeyFromValue with
    | none => .error (.unsupportedMapKey found)
    | some (frozen, _) => return (frozen, ← vmValueFromWireValue entryValue value)

end

/-! ## What comes back -/

mutual

/-- No part of the value stands at a named type, a result carries its payload and nothing else,
the keys of maps are within the bounds of keys, and there is no deque. -/
def VmValue.Returnable (value : VmValue) (expected : WireType) : Prop :=
  match value, expected.unqualified with
  | .managed value, _ => value.Returnable expected
  | .list values, .list element => AllReturnable values element
  | .list values, .tuple elements => TupleReturnable values elements
  | .map entries, .map key value => EntriesReturnable entries key value
  | .variant layout fields, .result ok error =>
    layout.fieldNames = ["value"] ∧
      AllReturnable fields (if layout.name = "Ok" then ok else error)
  | .optionSome value, .option element => value.Returnable element
  | .deque _, _ => False
  | _, .named _ _ _ => False
  | _, _ => True

def AllReturnable : List VmValue → WireType → Prop
  | [], _ => True
  | value :: values, element => value.Returnable element ∧ AllReturnable values element

def TupleReturnable : List VmValue → List WireType → Prop
  | value :: values, element :: elements =>
    value.Returnable element ∧ TupleReturnable values elements
  | _, _ => True

def EntriesReturnable : List (VmValue × VmValue) → WireType → WireType → Prop
  | [], _, _ => True
  | entry :: entries, key, value =>
    EntryReturnable entry key value ∧ EntriesReturnable entries key value

def EntryReturnable : VmValue × VmValue → WireType → WireType → Prop
  | (entryKey, entryValue), key, value =>
    entryKey.Returnable key ∧ (entryKey.isHashable 0 0).isSome = true ∧ entryValue.Returnable value

end

variable {types}

variable {α : Type}

@[simp] theorem identity_eq_ok {what : String} {found : Option α} {id : α} :
    identity what found = .ok id ↔ found = some id := by
  cases found <;> simp [identity, failure]

@[simp] theorem failure_ne_ok {message : String} {a : α} : failure message ≠ .ok a := by
  simp [failure]

theorem ite_failure_eq_ok {p : Prop} [Decidable p] {result : Evaluated α} :
    (if p then failure message else result) = .ok a ↔ ¬p ∧ result = .ok a := by
  split_ifs with hp <;> simp [hp]

@[simp] theorem expectIdentity_eq_ok [DecidableEq α] {expected : Option α} :
    expectIdentity what wrong found expected = .ok u ↔ expected = some found := by
  simp only [expectIdentity, bind_eq_ok, identity_eq_ok, ensure_eq_ok]
  constructor
  · rintro ⟨_, h, rfl⟩
    exact h
  · intro h
    exact ⟨found, h, rfl⟩

/-! ## What goes out -/

variable {layout : TypeLayout} {slot : Nat}

theorem wire_list {values : List VmValue}
    (h : wireValueFromVmValue types (.list values) expected = .ok wire) :
    (∃ element typeId wires, expected.unqualified = .list element ∧
      types.typeId element = some typeId ∧ wireElements types values element = .ok wires ∧
      wire = .list typeId wires) ∨
    ∃ elements wires, expected.unqualified = .tuple elements ∧ values.length = elements.length ∧
      wireTuple types values elements = .ok wires ∧ wire = .tuple wires := by
  unfold wireValueFromVmValue at h
  obtain ⟨-, h⟩ := ite_failure_eq_ok.mp h
  cases hty : expected.unqualified with
  | list element =>
    simp only [hty, bind_eq_ok, identity_eq_ok, pure_eq_ok] at h
    obtain ⟨typeId, htypeId, wires, hwires, rfl⟩ := h
    exact .inl ⟨element, typeId, wires, rfl, htypeId, hwires, rfl⟩
  | tuple elements =>
    simp only [hty, bind_eq_ok, ensure_eq_ok, pure_eq_ok, exists_const] at h
    obtain ⟨hlength, wires, hwires, rfl⟩ := h
    exact .inr ⟨elements, wires, rfl, hlength, hwires, rfl⟩
  | _ => simp [hty] at h

theorem wire_map (h : wireValueFromVmValue types (.map entries) expected = .ok wire) :
    ∃ key value keyId valueId wires, expected.unqualified = .map key value ∧
      types.typeId key = some keyId ∧ types.typeId value = some valueId ∧
      wireEntries types entries key value = .ok wires ∧ wire = .map keyId valueId wires := by
  unfold wireValueFromVmValue at h
  obtain ⟨-, h⟩ := ite_failure_eq_ok.mp h
  cases hty : expected.unqualified with
  | map key value =>
    simp only [hty, bind_eq_ok, identity_eq_ok, pure_eq_ok] at h
    obtain ⟨keyId, hkeyId, valueId, hvalueId, wires, hwires, rfl⟩ := h
    exact ⟨key, value, keyId, valueId, wires, rfl, hkeyId, hvalueId, hwires, rfl⟩
  | _ => simp [hty] at h

theorem wire_optionSome {value : VmValue}
    (h : wireValueFromVmValue types (.optionSome value) expected = .ok wire) :
    ∃ element typeId payload, expected.unqualified = .option element ∧
      types.typeId (.option element) = some typeId ∧
      wireValueFromVmValue types value element = .ok payload ∧
      wire = .variant typeId WireCallTypeTable.optionSomeVariant (some payload) := by
  unfold wireValueFromVmValue at h
  obtain ⟨-, h⟩ := ite_failure_eq_ok.mp h
  cases hty : expected.unqualified with
  | option element =>
    simp only [hty, bind_eq_ok, identity_eq_ok, pure_eq_ok] at h
    obtain ⟨typeId, htypeId, payload, hpayload, rfl⟩ := h
    exact ⟨element, typeId, payload, rfl, htypeId, hpayload, rfl⟩
  | _ => simp [hty] at h

/-- A struct crosses at a named type only, as a record. -/
theorem wire_struct (h : wireValueFromVmValue types (.struct layout fields) expected = .ok wire) :
    ∃ package name arguments typeId wires, expected.unqualified = .named package name arguments ∧
      wire = .record typeId wires := by
  unfold wireValueFromVmValue at h
  obtain ⟨-, h⟩ := ite_failure_eq_ok.mp h
  cases hty : expected.unqualified with
  | named package name arguments =>
    simp only [hty] at h
    split at h
    · simp at h
    · simp only [bind_eq_ok, ensure_eq_ok, identity_eq_ok, pure_eq_ok, exists_const] at h
      obtain ⟨-, wires, -, typeId, -, rfl⟩ := h
      exact ⟨package, name, arguments, typeId, wires, rfl, rfl⟩
  | _ => simp [hty] at h

theorem wirePayload_eq_ok {typeId : Evaluated WireTypeId} {payload : WireTypeId × WireValue}
    (h : wirePayload types typeId fields slot expected = .ok payload) :
    ∃ field, fields[slot]? = some field ∧ typeId = .ok payload.1 ∧
      wireValueFromVmValue types field expected = .ok payload.2 := by
  induction fields generalizing slot with
  | nil => simp [wirePayload] at h
  | cons field fields ih =>
    cases slot with
    | zero =>
      simp only [wirePayload, bind_eq_ok, pure_eq_ok] at h
      obtain ⟨found, hfound, value, hvalue, rfl⟩ := h
      exact ⟨field, rfl, hfound, hvalue⟩
    | succ slot =>
      obtain ⟨found, hfound, hrest⟩ := ih h
      exact ⟨found, hfound, hrest⟩

/-- A variant is one of a result, with the field `value` as its payload, or one of a named type. -/
theorem wire_variant (h : wireValueFromVmValue types (.variant layout fields) expected = .ok wire) :
    (∃ ok error variantId ty slot field typeId payload, expected.unqualified = .result ok error ∧
      (layout.name = "Ok" ∧ variantId = WireCallTypeTable.resultOkVariant ∧ ty = ok ∨
        layout.name = "Err" ∧ variantId = WireCallTypeTable.resultErrVariant ∧ ty = error) ∧
      layout.slot "value" = some slot ∧ fields[slot]? = some field ∧
      types.typeId (.result ok error) = some typeId ∧
      wireValueFromVmValue types field ty = .ok payload ∧
      wire = .variant typeId variantId (some payload)) ∨
    ∃ package name arguments typeId variantId payload,
      expected.unqualified = .named package name arguments ∧
      wire = .variant typeId variantId payload := by
  unfold wireValueFromVmValue at h
  obtain ⟨-, h⟩ := ite_failure_eq_ok.mp h
  cases hty : expected.unqualified with
  | result ok error =>
    simp only [hty] at h
    obtain ⟨⟨variantId, ty⟩, hcase, h⟩ := bind_eq_ok.mp h
    dsimp only at h
    split at h
    · simp at h
    · rename_i slot hslot
      obtain ⟨⟨typeId, payload⟩, hpayload, hwire⟩ := bind_eq_ok.mp h
      obtain ⟨field, hfield, htypeId, hvalue⟩ := wirePayload_eq_ok hpayload
      refine .inl ⟨ok, error, variantId, ty, slot, field, typeId, payload, rfl, ?_, hslot, hfield,
        identity_eq_ok.mp htypeId, hvalue, (pure_eq_ok.mp hwire).symm⟩
      unfold resultCase at hcase
      split at hcase
      · cases hcase
        exact .inl ⟨by assumption, rfl, rfl⟩
      · split at hcase
        · cases hcase
          exact .inr ⟨by assumption, rfl, rfl⟩
        · simp at hcase
  | named package name arguments =>
    simp only [hty] at h
    split at h
    · simp at h
    · split at h
      · simp at h
      · simp only [bind_eq_ok, ensure_eq_ok, identity_eq_ok, pure_eq_ok, exists_const] at h
        obtain ⟨-, wires, -, typeId, -, rfl⟩ := h
        exact .inr ⟨package, name, arguments, typeId, _, _, rfl, rfl⟩
  | _ => simp [hty] at h

/-! ## Results have no managed cells -/

mutual

theorem vmValueFromWireValue_frozen : (wire : WireValue) → (expected : WireType) →
    (value : VmValue) → vmValueFromWireValue types wire expected = .ok value →
    value.snapshotKeyValue = value
  | .list _ wires, expected, value, h => by
    unfold vmValueFromWireValue at h
    cases hty : expected.unqualified with
    | list element =>
      simp only [hty, bind_eq_ok, pure_eq_ok] at h
      obtain ⟨_, -, values, hvalues, rfl⟩ := h
      rw [VmValue.snapshotKeyValue, vmElements_frozen wires element values hvalues]
    | _ => simp [hty] at h
  | .tuple wires, expected, value, h => by
    unfold vmValueFromWireValue at h
    cases hty : expected.unqualified with
    | tuple elements =>
      simp only [hty, bind_eq_ok, pure_eq_ok] at h
      obtain ⟨_, -, values, hvalues, rfl⟩ := h
      rw [VmValue.snapshotKeyValue, vmTuple_frozen wires elements values hvalues]
    | _ => simp [hty] at h
  | .map _ _ wires, expected, value, h => by
    unfold vmValueFromWireValue at h
    cases hty : expected.unqualified with
    | map keyType valueType =>
      simp only [hty, bind_eq_ok, pure_eq_ok] at h
      obtain ⟨_, -, _, -, entries, hentries, rfl⟩ := h
      rw [VmValue.snapshotKeyValue, vmEntries_frozen wires keyType valueType [] entries rfl hentries]
    | _ => simp [hty] at h
  | .variant _ _ (some payload), expected, value, h => by
    unfold vmValueFromWireValue at h
    cases hty : expected.unqualified with
    | option element =>
      simp only [hty, bind_eq_ok, pure_eq_ok] at h
      obtain ⟨_, -, _, -, found, hfound, rfl⟩ := h
      rw [VmValue.snapshotKeyValue, vmValueFromWireValue_frozen payload element found hfound]
    | result ok error =>
      simp only [hty] at h
      obtain ⟨_, -, h⟩ := bind_eq_ok.mp h
      split at h
      · obtain ⟨found, hfound, heq⟩ := bind_eq_ok.mp h
        rw [← pure_eq_ok.mp heq, VmValue.snapshotKeyValue, VmValue.snapshotAll, VmValue.snapshotAll,
          vmValueFromWireValue_frozen payload ok found hfound]
      · split at h
        · obtain ⟨found, hfound, heq⟩ := bind_eq_ok.mp h
          rw [← pure_eq_ok.mp heq, VmValue.snapshotKeyValue, VmValue.snapshotAll,
            VmValue.snapshotAll, vmValueFromWireValue_frozen payload error found hfound]
        · simp at h
    | _ => simp [hty] at h
  | .variant _ _ none, expected, value, h | .unit, expected, value, h | .bool _, expected, value, h
  | .int _, expected, value, h | .float _, expected, value, h | .string _, expected, value, h
  | .char _, expected, value, h | .bytes _, expected, value, h | .resource _, expected, value, h
  | .record _ _, expected, value, h => by
    unfold vmValueFromWireValue at h
    cases hty : expected.unqualified <;> simp [hty] at h
    all_goals
      simp only [← h, VmValue.snapshotKeyValue]

theorem vmElements_frozen : (wires : List WireValue) → (element : WireType) →
    (values : List VmValue) → vmElements types wires element = .ok values →
    VmValue.snapshotAll values = values
  | [], _, values, h => by
    cases h
    rfl
  | wire :: wires, element, values, h => by
    simp only [vmElements, bind_eq_ok, pure_eq_ok] at h
    obtain ⟨value, hvalue, rest, hrest, rfl⟩ := h
    rw [VmValue.snapshotAll, vmValueFromWireValue_frozen wire element value hvalue,
      vmElements_frozen wires element rest hrest]

theorem vmTuple_frozen : (wires : List WireValue) → (elements : List WireType) →
    (values : List VmValue) → vmTuple types wires elements = .ok values →
    VmValue.snapshotAll values = values
  | wire :: wires, element :: elements, values, h => by
    simp only [vmTuple, bind_eq_ok, pure_eq_ok] at h
    obtain ⟨value, hvalue, rest, hrest, rfl⟩ := h
    rw [VmValue.snapshotAll, vmValueFromWireValue_frozen wire element value hvalue,
      vmTuple_frozen wires elements rest hrest]
  | [], _, values, h | _ :: _, [], values, h => by
    simp only [vmTuple, Except.ok.injEq] at h
    rw [← h]
    rfl

theorem vmEntries_frozen : (wires : List (WireValue × WireValue)) → (key value : WireType) →
    (collected entries : List (VmValue × VmValue)) →
    VmValue.snapshotEntries collected = collected →
    vmEntries types wires key value collected = .ok entries →
    VmValue.snapshotEntries entries = entries
  | [], _, _, collected, entries, hcollected, h => by
    cases h
    exact hcollected
  | wire :: wires, key, value, collected, entries, hcollected, h => by
    simp only [vmEntries, bind_eq_ok] at h
    obtain ⟨⟨entryKey, entryValue⟩, hentry, h⟩ := h
    refine vmEntries_frozen wires key value _ entries ?_ h
    exact VmValue.insertEntry_frozen (vmEntry_frozen wire key value (entryKey, entryValue) hentry) hcollected

theorem vmEntry_frozen : (wire : WireValue × WireValue) → (key value : WireType) →
    (entry : VmValue × VmValue) → vmEntry types wire key value = .ok entry →
    entry.2.snapshotKeyValue = entry.2
  | (wireKey, wireValue), key, value, entry, h => by
    simp only [vmEntry, bind_eq_ok] at h
    obtain ⟨found, -, h⟩ := h
    split at h
    · cases h
    · obtain ⟨entryValue, hvalue, heq⟩ := bind_eq_ok.mp h
      rw [← pure_eq_ok.mp heq]
      exact vmValueFromWireValue_frozen wireValue value entryValue hvalue

end

/-! ## There and back -/

/-- Decoding the entries of a map gives back distinct ones exactly when each comes back. -/
theorem vmEntries_eq_ok {wires : List (WireValue × WireValue)} {key value : WireType}
    {collected : List (VmValue × VmValue)} :
    vmEntries types wires key value collected = .ok entries ↔
      ∃ added, wires.mapM (fun wire => vmEntry types wire key value) = .ok added ∧
        VmValue.insertAll collected added = entries := by
  induction wires generalizing collected with
  | nil => simp [vmEntries, VmValue.insertAll]
  | cons wire wires ih =>
    simp only [vmEntries, List.mapM_cons, bind_eq_ok, pure_eq_ok, ih]
    constructor
    · rintro ⟨entry, hentry, added, hadded, hall⟩
      exact ⟨entry :: added, ⟨entry, hentry, added, hadded, rfl⟩, hall⟩
    · rintro ⟨_, ⟨entry, hentry, added, hadded, rfl⟩, hall⟩
      exact ⟨entry, hentry, added, hadded, hall⟩

theorem mapM_length {β : Type} {f : α → Evaluated β} {as : List α} {bs : List β}
    (h : as.mapM f = .ok bs) : bs.length = as.length := by
  induction as generalizing bs with
  | nil => simp_all
  | cons a as ih =>
    simp only [List.mapM_cons, bind_eq_ok, pure_eq_ok] at h
    obtain ⟨b, -, rest, hrest, rfl⟩ := h
    simp [ih hrest]

theorem wireEntries_length {key value : WireType} {wires : List (WireValue × WireValue)}
    (h : wireEntries types entries key value = .ok wires) : wires.length = entries.length := by
  induction entries generalizing wires with
  | nil =>
    cases h
    rfl
  | cons entry entries ih =>
    simp only [wireEntries, bind_eq_ok, pure_eq_ok] at h
    obtain ⟨wire, -, rest, hrest, rfl⟩ := h
    simp [ih hrest]

theorem ok_cons_iff {rest : Evaluated (List α)} :
    (do let a ← first; return a :: (← rest)) = .ok (a :: as) ↔
      first = .ok a ∧ rest = .ok as := by
  simp only [bind_eq_ok, pure_eq_ok, List.cons.injEq]
  constructor
  · rintro ⟨_, hfirst, _, hrest, rfl, rfl⟩
    exact ⟨hfirst, hrest⟩
  · rintro ⟨hfirst, hrest⟩
    exact ⟨a, hfirst, as, hrest, rfl, rfl⟩

/-- The payload is the field of a result that has no other. -/
theorem result_fields (hnames : layout.fieldNames = ["value"])
    (hlength : layout.fieldNames.length = fields.length) (hfield : fields[slot]? = some field) :
    fields = [field] := by
  rw [hnames] at hlength
  obtain ⟨first, rfl⟩ := List.length_eq_one_iff.mp hlength.symm
  have hmem := List.mem_of_getElem? hfield
  rw [List.mem_singleton.mp hmem]

/-- A result comes back with its payload as its only field. -/
theorem result_iff {field : VmValue} {ty : WireType} {payload : WireValue}
    (hlength : layout.fieldNames.length = fields.length) (hfield : fields[slot]? = some field)
    (hpayload : vmValueFromWireValue types payload ty = .ok field.snapshotKeyValue ↔
      field.Returnable ty) :
    (do return VmValue.variant ⟨layout.name, ["value"]⟩ [← vmValueFromWireValue types payload ty]) =
        Except.ok (VmValue.variant layout fields).snapshotKeyValue ↔
      layout.fieldNames = ["value"] ∧ AllReturnable fields ty := by
  simp only [bind_eq_ok, pure_eq_ok, VmValue.snapshotKeyValue, VmValue.variant.injEq]
  constructor
  · rintro ⟨found, hfound, hlayout, hfields⟩
    have hnames : layout.fieldNames = ["value"] := congrArg TypeLayout.fieldNames hlayout.symm
    obtain rfl := result_fields hnames hlength hfield
    simp only [VmValue.snapshotAll, List.cons.injEq, and_true] at hfields
    rw [hfields] at hfound
    exact ⟨hnames, hpayload.mp hfound, trivial⟩
  · rintro ⟨hnames, hall⟩
    obtain rfl := result_fields hnames hlength hfield
    refine ⟨field.snapshotKeyValue, hpayload.mpr hall.1, ?_, rfl⟩
    rw [← hnames]

attribute [local simp] VmValue.snapshotKeyValue vmValueFromWireValue VmValue.Returnable

mutual

/-- What goes out comes back without its managed cells, exactly when it can come back at all. -/
theorem vmValueFromWireValue_iff : (value : VmValue) → (expected : WireType) → (wire : WireValue) →
    value.WellFormed → wireValueFromVmValue types value expected = .ok wire →
    (vmValueFromWireValue types wire expected = .ok value.snapshotKeyValue ↔
      value.Returnable expected)
  | .managed value, expected, wire, hwell, h => by
    unfold wireValueFromVmValue at h
    obtain ⟨-, h⟩ := ite_failure_eq_ok.mp h
    have hvalue := vmValueFromWireValue_iff value expected wire hwell h
    simpa using hvalue
  | .list values, expected, wire, hwell, h => by
    rcases wire_list h with ⟨element, typeId, wires, hty, hid, hwires, rfl⟩ |
      ⟨elements, wires, hty, hlength, hwires, rfl⟩
    · have hall := vmElements_iff values element wires hwell hwires
      simp [hty, hid, hall]
    · obtain ⟨hwired, hall⟩ := vmTuple_iff values elements wires hwell hlength hwires
      simp [hty, hwired, hall]
  | .map entries, expected, wire, hwell, h => by
    obtain ⟨key, value, keyId, valueId, wires, hty, hkey, hvalue, hwires, rfl⟩ := wire_map h
    have hall := mapM_vmEntry_iff entries key value wires hwell.1 hwires
    have hentries : vmEntries types wires key value [] = .ok (VmValue.snapshotEntries entries) ↔
        EntriesReturnable entries key value := by
      rw [← hall, vmEntries_eq_ok]
      constructor
      · rintro ⟨added, hadded, hinserted⟩
        -- no entry is lost on the way, so none met an equal key
        have hlength : added.length = (VmValue.snapshotEntries entries).length := by
          rw [mapM_length hadded, wireEntries_length hwires, VmValue.snapshotEntries_eq, List.length_map]
        have hfull : VmValue.insertAll [] added = [] ++ added := by
          apply VmValue.insertAll_of_length
          rw [hinserted, hlength, List.length_nil, Nat.zero_add]
        rw [← hinserted, hfull, List.nil_append, hadded]
      · intro hadded
        refine ⟨_, hadded, VmValue.insertAll_of_distinct (by simp) ?_⟩
        rw [VmValue.snapshotEntries_eq]
        exact List.pairwise_map.mpr hwell.2
    unfold vmValueFromWireValue VmValue.Returnable
    rw [hty]
    simp [hkey, hvalue, hentries]
  | .optionSome value, expected, wire, hwell, h => by
    obtain ⟨element, typeId, payload, hty, hid, hpayload, rfl⟩ := wire_optionSome h
    have hvalue := vmValueFromWireValue_iff value element payload hwell hpayload
    simp [hty, hid, hvalue]
  | .struct layout fields, expected, wire, hwell, h => by
    obtain ⟨package, name, arguments, typeId, wires, hty, rfl⟩ := wire_struct h
    unfold vmValueFromWireValue VmValue.Returnable
    rw [hty]
    exact ⟨fun hback => absurd hback failure_ne_ok, False.elim⟩
  | .variant layout fields, expected, wire, hwell, h => by
    rcases wire_variant h with ⟨ok, error, variantId, ty, slot, field, typeId, payload, hty, hcase,
      hslot, hfield, hid, hpayload, rfl⟩ | ⟨package, name, arguments, typeId, variantId, payload, hty, rfl⟩
    · have hpayloads := vmPayload_iff fields slot field ty payload hwell.2 hfield hpayload
      have hresult := result_iff hwell.1 hfield hpayloads
      unfold vmValueFromWireValue VmValue.Returnable
      rw [hty]
      rcases hcase with ⟨hname, rfl, rfl⟩ | ⟨hname, rfl, rfl⟩
      all_goals
        rw [hname] at hresult
        simp only [hid, hname, expectIdentity_eq_ok, bind_eq_ok, exists_const]
      · simpa [WireCallTypeTable.resultOkVariant] using hresult
      · simpa [WireCallTypeTable.resultOkVariant, WireCallTypeTable.resultErrVariant] using hresult
    · unfold vmValueFromWireValue VmValue.Returnable
      rw [hty]
      cases payload <;> exact ⟨fun hback => absurd hback failure_ne_ok, False.elim⟩
  | .deque values, expected, wire, hwell, h => by
    unfold wireValueFromVmValue at h
    obtain ⟨-, h⟩ := ite_failure_eq_ok.mp h
    unfold vmValueFromWireValue VmValue.Returnable
    cases hty : expected.unqualified with
    | list element =>
      simp only [hty, bind_eq_ok, pure_eq_ok] at h
      obtain ⟨_, -, wires, -, rfl⟩ := h
      simp
    | tuple elements =>
      simp only [hty, bind_eq_ok, pure_eq_ok] at h
      obtain ⟨_, -, wires, -, rfl⟩ := h
      simp
    | _ => simp [hty] at h
  | .optionNone, expected, wire, hwell, h => by
    unfold wireValueFromVmValue at h
    obtain ⟨-, h⟩ := ite_failure_eq_ok.mp h
    unfold vmValueFromWireValue VmValue.Returnable
    cases hty : expected.unqualified with
    | option element =>
      simp only [hty, bind_eq_ok, identity_eq_ok, pure_eq_ok] at h
      obtain ⟨typeId, hid, rfl⟩ := h
      simp [hid]
    | _ => simp [hty] at h
  | .native typeName id, expected, wire, hwell, h => by
    unfold wireValueFromVmValue at h
    obtain ⟨-, h⟩ := ite_failure_eq_ok.mp h
    unfold vmValueFromWireValue VmValue.Returnable
    cases hty : expected.unqualified with
    | resource name =>
      simp only [hty] at h
      split at h
      · simp only [bind_eq_ok, identity_eq_ok, pure_eq_ok] at h
        obtain ⟨resourceType, hid, rfl⟩ := h
        rename_i hname
        have hback : (ResourceHandle.fromWire
            ((ResourceHandle.fromNativeId id).toWire resourceType)).toNativeId = id :=
          ResourceHandle.toNativeId_fromNativeId id
        simpa [hid, hname, ResourceHandle.toWire] using hback
      · simp at h
    | _ => simp [hty] at h
  | .unit, expected, wire, hwell, h | .bool _, expected, wire, hwell, h
  | .int _, expected, wire, hwell, h | .float _, expected, wire, hwell, h
  | .string _, expected, wire, hwell, h | .char _, expected, wire, hwell, h
  | .bytes _, expected, wire, hwell, h | .json _, expected, wire, hwell, h
  | .closure _ _, expected, wire, hwell, h => by
    unfold wireValueFromVmValue at h
    obtain ⟨-, h⟩ := ite_failure_eq_ok.mp h
    unfold vmValueFromWireValue VmValue.Returnable
    cases hty : expected.unqualified <;> simp [hty] at h
    all_goals
      subst h
      simp

theorem vmElements_iff : (values : List VmValue) → (element : WireType) →
    (wires : List WireValue) → VmValue.AllWellFormed values →
    wireElements types values element = .ok wires →
    (vmElements types wires element = .ok (VmValue.snapshotAll values) ↔
      AllReturnable values element)
  | [], element, wires, hwell, h => by
    cases h
    simp [vmElements, VmValue.snapshotAll, AllReturnable]
  | value :: values, element, wires, hwell, h => by
    simp only [wireElements, bind_eq_ok, pure_eq_ok] at h
    obtain ⟨wire, hwire, rest, hrest, rfl⟩ := h
    rw [vmElements, VmValue.snapshotAll, AllReturnable, ok_cons_iff,
      vmValueFromWireValue_iff value element wire hwell.1 hwire,
      vmElements_iff values element rest hwell.2 hrest]

/-- The field at a slot, as one of a list. -/
theorem vmPayload_iff : (fields : List VmValue) → (slot : Nat) → (field : VmValue) →
    (expected : WireType) → (wire : WireValue) → VmValue.AllWellFormed fields →
    fields[slot]? = some field → wireValueFromVmValue types field expected = .ok wire →
    (vmValueFromWireValue types wire expected = .ok field.snapshotKeyValue ↔
      field.Returnable expected)
  | first :: _, 0, field, expected, wire, hwell, hfield, h => by
    obtain rfl : first = field := by simpa using hfield
    exact vmValueFromWireValue_iff first expected wire hwell.1 h
  | _ :: fields, slot + 1, field, expected, wire, hwell, hfield, h =>
    vmPayload_iff fields slot field expected wire hwell.2 (by simpa using hfield) h

theorem vmTuple_iff : (values : List VmValue) → (elements : List WireType) →
    (wires : List WireValue) → VmValue.AllWellFormed values → values.length = elements.length →
    wireTuple types values elements = .ok wires →
    wires.length = elements.length ∧
    (vmTuple types wires elements = .ok (VmValue.snapshotAll values) ↔
      TupleReturnable values elements)
  | [], [], wires, hwell, hlength, h => by
    cases h
    simp [vmTuple, VmValue.snapshotAll, TupleReturnable]
  | value :: values, element :: elements, wires, hwell, hlength, h => by
    simp only [wireTuple, bind_eq_ok, pure_eq_ok] at h
    obtain ⟨wire, hwire, rest, hrest, rfl⟩ := h
    rw [List.length_cons, List.length_cons, Nat.succ_inj] at hlength
    obtain ⟨hwired, hall⟩ := vmTuple_iff values elements rest hwell.2 hlength hrest
    rw [vmTuple, VmValue.snapshotAll, TupleReturnable, ok_cons_iff,
      vmValueFromWireValue_iff value element wire hwell.1 hwire, hall]
    exact ⟨by simp [hwired], Iff.rfl⟩
  | [], _ :: _, _, _, hlength, _ | _ :: _, [], _, _, hlength, _ => by cases hlength

theorem mapM_vmEntry_iff : (entries : List (VmValue × VmValue)) → (key value : WireType) →
    (wires : List (WireValue × WireValue)) → VmValue.EntriesWellFormed entries →
    wireEntries types entries key value = .ok wires →
    (wires.mapM (fun wire => vmEntry types wire key value) = .ok (VmValue.snapshotEntries entries) ↔
      EntriesReturnable entries key value)
  | [], key, value, wires, hwell, h => by
    cases h
    simp [VmValue.snapshotEntries, EntriesReturnable]
  | entry :: entries, key, value, wires, hwell, h => by
    simp only [wireEntries, bind_eq_ok, pure_eq_ok] at h
    obtain ⟨wire, hwire, rest, hrest, rfl⟩ := h
    rw [List.mapM_cons, VmValue.snapshotEntries, EntriesReturnable, ok_cons_iff,
      vmEntry_iff entry key value wire hwell.1 hwire,
      mapM_vmEntry_iff entries key value rest hwell.2 hrest]

theorem vmEntry_iff : (entry : VmValue × VmValue) → (key value : WireType) →
    (wire : WireValue × WireValue) → VmValue.EntryWellFormed entry →
    wireEntry types entry key value = .ok wire →
    (vmEntry types wire key value = .ok (VmValue.snapshotEntry entry) ↔
      EntryReturnable entry key value)
  | (entryKey, entryValue), key, value, wire, hwell, h => by
    simp only [wireEntry, bind_eq_ok, pure_eq_ok] at h
    obtain ⟨wireKey, hkey, wireValue, hvalue, rfl⟩ := h
    obtain ⟨hwellKey, hfrozen, hwellValue⟩ := hwell
    have hkeys := vmValueFromWireValue_iff entryKey key wireKey hwellKey hkey
    have hvalues := vmValueFromWireValue_iff entryValue value wireValue hwellValue hvalue
    rw [hfrozen] at hkeys
    rw [vmEntry, VmValue.snapshotEntry, EntryReturnable, ← hkeys, ← hvalues, bind_eq_ok]
    constructor
    · rintro ⟨found, hfound, h⟩
      have hsame := vmValueFromWireValue_frozen wireKey key found hfound
      cases hhash : found.isHashable 0 0 with
      | none => simp [VmValue.mapKeyFromValue, hhash] at h
      | some work =>
        simp only [VmValue.mapKeyFromValue, hhash, Option.map_some, bind_eq_ok, pure_eq_ok,
          Prod.mk.injEq, hsame] at h
        obtain ⟨found', hfound', rfl, rfl⟩ := h
        exact ⟨hfound, by rw [hhash]; rfl, hfound'⟩
    · rintro ⟨hback, hhash, hbackValue⟩
      obtain ⟨work, hwork⟩ := Option.isSome_iff_exists.mp hhash
      refine ⟨entryKey, hback, ?_⟩
      simp [VmValue.mapKeyFromValue, hwork, hfrozen, hbackValue]

end

/-- A provider may echo what it was given, or write it back unchanged, exactly when no part of it
is of a named type, results carry their payload only and map keys are within their bounds. -/
theorem echo_iff_returnable (types : WireCallTypeTable) (value : VmValue) (expected : WireType)
    (wire : WireValue) (hwell : value.WellFormed)
    (hwire : wireValueFromVmValue types value expected = .ok wire) :
    vmValueFromWireValue types wire expected = .ok value.snapshotKeyValue ↔
      value.Returnable expected :=
  vmValueFromWireValue_iff value expected wire hwell hwire

def int64 : WireType := .int 64 true

/-- The types of a call that takes a point and a list of numbers. -/
def pointTypes : WireCallTypeTable where
  types := [int64, .named (some "geo") "Point" [], .list int64]
  resources := []
  records := [⟨.named (some "geo") "Point" [], [⟨"x", int64⟩, ⟨"y", int64⟩]⟩]
  variants := []

/-- A managed list comes back as the plain list. -/
theorem numbers_echoed :
    wireValueFromVmValue pointTypes (.managed (.list [.int 1, .int 2])) (.list int64) =
      .ok (.list ⟨0⟩ [.int 1, .int 2]) ∧
    (vmValueFromWireValue pointTypes (.list ⟨0⟩ [.int 1, .int 2]) (.list int64) =
        .ok (VmValue.managed (.list [.int 1, .int 2])).snapshotKeyValue ↔
      (VmValue.managed (.list [.int 1, .int 2])).Returnable (.list int64)) := by
  have hwire : wireValueFromVmValue pointTypes (.managed (.list [.int 1, .int 2])) (.list int64) =
      .ok (.list ⟨0⟩ [.int 1, .int 2]) := by rfl
  have hwell : (VmValue.managed (.list [.int 1, .int 2])).WellFormed := ⟨trivial, trivial, trivial⟩
  exact ⟨hwire, echo_iff_returnable pointTypes _ _ _ hwell hwire⟩

/-- A record reaches a provider and is refused when the provider returns it. -/
theorem point_refused :
    let point := VmValue.struct ⟨"geo.Point", ["x", "y"]⟩ [.int 1, .int 2]
    let wire := WireValue.record ⟨1⟩ [.int 1, .int 2]
    let pointType := WireType.named (some "geo") "Point" []
    wireValueFromVmValue pointTypes point pointType = .ok wire ∧
    vmValueFromWireValue pointTypes wire pointType =
      .error (.runtime "Provider wire result does not match its linked signature") :=
  ⟨rfl, rfl⟩

end RSScript.Provider
