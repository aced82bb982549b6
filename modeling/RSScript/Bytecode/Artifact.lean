import RSScript.Abi.Model
import RSScript.Bytecode.CanonicalCbor

/-!
# Bytecode artifacts

The header, the imports and the executable payload that one container holds, and
the JSON the derived serializers give for the first two. Every number in that
JSON is unsigned, so no artifact reaches the one integer the CBOR decoder
refuses; `BytecodeHeader.toValue_safe` and `importsToValue_safe` say so. Both
serializers are injective.
-/

namespace RSScript.Bytecode

open ByteCodec RSScript.Abi

/-- The verifier's errors that carry data keep it; `invalidPayload` and `cbor`
carry a message. -/
inductive BytecodeError where
  | cancelled
  | deadlineExceeded
  | invalidMagic
  | unsupportedSchema (schema : String)
  | unsupportedLanguageVersion (version : String)
  | unsupportedBytecodeIsa (artifact verifier : UInt32)
  | unsupportedCoreLibraryAbi (artifact runtime : UInt32)
  | unsupportedRuntimeAbi (artifact runtime : UInt32)
  | invalidProvenance (field : String)
  | limitExceeded (limit : String)
  | executableHashMismatch
  | checksumMismatch
  | importsNotCanonical
  | importAbiMismatch
  | importSignatureHashMismatch
  | typedFactsBindingMismatch (field : String)
  | invalidTypedExecutableFacts (message : String)
  | invalidPayload (message : String)
  | malformedSectionTable
  | sectionsNotCanonical
  | missingSection (kind : UInt8)
  | unknownRequiredSection (kind : UInt8)
  | knownSectionNotRequired (kind : UInt8)
  | knownSectionMustBeOptional (kind : UInt8)
  | invalidSectionFlags (kind flags : UInt8)
  | sectionHashMismatch (kind : UInt8)
  | malformedChecksum
  | trailingBytes
  | cbor (message : String)
  deriving DecidableEq, Repr

/-- Two lower-case hexadecimal digits. -/
def hexByte (byte : UInt8) : String :=
  "0x" ++ String.ofList [Nat.digitChar (byte.toNat / 16), Nat.digitChar (byte.toNat % 16)]

/-- The `Display` text. -/
def BytecodeError.text : BytecodeError → String
  | cancelled => "bytecode verification cancelled"
  | deadlineExceeded => "bytecode verification deadline exceeded"
  | invalidMagic => "invalid RSScript bytecode magic"
  | unsupportedSchema schema => s!"unsupported bytecode schema `{schema}`"
  | unsupportedLanguageVersion version => s!"unsupported RSScript language version `{version}`"
  | unsupportedBytecodeIsa artifact verifier =>
    s!"bytecode ISA {artifact} is incompatible with verifier ISA {verifier}"
  | unsupportedCoreLibraryAbi artifact runtime =>
    s!"bytecode Core library ABI {artifact} is incompatible with runtime ABI {runtime}"
  | unsupportedRuntimeAbi artifact runtime =>
    s!"bytecode runtime ABI {artifact} is incompatible with runtime ABI {runtime}"
  | invalidProvenance field => s!"bytecode {field} is malformed"
  | limitExceeded limit => s!"bytecode {limit} exceeds verifier limit"
  | executableHashMismatch => "bytecode executable hash mismatch"
  | checksumMismatch => "bytecode artifact checksum mismatch"
  | importsNotCanonical => "bytecode imports are duplicated or not sorted"
  | importAbiMismatch => "bytecode import ABI does not match its header"
  | importSignatureHashMismatch => "bytecode import signature does not match its hash"
  | typedFactsBindingMismatch field => s!"typed executable facts {field} mismatch"
  | invalidTypedExecutableFacts message => s!"invalid typed executable facts: {message}"
  | invalidPayload message => s!"invalid bytecode payload: {message}"
  | malformedSectionTable => "malformed bytecode section table"
  | sectionsNotCanonical => "bytecode sections are duplicated or not canonical"
  | missingSection kind => s!"bytecode is missing required section {kind}"
  | unknownRequiredSection kind => s!"bytecode contains unknown required section {kind}"
  | knownSectionNotRequired kind => s!"bytecode section {kind} is not marked required"
  | knownSectionMustBeOptional kind => s!"bytecode section {kind} must be optional"
  | invalidSectionFlags kind flags => s!"bytecode section {kind} has invalid flags {hexByte flags}"
  | sectionHashMismatch kind => s!"bytecode section {kind} hash mismatch"
  | malformedChecksum => "bytecode checksum is not UTF-8"
  | trailingBytes => "bytecode has trailing bytes"
  | cbor message => s!"cannot encode/decode executable CBOR: {message}"

/-- What a container says about its payload. -/
structure BytecodeHeader where
  schema : String
  languageVersion : String
  bytecodeIsaVersion : UInt32
  coreLibraryAbiVersion : UInt32
  compilerVersion : String
  interfaceCatalogDigest : String
  runtimeAbiVersion : UInt32
  sourceContentHash : String
  snapshotDigest : Option String
  executableHash : String
  deriving DecidableEq, Repr

/-- A header, imports, a payload with its checksum, and optional typed facts. -/
structure BytecodeArtifact where
  header : BytecodeHeader
  imports : List ExternalImport
  payload : Bytes
  checksum : String
  typedExecutableFacts : Option Bytes
  deriving Repr

/-! ## Serialization -/

namespace Value

def u16 (n : UInt16) : Value := .number (.posInt n.toUInt64)
def u32 (n : UInt32) : Value := .number (.posInt n.toUInt64)

/-- An `Option` field without `skip_serializing_if`. -/
def optional (text : Option String) : Value :=
  match text with
  | some text => .string text
  | none => .null

end Value

open Value

def dataEffectToValue (effect : DataEffect) : Value := .string effect.asStr

def wireQualifierToValue : WireQualifier → Value
  | .fresh => .string "fresh"
  | .owned => .string "owned"
  | .noEscape => .string "no_escape"

mutual

/-- The internally tagged form: the variant's fields beside its `kind`, in key
order. -/
def wireTypeToValue : WireType → Value
  | .unit => .object [("kind", .string "unit")]
  | .bool => .object [("kind", .string "bool")]
  | .int bits signed =>
    .object [("bits", u16 bits), ("kind", .string "int"), ("signed", .bool signed)]
  | .float bits => .object [("bits", u16 bits), ("kind", .string "float")]
  | .string => .object [("kind", .string "string")]
  | .char => .object [("kind", .string "char")]
  | .bytes => .object [("kind", .string "bytes")]
  | .list element => .object [("element", wireTypeToValue element), ("kind", .string "list")]
  | .map key value =>
    .object [("key", wireTypeToValue key), ("kind", .string "map"),
      ("value", wireTypeToValue value)]
  | .option value => .object [("kind", .string "option"), ("value", wireTypeToValue value)]
  | .result ok error =>
    .object [("error", wireTypeToValue error), ("kind", .string "result"),
      ("ok", wireTypeToValue ok)]
  | .tuple elements =>
    .object [("elements", .array (wireTypesToValues elements)), ("kind", .string "tuple")]
  | .named package name arguments =>
    .object [("arguments", .array (wireTypesToValues arguments)), ("kind", .string "named"),
      ("name", .string name), ("package", optional package)]
  | .resource name => .object [("kind", .string "resource"), ("name", .string name)]
  | .handle name => .object [("kind", .string "handle"), ("name", .string name)]
  | .function parameters effects result =>
    .object [("kind", .string "function"),
      ("parameter_effects", .array (effects.map dataEffectToValue)),
      ("parameters", .array (wireTypesToValues parameters)), ("result", wireTypeToValue result)]
  | .qualified qualifier value =>
    .object [("kind", .string "qualified"), ("qualifier", wireQualifierToValue qualifier),
      ("value", wireTypeToValue value)]

def wireTypesToValues : List WireType → List Value
  | [] => []
  | ty :: types => wireTypeToValue ty :: wireTypesToValues types

end

def parameterSignatureToValue (parameter : ParameterSignature) : Value :=
  .object [("effect", dataEffectToValue parameter.effect), ("name", .string parameter.name),
    ("retained", .bool parameter.retained), ("ty", wireTypeToValue parameter.ty)]

def functionSignatureToValue (signature : FunctionSignature) : Value :=
  .object [("asynchronous", .bool signature.asynchronous),
    ("parameters", .array (signature.parameters.map parameterSignatureToValue)),
    ("result", wireTypeToValue signature.result)]

def externalImportToValue (external : ExternalImport) : Value :=
  .object [("abi_version", u32 external.abiVersion),
    ("signature", functionSignatureToValue external.signature),
    ("signature_hash", .string external.signatureHash), ("symbol", .string external.symbol)]

def importsToValue (imports : List ExternalImport) : Value :=
  .array (imports.map externalImportToValue)

/-- `snapshot_digest` is left out when absent. -/
def BytecodeHeader.toValue (header : BytecodeHeader) : Value :=
  .object (
    [("bytecode_isa_version", u32 header.bytecodeIsaVersion),
      ("compiler_version", .string header.compilerVersion),
      ("core_library_abi_version", u32 header.coreLibraryAbiVersion),
      ("executable_hash", .string header.executableHash),
      ("interface_catalog_digest", .string header.interfaceCatalogDigest),
      ("language_version", .string header.languageVersion),
      ("runtime_abi_version", u32 header.runtimeAbiVersion),
      ("schema", .string header.schema)]
    ++ (match header.snapshotDigest with
      | some digest => [("snapshot_digest", .string digest)]
      | none => [])
    ++ [("source_content_hash", .string header.sourceContentHash)])

/-! ## What serialization gives

A map in key order, free of the integer that does not survive CBOR. -/

/-- The JSON of a value that the CBOR codec carries faithfully, sizes aside. -/
structure Safe (value : Value) : Prop where
  ordered : value.Ordered
  decodable : ¬Occurs (.number .i64Min) value

namespace Safe

theorem string (text : String) : Safe (.string text) :=
  ⟨.string text, fun h => absurd (h.eq_of_scalar (by simp) (by simp)) (by simp)⟩

theorem bool (flag : Bool) : Safe (.bool flag) :=
  ⟨.bool flag, fun h => absurd (h.eq_of_scalar (by simp) (by simp)) (by simp)⟩

theorem null : Safe .null := ⟨.null, fun h => absurd (h.eq_of_scalar (by simp) (by simp)) (by simp)⟩

theorem posInt (n : UInt64) : Safe (.number (.posInt n)) :=
  ⟨.number _, fun h => absurd (h.eq_of_scalar (by simp) (by simp)) (by simp [Number.i64Min])⟩

theorem optional (text : Option String) : Safe (optional text) := by
  cases text with
  | none => exact null
  | some text => exact string text

theorem array (h : ∀ value ∈ values, Safe value) : Safe (.array values) := by
  refine ⟨.array fun value hmem => (h value hmem).ordered, fun hocc => ?_⟩
  cases hocc with
  | array hmem hocc => exact (h _ hmem).decodable hocc

theorem object (keys : List String) (hnames : entries.map Prod.fst = keys)
    (hkeys : keys.Pairwise (· < ·)) (h : ∀ entry ∈ entries, Safe entry.2) :
    Safe (.object entries) := by
  have hnames' := List.pairwise_map.mp (hnames ▸ hkeys)
  refine ⟨.object hnames' fun entry hmem => (h entry hmem).ordered, fun hocc => ?_⟩
  cases hocc with
  | object hmem hocc => exact (h _ hmem).decodable hocc

end Safe

theorem dataEffectToValue_safe : Safe (dataEffectToValue effect) := Safe.string _

private theorem wireQualifierToValue_safe : Safe (wireQualifierToValue qualifier) := by
  cases qualifier <;> exact Safe.string _

attribute [local simp] Safe.string wireTypeToValue Safe.posInt wireTypesToValues Safe.bool

mutual

theorem wireTypeToValue_safe : (ty : WireType) → Safe (wireTypeToValue ty)
  | .unit | .bool | .string | .char | .bytes => by
    refine .object ["kind"] rfl (by decide +kernel) ?_
    simp
  | .int bits signed => by
    refine .object ["bits", "kind", "signed"] rfl (by decide +kernel) ?_
    simp [u16]
  | .float bits => by
    refine .object ["bits", "kind"] rfl (by decide +kernel) ?_
    simp [u16]
  | .list element => by
    refine .object ["element", "kind"] rfl (by decide +kernel) ?_
    simp [wireTypeToValue_safe element]
  | .map key value => by
    refine .object ["key", "kind", "value"] rfl (by decide +kernel) ?_
    simp [wireTypeToValue_safe key, wireTypeToValue_safe value]
  | .option value => by
    refine .object ["kind", "value"] rfl (by decide +kernel) ?_
    simp [wireTypeToValue_safe value]
  | .result ok error => by
    refine .object ["error", "kind", "ok"] rfl (by decide +kernel) ?_
    simp [wireTypeToValue_safe ok, wireTypeToValue_safe error]
  | .tuple elements => by
    refine .object ["elements", "kind"] rfl (by decide +kernel) ?_
    simp [Safe.array (wireTypesToValues_safe elements)]
  | .named package name arguments => by
    refine .object ["arguments", "kind", "name", "package"] rfl (by decide +kernel) ?_
    simp [Safe.optional, Safe.array (wireTypesToValues_safe arguments)]
  | .resource name | .handle name => by
    refine .object ["kind", "name"] rfl (by decide +kernel) ?_
    simp
  | .function parameters effects result => by
    have heffects : Safe (.array (effects.map dataEffectToValue)) :=
      Safe.array (by simp [dataEffectToValue_safe])
    refine .object ["kind", "parameter_effects", "parameters", "result"] rfl (by decide +kernel) ?_
    simp [Safe.array (wireTypesToValues_safe parameters), heffects, wireTypeToValue_safe result]
  | .qualified qualifier value => by
    refine .object ["kind", "qualifier", "value"] rfl (by decide +kernel) ?_
    simp [wireQualifierToValue_safe, wireTypeToValue_safe value]

theorem wireTypesToValues_safe : (types : List WireType) →
    ∀ value ∈ wireTypesToValues types, Safe value
  | [] => by simp
  | ty :: types => by
    rw [wireTypesToValues, List.forall_mem_cons]
    exact ⟨wireTypeToValue_safe ty, wireTypesToValues_safe types⟩

end

private theorem parameterSignatureToValue_safe : Safe (parameterSignatureToValue parameter) := by
  refine .object ["effect", "name", "retained", "ty"] rfl (by decide +kernel) ?_
  simp [dataEffectToValue_safe, wireTypeToValue_safe]

private theorem functionSignatureToValue_safe : Safe (functionSignatureToValue signature) := by
  have hparameters : Safe (.array (signature.parameters.map parameterSignatureToValue)) :=
    Safe.array (by simp [parameterSignatureToValue_safe])
  refine .object ["asynchronous", "parameters", "result"] rfl (by decide +kernel) ?_
  simp [hparameters, wireTypeToValue_safe]

private theorem externalImportToValue_safe : Safe (externalImportToValue external) := by
  refine .object ["abi_version", "signature", "signature_hash", "symbol"] rfl (by decide +kernel) ?_
  simp [u32, functionSignatureToValue_safe]

theorem importsToValue_safe : Safe (importsToValue imports) :=
  Safe.array (by simp [externalImportToValue_safe])

/-- The keys of a header, with and without a snapshot digest. -/
def headerKeys (digest : Bool) : List String :=
  ["bytecode_isa_version", "compiler_version", "core_library_abi_version", "executable_hash",
    "interface_catalog_digest", "language_version", "runtime_abi_version", "schema"]
  ++ (if digest then ["snapshot_digest"] else []) ++ ["source_content_hash"]

theorem BytecodeHeader.toValue_safe (header : BytecodeHeader) : Safe header.toValue := by
  unfold BytecodeHeader.toValue
  cases header.snapshotDigest with
  | none =>
    refine .object (headerKeys false) rfl (by decide +kernel) ?_
    simp [u32]
  | some digest =>
    refine .object (headerKeys true) rfl (by decide +kernel) ?_
    simp [u32]

/-! ## Serialization loses nothing

So a deserializer that undoes it exists. -/

@[simp] theorem dataEffectToValue_inj :
    dataEffectToValue left = dataEffectToValue right ↔ left = right := by
  cases left <;> cases right <;> simp [dataEffectToValue, DataEffect.asStr]

@[simp] theorem wireQualifierToValue_inj :
    wireQualifierToValue left = wireQualifierToValue right ↔ left = right := by
  cases left <;> cases right <;> simp [wireQualifierToValue]

@[simp] theorem optional_inj : Value.optional left = Value.optional right ↔ left = right := by
  cases left <;> cases right <;> simp [Value.optional]

@[simp] theorem u16_inj : u16 left = u16 right ↔ left = right := by simp [u16, UInt16.toUInt64_inj]

@[simp] theorem u32_inj : u32 left = u32 right ↔ left = right := by simp [u32, UInt32.toUInt64_inj]

private theorem dataEffectsToValues_inj {left right : List DataEffect} :
    left.map dataEffectToValue = right.map dataEffectToValue ↔ left = right :=
  (List.map_injective_iff.mpr fun _ _ => dataEffectToValue_inj.mp).eq_iff

mutual

theorem wireTypeToValue_inj : (left right : WireType) →
    (wireTypeToValue left = wireTypeToValue right ↔ left = right)
  | .unit, right | .bool, right | .string, right | .char, right | .bytes, right
  | .int .., right | .float _, right | .resource _, right | .handle _, right => by
    cases right <;> simp
  | .list value, right | .option value, right | .qualified _ value, right => by
    cases right <;> simp [wireTypeToValue_inj value]
  | .map first second, right | .result first second, right => by
    cases right <;>
      simp [wireTypeToValue_inj first, wireTypeToValue_inj second, and_comm]
  | .tuple types, right | .named _ _ types, right => by
    cases right <;>
      simp [wireTypesToValues_inj types, and_comm, and_left_comm, and_assoc]
  | .function parameters _ result, right => by
    cases right <;> simp [wireTypesToValues_inj parameters, dataEffectsToValues_inj,
      wireTypeToValue_inj result, and_left_comm]

theorem wireTypesToValues_inj : (left right : List WireType) →
    (wireTypesToValues left = wireTypesToValues right ↔ left = right)
  | [], right => by cases right <;> simp
  | ty :: types, right => by
    cases right <;>
      simp [wireTypeToValue_inj ty, wireTypesToValues_inj types]

end

theorem parameterSignatureToValue_injective : Function.Injective parameterSignatureToValue := by
  rintro ⟨name, effect, ty, retained⟩ ⟨name', effect', ty', retained'⟩ h
  simp_all [parameterSignatureToValue, wireTypeToValue_inj]

theorem functionSignatureToValue_injective : Function.Injective functionSignatureToValue := by
  rintro ⟨parameters, result, asynchronous⟩ ⟨parameters', result', asynchronous'⟩ h
  obtain ⟨hasync, hparameters, hresult⟩ := by
    simpa [functionSignatureToValue, wireTypeToValue_inj] using h
  rw [hasync, List.map_injective_iff.mpr parameterSignatureToValue_injective hparameters, hresult]

private theorem externalImportToValue_injective : Function.Injective externalImportToValue := by
  rintro ⟨symbol, signature, hash, version⟩ ⟨symbol', signature', hash', version'⟩ h
  obtain ⟨hversion, hsignature, hhash, hsymbol⟩ := by simpa [externalImportToValue] using h
  rw [hversion, functionSignatureToValue_injective hsignature, hhash, hsymbol]

theorem importsToValue_injective : Function.Injective importsToValue := by
  intro left right h
  exact List.map_injective_iff.mpr externalImportToValue_injective
    (by simpa [importsToValue] using h)

theorem BytecodeHeader.toValue_injective : Function.Injective BytecodeHeader.toValue := by
  rintro ⟨schema, language, isa, core, compiler, catalog, runtime, source, digest, hash⟩
    ⟨schema', language', isa', core', compiler', catalog', runtime', source', digest', hash'⟩ h
  cases digest <;> cases digest' <;> simp_all [BytecodeHeader.toValue]

end RSScript.Bytecode
