import RSScript.Bytecode.Json

/-!
# The analysis of an artifact bundle

An analysis is evidence of a source or of a package. That of a package is written from
its typed facts. That of a source keeps the JSON it was read from beside the facts it was
decoded to, and the decoder takes more than the writer writes: a record may be an array
of its fields, and optional fields and empty lists may be missing.

`analysis_exports` and its siblings read facts from the JSON once more. They take records
that are objects only, so what they read is what was decoded exactly where records are
written as objects (`read_export_iff`).
-/

namespace RSScript.Artifact

open RSScript.Bytecode
open List hiding after count swap

/-! ### Facts

The facts of an analysis are flat records. A table says which fields a kind of fact has,
in the order of the record, and how each one is read. -/

/-- What a field of a fact holds. -/
inductive FieldKind where
  | text
  | optionalText
  | texts
  | flag
  | count
  | parameters
  deriving DecidableEq

structure FunctionParameterFact where
  name : String
  effect : String
  ty : String
  retained : Bool
  deriving DecidableEq, Ord

/-- The data of one field. -/
inductive Datum where
  | text (value : String)
  | optionalText (value : Option String)
  | texts (values : List String)
  | flag (value : Bool)
  | count (value : UInt32)
  | parameters (values : List FunctionParameterFact)
  deriving DecidableEq, Ord

def Datum.kind : Datum → FieldKind
  | .text _ => .text
  | .optionalText _ => .optionalText
  | .texts _ => .texts
  | .flag _ => .flag
  | .count _ => .count
  | .parameters _ => .parameters

abbrev Fact := List Datum

abbrev FactFields := List (String × FieldKind)

/-- `FunctionParameterFactV1` -/
def parameterFields : FactFields :=
  [("name", .text), ("effect", .text), ("ty", .text), ("retained", .flag)]

/-- The parameter with the fields of a record. -/
def FunctionParameterFact.ofFact : Fact → Option FunctionParameterFact
  | [.text name, .text effect, .text ty, .flag retained] => some ⟨name, effect, ty, retained⟩
  | _ => none

/-- `ExportFactV1` -/
def exportFields : FactFields :=
  [("name", .text), ("kind", .text), ("function_kind", .optionalText),
    ("parameters", .parameters), ("return_type", .optionalText), ("retained_params", .texts),
    ("semantic_facts", .texts)]

/-- The name of an export. -/
def exportName : Fact → String
  | .text name :: _ => name
  | _ => ""

/-- `ExternalCallFactV1` -/
def externalCallFields : FactFields :=
  [("function", .text), ("symbol", .text), ("call_chain", .texts)]

/-- The sections of the payload that are read alike and compared as sets. -/
inductive FactSection where
  | callEdges
  | resourceLifetimes
  | resourceTransfers
  | taskGroups
  | awaitSites
  | diagnostics
  deriving DecidableEq

namespace FactSection

def all : List FactSection :=
  [.callEdges, .resourceLifetimes, .resourceTransfers, .taskGroups, .awaitSites, .diagnostics]

def key : FactSection → String
  | .callEdges => "call_edges"
  | .resourceLifetimes => "resource_lifetimes"
  | .resourceTransfers => "resource_transfers"
  | .taskGroups => "task_groups"
  | .awaitSites => "await_sites"
  | .diagnostics => "diagnostics"

def fields : FactSection → FactFields
  | .callEdges => [("caller", .text), ("callee", .text)]
  | .resourceLifetimes =>
    [("function", .text), ("binding", .text), ("acquisition", .text), ("cleanup", .text),
      ("cleanup_on_cancellation", .flag)]
  | .resourceTransfers => [("function", .text), ("binding", .text), ("operation", .text)]
  | .taskGroups =>
    [("function", .text), ("spawned_tasks", .count), ("select_arms", .count),
      ("drains_on_exit", .flag), ("cleanup_on_cancellation", .flag)]
  | .awaitSites => [("function", .text), ("callee", .optionalText), ("live_across_await", .texts)]
  -- Without coordinates: moved source text makes no difference.
  | .diagnostics => [("code", .text), ("severity", .text), ("summary", .text), ("label", .text)]

end FactSection

/-- Facts of one kind. -/
structure Facts (fields : FactFields) where
  list : List Fact
  conform : ∀ fact ∈ list, fact.map Datum.kind = fields.map Prod.snd

/-- The counters of `PackageAnalysisSummaryV1`. -/
def summaryKeys : List String :=
  ["interface_files", "source_files", "public_types", "public_sum_types", "public_type_aliases",
    "public_consts", "public_functions", "mutating_apis", "retaining_apis", "resource_apis",
    "fresh_returning_apis", "async_apis", "await_sites", "diagnostics", "errors"]

structure PackageAnalysisSummary where
  counters : List UInt64
  length_eq : counters.length = summaryKeys.length

/-! ### Decoding -/

def asBool : Value → Option Bool
  | .bool value => some value
  | _ => none

def asU32 (value : Value) : Option UInt32 := do
  let number ← value.asU64
  if number < 2 ^ 32 then some (.ofNat number) else none

/-- The value of a field; that of an optional field may be missing. -/
def decodeValue (decode : FieldKind → Value → Option Datum) (kind : FieldKind) :
    Option Value → Option Datum
  | some value => decode kind value
  | none => if kind = .optionalText then some (.optionalText none) else none

def decodeEntry (decode : FieldKind → Value → Option Datum) (entries : List (String × Value))
    (field : String × FieldKind) : Option Datum :=
  decodeValue decode field.2 (SortedMap.get field.1 entries)

/-- A record as a derived decoder takes it: an object without unknown fields, or an array
with a value for each field. -/
def decodeRecord (decode : FieldKind → Value → Option Datum) (fields : FactFields) :
    Value → Option Fact
  | .object entries =>
    if ∀ key ∈ entries.map Prod.fst, key ∈ fields.map Prod.fst then
      fields.mapM (decodeEntry decode entries)
    else none
  | .array values =>
    if values.length = fields.length then
      (fields.zip values).mapM fun entry => decode entry.1.2 entry.2
    else none
  | _ => none

/-- A field that holds no records. -/
def decodeScalar : FieldKind → Value → Option Datum
  | .text, value => value.asStr.map .text
  | .optionalText, .null => some (.optionalText none)
  | .optionalText, value => value.asStr.map fun text => .optionalText (some text)
  | .texts, value => do return .texts (← (← value.asArray).mapM Value.asStr)
  | .flag, value => (asBool value).map .flag
  | .count, value => (asU32 value).map .count
  | .parameters, _ => none

def decodeParameter (item : Value) : Option FunctionParameterFact :=
  (decodeRecord decodeScalar parameterFields item).bind FunctionParameterFact.ofFact

/-- A field as the derived decoder reads it. -/
def decodeField (kind : FieldKind) (value : Value) : Option Datum :=
  if kind = .parameters then do
    return .parameters (← (← value.asArray).mapM decodeParameter)
  else decodeScalar kind value

/-- The facts of a list, which may be missing. -/
def decodeFacts (fields : FactFields) : Option Value → Option (List Fact)
  | none => some []
  | some value => do (← value.asArray).mapM (decodeRecord decodeField fields)

def sourceAnalysisSchema : String := "rsscript.source_analysis.v1"

/-- `SourceAnalysisV1` -/
structure SourceAnalysis where
  languageVersion : String
  snapshotDigest : String
  sources : List String
  exports : List Fact
  callEdges : List Fact
  externalCalls : List Fact
  deriving DecidableEq

/-- `SourceAnalysisV1::from_json` -/
def SourceAnalysis.fromJson (payload : Value) : Option SourceAnalysis := do
  let entries ← payload.asObject
  if (SortedMap.get "$schema" entries).bind Value.asStr = some sourceAnalysisSchema ∧
      ∀ key ∈ entries.map Prod.fst, key ∈ ["$schema", "language_version", "snapshot_digest",
        "sources", "exports", "call_edges", "external_calls"] then
    return {
      languageVersion := ← (SortedMap.get "language_version" entries).bind Value.asStr
      snapshotDigest := ← (SortedMap.get "snapshot_digest" entries).bind Value.asStr
      sources := ← (← (SortedMap.get "sources" entries).bind Value.asArray).mapM Value.asStr
      exports := ← decodeFacts exportFields (SortedMap.get "exports" entries)
      callEdges := ← decodeFacts FactSection.callEdges.fields (SortedMap.get "call_edges" entries)
      externalCalls := ← decodeFacts externalCallFields (SortedMap.get "external_calls" entries) }
  else none

/-- `PackageAnalysisV1`, as far as the diff reads it. -/
structure PackageAnalysis where
  exports : Facts exportFields
  externalCalls : Facts externalCallFields
  recursiveFunctions : List String
  facts : (kind : FactSection) → Facts kind.fields
  summary : PackageAnalysisSummary

/-- `AnalysisEnvelopeV1`: a source analysis keeps the JSON it was accepted from. -/
inductive AnalysisEnvelope where
  | source (payload : Value) (source : SourceAnalysis)
      (accepted : SourceAnalysis.fromJson payload = some source)
  | package (package : PackageAnalysis)

/-! ### The payload

The JSON that an analysis is written as. A field or section that the writer leaves out
when it is empty is written as `null` or `[]` here; both are read alike. -/

def texts (values : List String) : Value := .array (values.map .string)

def FunctionParameterFact.toJson (fact : FunctionParameterFact) : Value :=
  .object [("name", .string fact.name), ("effect", .string fact.effect),
    ("ty", .string fact.ty), ("retained", .bool fact.retained)]

def Datum.toJson : Datum → Value
  | .text value => .string value
  | .optionalText value => value.elim .null .string
  | .texts values => Artifact.texts values
  | .flag value => .bool value
  | .count value => .number (.posInt value.toUInt64)
  | .parameters values => .array (values.map FunctionParameterFact.toJson)

/-- A record as it is written. -/
def recordJson (fields : FactFields) (fact : Fact) : Value :=
  .object ((fields.map Prod.fst).zip (fact.map Datum.toJson))

def factsJson (fields : FactFields) (facts : List Fact) : Value :=
  .array (facts.map (recordJson fields))

def PackageAnalysisSummary.entries (summary : PackageAnalysisSummary) : List (String × Value) :=
  summaryKeys.zip (summary.counters.map fun counter => .number (.posInt counter))

/-- The payload of `AnalysisEnvelopeV1::source`. -/
def SourceAnalysis.payload (source : SourceAnalysis) : Value :=
  .object [("$schema", .string sourceAnalysisSchema),
    ("language_version", .string source.languageVersion),
    ("snapshot_digest", .string source.snapshotDigest), ("sources", texts source.sources),
    ("exports", factsJson exportFields source.exports),
    ("call_edges", factsJson FactSection.callEdges.fields source.callEdges),
    ("external_calls", factsJson externalCallFields source.externalCalls)]

/-- The payload of `AnalysisEnvelopeV1::package`: external calls are its external imports. -/
def PackageAnalysis.payload (package : PackageAnalysis) : Value :=
  .object (("exports", factsJson exportFields package.exports.list) ::
    ("external_imports", factsJson externalCallFields package.externalCalls.list) ::
    ("recursive_functions", texts package.recursiveFunctions) ::
    ("summary", .object package.summary.entries) ::
    FactSection.all.map fun kind => (kind.key, factsJson kind.fields (package.facts kind).list))

namespace AnalysisEnvelope

def payload : AnalysisEnvelope → Value
  | .source payload _ _ => payload
  | .package analysis => analysis.payload

def exports : AnalysisEnvelope → List Fact
  | .source _ analysis _ => analysis.exports
  | .package analysis => analysis.exports.list

def externalCalls : AnalysisEnvelope → List Fact
  | .source _ analysis _ => analysis.externalCalls
  | .package analysis => analysis.externalCalls.list

def recursiveFunctions : AnalysisEnvelope → List String
  | .source _ _ _ => []
  | .package analysis => analysis.recursiveFunctions

def facts : AnalysisEnvelope → FactSection → List Fact
  | .source _ analysis _, .callEdges => analysis.callEdges
  | .source _ _ _, _ => []
  | .package analysis, kind => (analysis.facts kind).list

def summary : AnalysisEnvelope → Option PackageAnalysisSummary
  | .source _ _ _ => none
  | .package analysis => some analysis.summary

end AnalysisEnvelope

/-! ### Reading the payload -/

/-- `value[key]`, which is `null` where the key is absent. -/
def index (value : Value) (key : String) : Value := (value.get key).getD .null

/-- The items of an array. -/
def items (value : Value) : List Value := value.asArray.getD []

/-- The facts read from an array; items that cannot be read are dropped. -/
def factsOf {F : Type} (read : Value → Option F) (value : Value) : List F :=
  (items value).filterMap read

def strings : Value → List String := factsOf Value.asStr

/-- A record is read if all its fields are. -/
def readRecord (read : FieldKind → Value → Option Datum) (fields : FactFields) (item : Value) :
    Option Fact :=
  fields.mapM fun field => read field.2 (index item field.1)

/-- A field that holds no records. -/
def readScalar : FieldKind → Value → Option Datum
  | .text, value => value.asStr.map .text
  | .optionalText, value => some (.optionalText value.asStr)
  | .texts, value => some (.texts (strings value))
  | .flag, value => (asBool value).map .flag
  | .count, value => (asU32 value).map .count
  | .parameters, _ => none

def readParameter (item : Value) : Option FunctionParameterFact :=
  (readRecord readScalar parameterFields item).bind FunctionParameterFact.ofFact

def analysisParameters : Value → List FunctionParameterFact := factsOf readParameter

/-- A field as the diff reads it. -/
def readField (kind : FieldKind) (value : Value) : Option Datum :=
  if kind = .parameters then some (.parameters (analysisParameters value))
  else readScalar kind value

/-- A fact as the diff reads it. -/
def readFact : FactFields → Value → Option Fact := readRecord readField

def analysisExports (analysis : Value) : List Fact :=
  factsOf (readFact exportFields) (index analysis "exports")

/-- The calls of a source analysis, or the external imports of a package. -/
def callsOf (analysis : Value) : Value :=
  match analysis.get "external_calls" with
  | some (.array calls) => .array calls
  | _ => index analysis "external_imports"

def analysisExternalCalls (analysis : Value) : List Fact :=
  factsOf (readFact externalCallFields) (callsOf analysis)

/-- `analysis_call_edges`, `analysis_resource_lifetimes`, `analysis_resource_transfers`,
`analysis_task_groups`, `analysis_await_sites` and `analysis_diagnostics`. -/
def analysisFacts (kind : FactSection) (analysis : Value) : List Fact :=
  factsOf (readFact kind.fields) (index analysis kind.key)

/-! ### What is read of a record that was decoded -/

def isObject : Value → Bool
  | .object _ => true
  | _ => false

/-- The parameters of an export are written as objects. -/
def parametersWritten (record : Value) : Prop :=
  ∀ parameter ∈ items (index record "parameters"), isObject parameter = true

section Records

variable {fields : FactFields} {fact : Fact} {entries : List (String × Value)} {record : Value}
  {read decode : FieldKind → Value → Option Datum}

theorem mapM_cons_eq_some {α β : Type} {f : α → Option β} {a : α} {as : List α} {bs : List β} :
    (a :: as).mapM f = some bs ↔ ∃ b rest, f a = some b ∧ as.mapM f = some rest ∧ b :: rest = bs := by
  simp [mapM_cons, Option.bind_eq_some_iff]

/-- What a list was decoded to, item by item. -/
theorem forall₂_of_mapM {α β : Type} {f : α → Option β} {as : List α} {bs : List β}
    (h : as.mapM f = some bs) :
    Forall₂ (fun a b => f a = some b) as bs := by
  induction as generalizing bs with
  | nil =>
    obtain rfl : [] = bs := by simpa using h
    exact .nil
  | cons a as ih =>
    obtain ⟨b, rest, hb, hrest, rfl⟩ := mapM_cons_eq_some.mp h
    exact .cons hb (ih hrest)

private theorem filterMap_of_forall₂ {α β : Type} {f : α → Option β} {as : List α} {bs : List β}
    (h : Forall₂ (fun a b => f a = some b) as bs) : as.filterMap f = bs := by
  induction h with
  | nil => rfl
  | cons head _ ih => rw [filterMap_cons_some head, ih]

theorem readScalar_of_decode (h : decodeScalar kind value = some datum) :
    readScalar kind value = some datum := by
  cases kind with
  | optionalText => cases value <;> simp_all [decodeScalar, readScalar, Value.asStr]
  | texts =>
    simp only [decodeScalar, Option.bind_eq_bind, Option.bind_eq_some_iff] at h
    obtain ⟨values, harray, texts, htexts, heq⟩ := h
    obtain rfl : Datum.texts texts = datum := by simpa using heq
    simp [readScalar, strings, factsOf, items, harray, filterMap_of_forall₂ (forall₂_of_mapM htexts)]
  | text | flag | count => exact h
  | parameters => cases h

/-- The field of an object is read as it was decoded, if its value is. -/
theorem read_of_decodeEntry
    (hfield : ∀ value, decode field.2 value = some datum → read field.2 value = some datum)
    (hmissing : read .optionalText .null = some (.optionalText none))
    (h : decodeEntry decode entries field = some datum) :
    read field.2 (index (.object entries) field.1) = some datum := by
  rw [decodeEntry] at h
  cases hget : SortedMap.get field.1 entries with
  | some value =>
    rw [hget] at h
    simpa [index, Value.get, hget] using hfield value h
  | none =>
    rw [hget] at h
    obtain ⟨hkind, hnone⟩ := Option.ite_none_right_eq_some.mp h
    rw [← Option.some.inj hnone]
    simpa [index, Value.get, hget, hkind] using hmissing

theorem readRecord_cons (hfield : read field.2 (index record field.1) = some datum)
    (hfields : readRecord read fields record = some fact) :
    readRecord read (field :: fields) record = some (datum :: fact) :=
  mapM_cons_eq_some.mpr ⟨datum, fact, hfield, hfields, rfl⟩

theorem readRecord_of_entries
    (hfields : ∀ field ∈ fields, ∀ value datum,
      decode field.2 value = some datum → read field.2 value = some datum)
    (hmissing : read .optionalText .null = some (.optionalText none))
    (h : fields.mapM (decodeEntry decode entries) = some fact) :
    readRecord read fields (.object entries) = some fact := by
  induction fields generalizing fact with
  | nil => exact h
  | cons field fields ih =>
    obtain ⟨hfield, hfields⟩ := forall_mem_cons.mp hfields
    obtain ⟨datum, rest, hdatum, hrest, rfl⟩ := mapM_cons_eq_some.mp h
    have hread := read_of_decodeEntry (fun value => hfield value datum) hmissing hdatum
    exact readRecord_cons hread (ih hfields hrest)

theorem decodeRecord_object (h : decodeRecord decode fields (.object entries) = some fact) :
    fields.mapM (decodeEntry decode entries) = some fact :=
  (Option.ite_none_right_eq_some.mp h).2

theorem exists_entries (h : isObject record = true) : ∃ entries, record = .object entries := by
  cases record <;> simp_all [isObject]

theorem index_not_object (h : isObject record = false) : index record key = .null := by
  cases record <;> first | rfl | cases h

/-- Nothing but an object has fields. -/
theorem readRecord_not_object (h : isObject record = false) (hread : read .text .null = none) :
    readRecord read ((name, .text) :: fields) record = none := by
  simp [readRecord, index_not_object h, hread]

private theorem readParameter_of_decode (h : decodeParameter record = some parameter) :
    readParameter record = if isObject record then some parameter else none := by
  obtain ⟨fact, hfact, hparameter⟩ := Option.bind_eq_some_iff.mp h
  cases hobject : isObject record with
  | false =>
    have hnone : readRecord readScalar parameterFields record = none :=
      readRecord_not_object hobject rfl
    rw [readParameter, hnone]
    rfl
  | true =>
    obtain ⟨entries, rfl⟩ := exists_entries hobject
    have hread := readRecord_of_entries (fun _ _ _ _ => readScalar_of_decode) rfl
      (decodeRecord_object hfact)
    rw [readParameter, hread, if_pos rfl]
    exact hparameter

/-- The parameters are all read if their records are objects. -/
theorem parameters_read_iff {records : List Value}
    (h : Forall₂ (fun record parameter => decodeParameter record = some parameter) records parameters) :
    records.filterMap readParameter = parameters ↔ ∀ record ∈ records, isObject record = true := by
  induction h with
  | nil => simp
  | @cons record parameter records parameters head tail ih =>
    have hread := readParameter_of_decode head
    cases hobject : isObject record with
    | true =>
      rw [hobject, if_pos rfl] at hread
      simp [filterMap_cons_some hread, ih, hobject]
    | false =>
      rw [hobject] at hread
      rw [filterMap_cons_none hread]
      -- one record is missing, so the lengths differ
      refine iff_of_false (fun hsame => ?_) (by simp [hobject])
      have hlength := congrArg length hsame
      have hle := length_filterMap_le readParameter records
      rw [length_cons, ← tail.length_eq] at hlength
      omega

theorem readField_of_decode (h : kind ≠ .parameters) (hdecode : decodeField kind value = some datum) :
    readField kind value = some datum := by
  rw [decodeField, if_neg h] at hdecode
  rw [readField, if_neg h]
  exact readScalar_of_decode hdecode

/-- Records of text and no parameters. -/
def Flat (fields : FactFields) : Prop :=
  (∃ name rest, fields = (name, FieldKind.text) :: rest) ∧
    ∀ field ∈ fields, field.2 ≠ FieldKind.parameters

theorem flat_externalCallFields : Flat externalCallFields := ⟨⟨_, _, rfl⟩, by decide⟩

theorem FactSection.flat (kind : FactSection) : Flat kind.fields := by
  cases kind <;> exact ⟨⟨_, _, rfl⟩, by decide⟩

theorem readFact_of_decode (flat : Flat fields)
    (h : decodeRecord decodeField fields record = some fact) :
    readFact fields record = if isObject record then some fact else none := by
  obtain ⟨⟨name, rest, rfl⟩, hscalar⟩ := flat
  cases hobject : isObject record with
  | false => exact readRecord_not_object hobject rfl
  | true =>
    obtain ⟨entries, rfl⟩ := exists_entries hobject
    exact readRecord_of_entries (fun field mem _ _ => readField_of_decode (hscalar field mem)) rfl
      (decodeRecord_object h)

private theorem decodeEntry_parameters
    (h : decodeEntry decodeField entries ("parameters", .parameters) = some datum) :
    ∃ parameters, datum = .parameters parameters ∧
      Forall₂ (fun item parameter => decodeParameter item = some parameter)
        (items (index (.object entries) "parameters")) parameters := by
  rw [decodeEntry] at h
  cases hget : SortedMap.get "parameters" entries with
  | none => simp [hget, decodeValue] at h
  | some value =>
    simp only [hget, decodeValue, decodeField, ↓reduceIte, Option.bind_eq_bind,
      Option.bind_eq_some_iff] at h
    obtain ⟨records, harray, parameters, hparameters, heq⟩ := h
    refine ⟨parameters, by simpa using heq.symm, ?_⟩
    simpa [index, Value.get, hget, items, harray] using forall₂_of_mapM hparameters

theorem eq_string_of_asStr {value : Value} (h : value.asStr = some text) : value = .string text := by
  cases value <;> simp_all [Value.asStr]

/-- The name of an export that is an object. -/
theorem index_name_of_decode (hobject : isObject record = true)
    (h : decodeRecord decodeField exportFields record = some fact) :
    index record "name" = .string (exportName fact) := by
  obtain ⟨entries, rfl⟩ := exists_entries hobject
  obtain ⟨name, _, hname, _, rfl⟩ := mapM_cons_eq_some.mp (decodeRecord_object h)
  have hread : readField .text (index (.object entries) "name") = some name :=
    read_of_decodeEntry (fun _ => readField_of_decode (by decide)) rfl hname
  obtain ⟨text, htext, rfl⟩ := Option.map_eq_some_iff.mp hread
  exact eq_string_of_asStr htext

/-- An export is read under its name; parameters that are no objects are missing. -/
theorem readExport_of_decode (hobject : isObject record = true)
    (h : decodeRecord decodeField exportFields record = some fact) :
    ∃ seen, readFact exportFields record = some seen ∧ exportName seen = exportName fact ∧
      (seen = fact ↔ parametersWritten record) := by
  obtain ⟨entries, rfl⟩ := exists_entries hobject
  obtain ⟨name, _, hname, afterName, rfl⟩ := mapM_cons_eq_some.mp (decodeRecord_object h)
  obtain ⟨kind, _, hkind, afterKind, rfl⟩ := mapM_cons_eq_some.mp afterName
  obtain ⟨functionKind, _, hfunction, afterFunction, rfl⟩ := mapM_cons_eq_some.mp afterKind
  obtain ⟨_, rest, hparameters, hrest, rfl⟩ := mapM_cons_eq_some.mp afterFunction
  obtain ⟨parameters, rfl, hdecoded⟩ := decodeEntry_parameters hparameters
  have hscalar : ∀ field datum, field.2 ≠ .parameters →
      decodeEntry decodeField entries field = some datum →
      readField field.2 (index (.object entries) field.1) = some datum :=
    fun field datum hkind => read_of_decodeEntry (fun _ => readField_of_decode hkind) rfl
  have hread : readRecord readField [("return_type", .optionalText), ("retained_params", .texts),
      ("semantic_facts", .texts)] (.object entries) = some rest :=
    readRecord_of_entries (fun field mem _ _ => readField_of_decode (by revert field; decide)) rfl hrest
  refine ⟨name :: kind :: functionKind ::
    .parameters (analysisParameters (index (.object entries) "parameters")) :: rest, ?_,
    by cases name <;> rfl, ?_⟩
  · refine readRecord_cons (hscalar _ _ (by decide) hname) ?_
    refine readRecord_cons (hscalar _ _ (by decide) hkind) ?_
    refine readRecord_cons (hscalar _ _ (by decide) hfunction) ?_
    exact readRecord_cons rfl hread
  · simpa [analysisParameters, factsOf, parametersWritten] using parameters_read_iff hdecoded

end Records

/-! ### Reading what was written -/

section RoundTrip

variable {fields : FactFields} {fact : Fact}

theorem mapM_of_map {α β : Type} {f : α → Option β} {as : List α} {bs : List β}
    (h : as.map f = bs.map some) : as.mapM f = some bs := by
  induction as generalizing bs with
  | nil =>
    obtain rfl : bs = [] := by simpa using h.symm
    rfl
  | cons a as ih =>
    obtain ⟨b, bs, rfl, hb, hbs⟩ := map_eq_cons_iff.mp h.symm
    exact mapM_cons_eq_some.mpr ⟨b, bs, hb.symm, ih hbs.symm, rfl⟩

theorem mapM_map_write {α β : Type} {f : α → Option β} {write : β → α} {bs : List β}
    (h : ∀ b ∈ bs, f (write b) = some b) : (bs.map write).mapM f = some bs := by
  refine mapM_of_map ?_
  rw [map_map]
  exact map_congr_left h

private theorem asU32_ofUInt32 : asU32 (.number (.posInt value.toUInt64)) = some value := by
  simp [asU32, Value.asU64, Number.asU64, value.toNat_lt]

private theorem decodeParameter_toJson (parameter : FunctionParameterFact) :
    decodeParameter parameter.toJson = some parameter := rfl

theorem decodeField_toJson (datum : Datum) :
    decodeField datum.kind datum.toJson = some datum := by
  cases datum with
  | text value => rfl
  | optionalText value => cases value <;> rfl
  | texts values =>
    have htexts : (values.map Value.string).mapM Value.asStr = some values :=
      mapM_map_write fun _ _ => rfl
    simp [Datum.kind, Datum.toJson, Artifact.texts, decodeField, decodeScalar, Value.asArray, htexts]
  | flag value => rfl
  | count value => exact congrArg (Option.map Datum.count) asU32_ofUInt32
  | parameters values =>
    have hvalues : (values.map FunctionParameterFact.toJson).mapM decodeParameter = some values :=
      mapM_map_write fun _ _ => decodeParameter_toJson _
    simp [Datum.kind, Datum.toJson, decodeField, Value.asArray, hvalues]

theorem readField_toJson (datum : Datum) : readField datum.kind datum.toJson = some datum := by
  cases datum with
  | parameters values =>
    have hvalues : (values.map FunctionParameterFact.toJson).filterMap readParameter = values := by
      rw [filterMap_map]
      exact (filterMap_congr fun _ _ => rfl).trans filterMap_some
    exact congrArg (some ∘ Datum.parameters) hvalues
  | text | optionalText | texts | flag | count =>
    exact readField_of_decode (by simp [Datum.kind]) (decodeField_toJson _)

/-- The fields of a written record are those of the fact. -/
theorem mapM_fields_written (step : FieldKind → Option Value → Option Datum)
    (hstep : ∀ datum, step (Datum.kind datum) (some datum.toJson) = some datum)
    (names : (fields.map Prod.fst).Nodup) (conforms : fact.map Datum.kind = fields.map Prod.snd) :
    (fields.mapM fun field => step field.2
      (SortedMap.get field.1 ((fields.map Prod.fst).zip (fact.map Datum.toJson)))) = some fact := by
  have hlength : (fields.map Prod.fst).length = (fact.map Datum.toJson).length := by
    simpa using (congrArg length conforms).symm
  have hentries := congrArg₂ (zipWith step) conforms.symm (SortedMap.map_get_zip names hlength)
  simp only [map_map, zipWith_map, zipWith_self, Function.comp_def, hstep] at hentries
  exact mapM_of_map hentries

theorem decodeRecord_recordJson (names : (fields.map Prod.fst).Nodup)
    (conforms : fact.map Datum.kind = fields.map Prod.snd) :
    decodeRecord decodeField fields (recordJson fields fact) = some fact := by
  have hlength : (fields.map Prod.fst).length = (fact.map Datum.toJson).length := by
    simpa using (congrArg length conforms).symm
  have hkeys := map_fst_zip hlength.le
  rw [recordJson, decodeRecord, if_pos (by simp [hkeys])]
  exact mapM_fields_written (decodeValue decodeField) decodeField_toJson names conforms

private theorem readFact_recordJson (names : (fields.map Prod.fst).Nodup)
    (conforms : fact.map Datum.kind = fields.map Prod.snd) :
    readFact fields (recordJson fields fact) = some fact :=
  mapM_fields_written (fun kind value => readField kind (value.getD .null)) readField_toJson
    names conforms

private theorem kind_of_readField (h : readField kind value = some datum) : datum.kind = kind := by
  cases kind with
  | optionalText | texts | parameters =>
    obtain rfl := Option.some.inj h
    rfl
  | text | flag | count =>
    obtain ⟨_, _, rfl⟩ := Option.map_eq_some_iff.mp h
    rfl

/-- What is read of a record has the fields of its kind. -/
theorem readFact_conforms (h : readFact fields record = some fact) :
    fact.map Datum.kind = fields.map Prod.snd := by
  have hread := forall₂_of_mapM h
  clear h
  induction hread with
  | nil => rfl
  | cons head _ ih => exact congrArg₂ cons (kind_of_readField head) ih

theorem factsOf_factsJson (names : (fields.map Prod.fst).Nodup) (facts : Facts fields) :
    factsOf (readFact fields) (factsJson fields facts.list) = facts.list := by
  rw [factsOf, items, factsJson, Value.asArray, Option.getD_some, filterMap_map]
  exact (filterMap_congr fun fact mem =>
    readFact_recordJson names (facts.conform fact mem)).trans filterMap_some

/-- The facts that are read from an array. -/
def Facts.read (fields : FactFields) (value : Value) : Facts fields where
  list := factsOf (readFact fields) value
  conform := by
    intro fact mem
    obtain ⟨record, _, read⟩ := mem_filterMap.mp mem
    exact readFact_conforms read

end RoundTrip

/-! ### The facts of an envelope -/

def exportRecords (analysis : Value) : List Value := items (index analysis "exports")

def callRecords (analysis : Value) : List Value := items (callsOf analysis)

def factRecords (kind : FactSection) (analysis : Value) : List Value :=
  items (index analysis kind.key)

/-- The facts that records were decoded to. -/
def Decoded (fields : FactFields) (records : List Value) (facts : List Fact) : Prop :=
  Forall₂ (fun record fact => decodeRecord decodeField fields record = some fact) records facts

section Envelope

variable {fields : FactFields} {payload : Value} {analysis : SourceAnalysis}

theorem decoded_factsJson (names : (fields.map Prod.fst).Nodup) (facts : Facts fields) :
    Decoded fields (items (factsJson fields facts.list)) facts.list := by
  rw [Decoded, items, factsJson, Value.asArray, Option.getD_some, forall₂_map_left_iff,
    forall₂_same]
  exact fun fact mem => decodeRecord_recordJson names (facts.conform fact mem)

theorem decoded_of_decodeFacts (h : decodeFacts fields value = some facts) :
    Decoded fields (items (value.getD .null)) facts := by
  cases value with
  | none =>
    obtain rfl := Option.some.inj h
    exact .nil
  | some value =>
    simp only [decodeFacts, Option.bind_eq_bind, Option.bind_eq_some_iff] at h
    obtain ⟨records, harray, hfacts⟩ := h
    simpa [items, harray, Decoded] using forall₂_of_mapM hfacts

/-- What is known of an accepted payload. -/
theorem SourceAnalysis.of_fromJson (h : SourceAnalysis.fromJson payload = some analysis) :
    (∀ key, key ∉ ["$schema", "language_version", "snapshot_digest", "sources", "exports",
      "call_edges", "external_calls"] → payload.get key = none) ∧
    decodeFacts exportFields (payload.get "exports") = some analysis.exports ∧
    decodeFacts FactSection.callEdges.fields (payload.get "call_edges") = some analysis.callEdges ∧
    decodeFacts externalCallFields (payload.get "external_calls") = some analysis.externalCalls := by
  simp only [fromJson, Option.bind_eq_bind, Option.bind_eq_some_iff] at h
  obtain ⟨entries, hentries, h⟩ := h
  obtain ⟨⟨_, hkeys⟩, h⟩ := Option.ite_none_right_eq_some.mp h
  obtain rfl : payload = .object entries := by cases payload <;> simp_all [Value.asObject]
  simp only [Option.bind_eq_some_iff] at h
  obtain ⟨_, _, _, _, _, _, _, _, exports, hexports, edges, hedges, calls, hcalls, heq⟩ := h
  obtain rfl := Option.some.inj heq
  refine ⟨fun key hkey => ?_, hexports, hedges, hcalls⟩
  rw [Value.get, SortedMap.get_eq_none_iff]
  exact fun mem => hkey (hkeys key mem)

/-- A source analysis is accepted as it is written. -/
theorem SourceAnalysis.fromJson_payload (exports : Facts exportFields)
    (callEdges : Facts FactSection.callEdges.fields) (externalCalls : Facts externalCallFields)
    (hexports : analysis.exports = exports.list) (hedges : analysis.callEdges = callEdges.list)
    (hcalls : analysis.externalCalls = externalCalls.list) :
    SourceAnalysis.fromJson analysis.payload = some analysis := by
  have hfacts : ∀ {fields : FactFields} (facts : Facts fields), (fields.map Prod.fst).Nodup →
      decodeFacts fields (some (factsJson fields facts.list)) = some facts.list :=
    fun facts names => mapM_map_write fun fact mem =>
      decodeRecord_recordJson names (facts.conform fact mem)
  have hsources : (analysis.sources.map Value.string).mapM Value.asStr = some analysis.sources :=
    mapM_map_write fun _ _ => rfl
  have hexports' := hfacts exports (by decide)
  have hedges' := hfacts callEdges (by decide)
  have hcalls' := hfacts externalCalls (by decide)
  rw [← hexports] at hexports'
  rw [← hedges] at hedges'
  rw [← hcalls] at hcalls'
  simp only [fromJson, payload, Value.asObject, Option.bind_eq_bind, Option.bind_some]
  rw [if_pos ⟨rfl, fun _ mem => mem⟩]
  -- the fields are read one after the other, each where the table has it
  iterate 3 refine Option.bind_eq_some_iff.mpr ⟨_, rfl, ?_⟩
  refine Option.bind_eq_some_iff.mpr ⟨_, hsources, Option.bind_eq_some_iff.mpr ⟨_, hexports', ?_⟩⟩
  exact Option.bind_eq_some_iff.mpr ⟨_, hedges', Option.bind_eq_some_iff.mpr ⟨_, hcalls', rfl⟩⟩

namespace AnalysisEnvelope

variable (envelope : AnalysisEnvelope)

theorem decoded_exports : Decoded exportFields (exportRecords envelope.payload) envelope.exports := by
  cases envelope with
  | source payload analysis accepted =>
    exact decoded_of_decodeFacts (SourceAnalysis.of_fromJson accepted).2.1
  | package analysis => exact decoded_factsJson (by decide) analysis.exports

theorem decoded_externalCalls :
    Decoded externalCallFields (callRecords envelope.payload) envelope.externalCalls := by
  cases envelope with
  | source payload analysis accepted =>
    obtain ⟨hkeys, _, _, hcalls⟩ := SourceAnalysis.of_fromJson accepted
    have hdecoded := decoded_of_decodeFacts hcalls
    have hrecords : callRecords payload = items ((payload.get "external_calls").getD .null) := by
      rw [callRecords, callsOf]
      cases hget : payload.get "external_calls" with
      | none => simp [index, hkeys "external_imports" (by decide)]
      | some value =>
        cases value with
        | array => rfl
        | null | bool | number | string | object => simp [hget, decodeFacts, Value.asArray] at hcalls
    rw [← hrecords] at hdecoded
    exact hdecoded
  | package analysis => exact decoded_factsJson (by decide) analysis.externalCalls

theorem decoded_facts (kind : FactSection) :
    Decoded kind.fields (factRecords kind envelope.payload) (envelope.facts kind) := by
  cases envelope with
  | source payload analysis accepted =>
    obtain ⟨hkeys, _, hedges, _⟩ := SourceAnalysis.of_fromJson accepted
    -- a source analysis has no other section
    have hmissing : kind ≠ .callEdges → payload.get kind.key = none := fun hkind =>
      hkeys kind.key (by cases kind <;> first | decide | exact absurd rfl hkind)
    cases kind with
    | callEdges => exact decoded_of_decodeFacts hedges
    | resourceLifetimes | resourceTransfers | taskGroups | awaitSites | diagnostics =>
      simp [factRecords, AnalysisEnvelope.payload, index, hmissing, facts, items, Value.asArray,
        Decoded]
  | package analysis =>
    cases kind <;> exact decoded_factsJson (by decide) (analysis.facts _)

theorem strings_recursiveFunctions :
    strings (index envelope.payload "recursive_functions") = envelope.recursiveFunctions := by
  cases envelope with
  | source payload analysis accepted =>
    have hmissing := (SourceAnalysis.of_fromJson accepted).1 "recursive_functions" (by decide)
    simp [AnalysisEnvelope.payload, index, hmissing, recursiveFunctions, strings, factsOf, items,
      Value.asArray]
  | package analysis =>
    have hread : (analysis.recursiveFunctions.map Value.string).filterMap Value.asStr =
        analysis.recursiveFunctions := by
      rw [filterMap_map]
      exact (filterMap_congr fun _ _ => rfl).trans filterMap_some
    exact hread

end AnalysisEnvelope

end Envelope

end RSScript.Artifact
