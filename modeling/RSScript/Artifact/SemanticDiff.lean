import Mathlib.Data.Finset.Sort
import Mathlib.Data.List.Dedup
import RSScript.Abi.Wire
import RSScript.Artifact.AnalysisPayload

/-!
# The semantic diff of two artifact bundles

`SemanticDiffV2::between` compares fact by fact what two bundles carry: imports, contracts
and exports through maps by symbol or name, the other facts as sets, and the summary
counter by counter. The analysis is read from its JSON payload.

The diff is antisymmetric. It is complete for bundles whose payload shows what they carry
(`Faithful`) and that have one schema (`between_complete_iff`): records that are no
objects are dropped, exports that share a name collapse to the last one, and counters are
compared only if both sides have a summary.
-/

namespace RSScript.Artifact

open RSScript.Abi RSScript.Bytecode SortedMap
open List hiding after count swap

/-! ### The diff -/

/-- A fact under one key, before and after. -/
structure ChangedFact (F : Type) where
  key : String
  old : F
  new : F

/-- What was added, removed and changed. -/
structure FactSetDiff (F : Type) where
  added : List F
  removed : List F
  changed : List (ChangedFact F)

def ChangedFact.swap {F : Type} (fact : ChangedFact F) : ChangedFact F :=
  ⟨fact.key, fact.new, fact.old⟩

namespace FactSetDiff

variable {F : Type}

def isEmpty (diff : FactSetDiff F) : Bool :=
  diff.added.isEmpty && diff.removed.isEmpty && diff.changed.isEmpty

/-- The diff of the other direction. -/
def swap (diff : FactSetDiff F) : FactSetDiff F :=
  ⟨diff.removed, diff.added, diff.changed.map ChangedFact.swap⟩

end FactSetDiff

section Diffs

variable {F : Type} [DecidableEq F]

/-- The facts by key; of facts with one key the last one is kept. -/
def factMap (key : F → String) (facts : List F) : List (String × F) :=
  SortedMap.insertAll [] (facts.map fun fact => (key fact, fact))

/-- `keyed_diff`: two lists of facts through maps by key. -/
def keyedDiff (key : F → String) (old new : List F) : FactSetDiff F :=
  let old := factMap key old
  let new := factMap key new
  { added := (new.filter fun entry => (SortedMap.get entry.1 old).isNone).map Prod.snd
    removed := (old.filter fun entry => (SortedMap.get entry.1 new).isNone).map Prod.snd
    changed := new.filterMap fun entry => do
      let previous ← SortedMap.get entry.1 old
      if previous ≠ entry.2 then some ⟨entry.1, previous, entry.2⟩ else none }

/-- The elements of a `BTreeSet`, in its order. -/
def asSet [Ord F] (facts : List F) : List F :=
  facts.dedup.insertionSort fun left right => (compare left right).isLE

/-- `set_diff`: facts without a key. -/
def setDiff [Ord F] (old new : List F) : FactSetDiff F :=
  { added := (asSet new).filter (· ∉ asSet old)
    removed := (asSet old).filter (· ∉ asSet new)
    changed := [] }

end Diffs

structure CountChange where
  old : Nat
  new : Nat

def counter (entries : List (String × Value)) (key : String) : Nat :=
  ((SortedMap.get key entries).bind Value.asU64).getD 0

local instance isTransString : IsTrans String (· ≤ ·) := inferInstance
local instance antisymmString : @Std.Antisymm String (· ≤ ·) := inferInstance

/-- The counters that differ, if both sides have a summary. -/
def summaryDiff (old new : Value) : List (String × CountChange) :=
  match (index old "summary").asObject, (index new "summary").asObject with
  | some old, some new =>
    (((old ++ new).map Prod.fst).toFinset.sort (· ≤ ·)).filterMap fun key =>
      if counter old key ≠ counter new key then some (key, ⟨counter old key, counter new key⟩)
      else none
  | _, _ => []

structure ArtifactIdentity where
  bundleDigest : String
  moduleDigest : String
  snapshotDigest : String
  sourceContentHash : String
  interfaceCatalogDigest : String

structure InterfaceRequirement where
  symbol : String
  signatureHash : String
  abiVersion : UInt32
  deriving DecidableEq

structure ExternalContractFact where
  symbol : String
  abiVersion : UInt32
  signatureHash : String
  signature : FunctionSignature
  deriving DecidableEq

/-- What the diff reads of an `ArtifactBundle`. Its imports are those of the artifact it
was opened with, which are strictly ascending by symbol. -/
structure ArtifactBundle where
  identity : ArtifactIdentity
  imports : List ExternalImport
  sorted : imports.Pairwise fun left right => left.symbol < right.symbol
  analysis : AnalysisEnvelope

def requiredInterfaces (bundle : ArtifactBundle) : List InterfaceRequirement :=
  bundle.imports.map fun item => ⟨item.symbol, item.signatureHash, item.abiVersion⟩

def externalContracts (bundle : ArtifactBundle) : List ExternalContractFact :=
  bundle.imports.map fun item =>
    ⟨item.symbol, item.abiVersion, item.signatureHash, item.signature⟩

structure SemanticDiff where
  old : ArtifactIdentity
  new : ArtifactIdentity
  imports : FactSetDiff InterfaceRequirement
  externalContracts : FactSetDiff ExternalContractFact
  exports : FactSetDiff Fact
  externalCalls : FactSetDiff Fact
  recursiveFunctions : FactSetDiff String
  facts : FactSection → FactSetDiff Fact
  summary : List (String × CountChange)

namespace SemanticDiff

/-- `SemanticDiffV2::between` -/
def between (old new : ArtifactBundle) : SemanticDiff :=
  let before := old.analysis.payload
  let after := new.analysis.payload
  { old := old.identity
    new := new.identity
    imports := keyedDiff (·.symbol) (requiredInterfaces old) (requiredInterfaces new)
    externalContracts :=
      keyedDiff (·.symbol) (Artifact.externalContracts old) (Artifact.externalContracts new)
    exports := keyedDiff exportName (analysisExports before) (analysisExports after)
    externalCalls := setDiff (analysisExternalCalls before) (analysisExternalCalls after)
    recursiveFunctions := setDiff (strings (index before "recursive_functions"))
      (strings (index after "recursive_functions"))
    facts := fun kind => setDiff (analysisFacts kind before) (analysisFacts kind after)
    summary := summaryDiff before after }

def isEmpty (diff : SemanticDiff) : Bool :=
  diff.imports.isEmpty && diff.externalContracts.isEmpty && diff.exports.isEmpty &&
    diff.externalCalls.isEmpty && diff.recursiveFunctions.isEmpty &&
    FactSection.all.all (fun kind => (diff.facts kind).isEmpty) && diff.summary.isEmpty

/-- The diff of the other direction: additions are removals, and what changed changed
back. -/
def swap (diff : SemanticDiff) : SemanticDiff :=
  { old := diff.new
    new := diff.old
    imports := diff.imports.swap
    externalContracts := diff.externalContracts.swap
    exports := diff.exports.swap
    externalCalls := diff.externalCalls.swap
    recursiveFunctions := diff.recursiveFunctions.swap
    facts := fun kind => (diff.facts kind).swap
    summary := diff.summary.map fun (key, change) => (key, ⟨change.new, change.old⟩) }

end SemanticDiff

/-! ### Antisymmetry -/

section Swap

variable {F : Type} {old : List F}

theorem factMap_sorted : SortedMap.Sorted (factMap key facts) := insertAll_sorted Pairwise.nil

variable [DecidableEq F]

theorem mem_changed : fact ∈ (keyedDiff key old new).changed ↔
    SortedMap.get fact.key (factMap key old) = some fact.old ∧
    SortedMap.get fact.key (factMap key new) = some fact.new ∧ fact.old ≠ fact.new := by
  obtain ⟨name, previous, item⟩ := fact
  simp only [keyedDiff, mem_filterMap, Option.bind_eq_bind, Option.bind_eq_some_iff,
    Option.ite_none_right_eq_some, Option.some.injEq, ChangedFact.mk.injEq,
    ← (factMap_sorted).mem_iff_get]
  constructor
  · rintro ⟨entry, mem, _, get, ne, rfl, rfl, rfl⟩
    exact ⟨get, mem, ne⟩
  · rintro ⟨get, mem, ne⟩
    exact ⟨(name, item), mem, previous, get, ne, rfl, rfl, rfl⟩

theorem changed_sorted : (keyedDiff key old new).changed.Pairwise
    fun left right => left.key < right.key := by
  refine Pairwise.filterMap _ (fun left right lt fact mem fact' mem' => ?_)
    factMap_sorted
  simp only [Option.bind_eq_bind, Option.bind_eq_some_iff, Option.ite_none_right_eq_some,
    Option.some.injEq] at mem mem'
  obtain ⟨_, _, _, rfl⟩ := mem
  obtain ⟨_, _, _, rfl⟩ := mem'
  exact lt

theorem keyedDiff_swap : keyedDiff key new old = (keyedDiff key old new).swap := by
  have nodup : ∀ {facts : List (ChangedFact F)},
      facts.Pairwise (fun left right => left.key < right.key) → facts.Nodup :=
    fun h => h.imp fun lt same => lt.ne (congrArg ChangedFact.key same)
  have there : ((keyedDiff key old new).changed.map ChangedFact.swap).Pairwise
      (fun left right => left.key < right.key) := pairwise_map.mpr changed_sorted
  have perm : (keyedDiff key new old).changed.Perm
      ((keyedDiff key old new).changed.map ChangedFact.swap) := by
    refine (perm_ext_iff_of_nodup (nodup changed_sorted) (nodup there)).mpr fun fact => ?_
    simp only [mem_map, mem_changed]
    constructor
    · rintro ⟨old_get, new_get, ne⟩
      exact ⟨fact.swap, ⟨new_get, old_get, ne.symm⟩, rfl⟩
    · rintro ⟨other, ⟨old_get, new_get, ne⟩, rfl⟩
      exact ⟨new_get, old_get, ne.symm⟩
  have same := perm.eq_of_pairwise
    (fun _ _ _ _ lt gt => absurd (lt.trans gt) (lt_irrefl _)) changed_sorted there
  rw [FactSetDiff.swap, ← same]
  rfl

theorem summaryDiff_swap (old : Value) : summaryDiff new old =
    (summaryDiff old new).map fun (key, change) => (key, ⟨change.new, change.old⟩) := by
  unfold summaryDiff
  cases (index old "summary").asObject with
  | none => cases (index new "summary").asObject <;> rfl
  | some before =>
    cases (index new "summary").asObject with
    | none => rfl
    | some after =>
      have keys : ((after ++ before).map Prod.fst).toFinset =
          ((before ++ after).map Prod.fst).toFinset := by
        simp [Finset.union_comm]
      simp only [keys, map_filterMap]
      refine filterMap_congr fun key _ => ?_
      by_cases same : counter before key = counter after key
      · simp [same]
      · simp [same, Ne.symm same]

theorem SemanticDiff.between_swap (old new : ArtifactBundle) :
    between new old = (between old new).swap := by
  simp only [between, swap, ← keyedDiff_swap, ← summaryDiff_swap]
  rfl

end Swap

/-! ### Completeness -/

section Complete

variable {F : Type} {key : F → String} {facts old : List F}

def SameMembers (left right : List F) : Prop := ∀ fact, fact ∈ left ↔ fact ∈ right

theorem SameMembers.congr (hleft : SameMembers left left') (hright : SameMembers right right') :
    SameMembers left right ↔ SameMembers left' right' :=
  forall_congr' fun fact => by rw [hleft fact, hright fact]

/-- A key is that of one fact only. -/
def KeyIdentifies (key : F → String) (facts : List F) : Prop :=
  ∀ fact ∈ facts, ∀ other ∈ facts, key fact = key other → fact = other

theorem get_factMap_mem (h : SortedMap.get name (factMap key facts) = some fact) :
    fact ∈ facts ∧ key fact = name := by
  have mem := (get_insertAll h).resolve_right (by simp [SortedMap.get])
  simpa using mem

theorem get_factMap (identifies : KeyIdentifies key facts) (mem : fact ∈ facts) :
    SortedMap.get (key fact) (factMap key facts) = some fact := by
  cases h : get (key fact) (factMap key facts) with
  | none =>
    refine absurd h (get_insertAll_ne_none (.inl ?_))
    simpa using ⟨fact, mem, rfl⟩
  | some other =>
    obtain ⟨other_mem, same⟩ := get_factMap_mem h
    rw [identifies other other_mem fact mem same]

/-- The facts that are kept of those with one key. -/
def lastOfKey (key : F → String) (facts : List F) : List F :=
  (factMap key facts).map Prod.snd

theorem factMap_lastOfKey : factMap key (lastOfKey key facts) = factMap key facts := by
  have entries : (lastOfKey key facts).map (fun fact => (key fact, fact)) = factMap key facts := by
    rw [lastOfKey, map_map]
    refine (map_congr_left fun entry mem => ?_).trans (map_id _)
    have get := (factMap_sorted).mem_iff_get.mp mem
    simp [(get_factMap_mem get).2]
  rw [factMap, entries]
  exact insertAll_eq_of_perm factMap_sorted (Perm.refl _)

theorem lastOfKey_lastOfKey : lastOfKey key (lastOfKey key facts) = lastOfKey key facts := by
  rw [lastOfKey, factMap_lastOfKey]
  rfl

theorem mem_lastOfKey_iff_get : fact ∈ lastOfKey key facts ↔
    SortedMap.get (key fact) (factMap key facts) = some fact := by
  rw [lastOfKey, mem_map]
  constructor
  · rintro ⟨⟨name, _⟩, mem, rfl⟩
    have get := (factMap_sorted).mem_iff_get.mp mem
    rwa [← (get_factMap_mem get).2] at get
  · exact fun get => ⟨_, get_mem get, rfl⟩

/-- A fact is the last of its key, in a list that is added to a map. -/
theorem get_insertAll_iff {entries : List (String × F)} :
    SortedMap.get (key fact) (insertAll entries (facts.map fun item => (key item, item))) = some fact ↔
      (∃ before after, facts = before ++ fact :: after ∧ ∀ other ∈ after, key other ≠ key fact) ∨
      SortedMap.get (key fact) entries = some fact ∧ ∀ other ∈ facts, key other ≠ key fact := by
  induction facts generalizing entries with
  | nil => simp [insertAll]
  | cons item facts ih =>
    have step : insertAll entries ((item :: facts).map fun item => (key item, item)) =
        insertAll (SortedMap.insert (key item) item entries)
          (facts.map fun item => (key item, item)) := rfl
    rw [step, ih, forall_mem_cons]
    constructor
    · rintro (⟨before, after, rfl, later⟩ | ⟨get, later⟩)
      · exact .inl ⟨item :: before, after, rfl, later⟩
      · by_cases same : key fact = key item
        · rw [same, get_insert_self, Option.some_inj] at get
          exact .inl ⟨[], facts, by rw [get]; rfl, later⟩
        · rw [get_insert_of_ne same] at get
          exact .inr ⟨get, Ne.symm same, later⟩
    · rintro (⟨before, after, split, later⟩ | ⟨get, differs, later⟩)
      · cases before with
        | nil =>
          obtain ⟨rfl, rfl⟩ := cons.inj split
          exact .inr ⟨get_insert_self, later⟩
        | cons _ before => exact .inl ⟨before, after, (cons.inj split).2, later⟩
      · exact .inr ⟨(get_insert_of_ne differs.symm).trans get, later⟩

/-- A fact is kept if no later one has its key. -/
theorem mem_lastOfKey_iff : fact ∈ lastOfKey key facts ↔
    ∃ before after, facts = before ++ fact :: after ∧ ∀ other ∈ after, key other ≠ key fact := by
  rw [mem_lastOfKey_iff_get, factMap, get_insertAll_iff]
  simp [SortedMap.get]

theorem mem_of_mem_lastOfKey (h : fact ∈ lastOfKey key facts) : fact ∈ facts := by
  obtain ⟨before, after, rfl, _⟩ := mem_lastOfKey_iff.mp h
  simp

theorem eq_of_mem_lastOfKey (h : fact ∈ lastOfKey key facts) (other_mem : other ∈ lastOfKey key facts)
    (same : key fact = key other) : fact = other := by
  rw [mem_lastOfKey_iff_get] at h other_mem
  exact Option.some.inj (h.symm.trans (same ▸ other_mem))

variable [DecidableEq F]

theorem isEmpty_setDiff [Ord F] : (setDiff old new).isEmpty ↔ SameMembers old new := by
  simp only [SameMembers, setDiff, FactSetDiff.isEmpty, asSet, Bool.and_eq_true, List.isEmpty_iff,
    filter_eq_nil_iff, mem_insertionSort, mem_dedup, decide_eq_true_eq, not_not]
  grind

theorem isEmpty_keyedDiff : (keyedDiff key old new).isEmpty ↔
    ∀ name, SortedMap.get name (factMap key old) = SortedMap.get name (factMap key new) := by
  have empty_iff : (keyedDiff key old new).isEmpty ↔
      (∀ entry ∈ factMap key new, get entry.1 (factMap key old) ≠ none) ∧
      (∀ entry ∈ factMap key old, get entry.1 (factMap key new) ≠ none) ∧
      ∀ fact, fact ∉ (keyedDiff key old new).changed := by
    simp [FactSetDiff.isEmpty, keyedDiff, eq_nil_iff_forall_not_mem, and_assoc]
  rw [empty_iff]
  constructor
  · rintro ⟨no_added, no_removed, no_changed⟩ name
    cases before : get name (factMap key old) with
    | none =>
      cases after : get name (factMap key new) with
      | none => rfl
      | some item => exact absurd before (no_added _ (get_mem after))
    | some previous =>
      cases after : get name (factMap key new) with
      | none => exact absurd after (no_removed _ (get_mem before))
      | some item =>
        by_contra ne
        exact no_changed ⟨name, previous, item⟩
          (mem_changed.mpr ⟨before, after, fun same => ne (congrArg some same)⟩)
  · intro same
    refine ⟨fun entry mem => ?_, fun entry mem => ?_, fun fact mem => ?_⟩
    · rw [same, (factMap_sorted).mem_iff_get.mp mem]
      simp
    · rw [← same, (factMap_sorted).mem_iff_get.mp mem]
      simp
    · obtain ⟨before, after, ne⟩ := mem_changed.mp mem
      exact ne (Option.some.inj (before.symm.trans ((same _).trans after)))

/-- A keyed diff compares the facts that are kept. -/
theorem isEmpty_keyedDiff_iff :
    (keyedDiff key old new).isEmpty ↔ SameMembers (lastOfKey key old) (lastOfKey key new) := by
  rw [isEmpty_keyedDiff]
  constructor
  · intro same fact
    rw [mem_lastOfKey_iff_get, mem_lastOfKey_iff_get, same]
  · intro same name
    refine Option.ext fun fact => ?_
    by_cases named : key fact = name
    · subst named
      rw [← mem_lastOfKey_iff_get, ← mem_lastOfKey_iff_get]
      exact same fact
    · exact iff_of_false (fun get => named (get_factMap_mem get).2)
        fun get => named (get_factMap_mem get).2

omit [DecidableEq F] in
theorem KeyIdentifies.sameMembers_lastOfKey (identifies : KeyIdentifies key facts) :
    SameMembers facts (lastOfKey key facts) := by
  intro fact
  rw [mem_lastOfKey_iff_get]
  exact ⟨get_factMap identifies, fun get => (get_factMap_mem get).1⟩

end Complete

/-! #### What the payload shows -/

section Written

variable {records : List Value} {facts : List Fact} {fields : FactFields}

/-- Every fact has a record that is an object. -/
def Written (fields : FactFields) (records : List Value) (facts : List Fact) : Prop :=
  ∀ fact ∈ facts, ∃ record ∈ records,
    isObject record = true ∧ decodeRecord decodeField fields record = some fact

/-- Every export has a record that is an object with objects for its parameters, and no
record after it has its name. -/
def ExportsWritten (records : List Value) (exports : List Fact) : Prop :=
  ∀ fact ∈ exports, ∃ before record after, records = before ++ record :: after ∧
    isObject record = true ∧ parametersWritten record ∧
    decodeRecord decodeField exportFields record = some fact ∧
    ∀ other ∈ after, index other "name" ≠ index record "name"

theorem Decoded.exists_fact (decoded : Decoded fields records facts) (mem : record ∈ records) :
    ∃ fact ∈ facts, decodeRecord decodeField fields record = some fact := by
  induction decoded with
  | nil => cases mem
  | cons head _ ih =>
    rcases mem_cons.mp mem with rfl | mem
    · exact ⟨_, mem_cons_self, head⟩
    · exact (ih mem).imp fun _ found => ⟨mem_cons_of_mem _ found.1, found.2⟩

theorem sameMembers_read_iff (flat : Flat fields) (decoded : Decoded fields records facts) :
    SameMembers facts (records.filterMap (readFact fields)) ↔ Written fields records facts := by
  have read_iff : ∀ fact record, record ∈ records → (readFact fields record = some fact ↔
      isObject record = true ∧ decodeRecord decodeField fields record = some fact) := by
    intro fact record mem
    obtain ⟨other, _, decode⟩ := decoded.exists_fact mem
    rw [readFact_of_decode flat decode, decode, Option.ite_none_right_eq_some]
  constructor
  · intro same fact mem
    obtain ⟨record, record_mem, read⟩ := mem_filterMap.mp ((same fact).mp mem)
    exact ⟨record, record_mem, (read_iff fact record record_mem).mp read⟩
  · intro written fact
    rw [mem_filterMap]
    constructor
    · intro mem
      obtain ⟨record, record_mem, read⟩ := written fact mem
      exact ⟨record, record_mem, (read_iff fact record record_mem).mpr read⟩
    · rintro ⟨record, record_mem, read⟩
      obtain ⟨other, other_mem, decode⟩ := decoded.exists_fact record_mem
      rw [((read_iff fact record record_mem).mp read).2] at decode
      rwa [Option.some.inj decode]

/-- A name is read from objects only. -/
theorem exportName_ne_iff
    (decoded : ∀ record ∈ records, ∃ fact ∈ facts, decodeRecord decodeField exportFields record = some fact) :
    (∀ other ∈ records.filterMap (readFact exportFields), exportName other ≠ name) ↔
      ∀ other ∈ records, index other "name" ≠ .string name := by
  simp only [mem_filterMap, forall_exists_index, and_imp]
  rw [forall_comm]
  refine forall_congr' fun record => ?_
  rw [forall_comm]
  refine forall_congr' fun mem => ?_
  obtain ⟨fact, _, decode⟩ := decoded record mem
  cases object : isObject record with
  | false =>
    have unread : readFact exportFields record = none := readRecord_not_object object rfl
    simp [unread, index_not_object object]
  | true =>
    obtain ⟨seen, read, named, _⟩ := readExport_of_decode object decode
    simp [read, index_name_of_decode object decode, named]

/-- An export that is shown hides no other of its name. -/
theorem decode_of_read {seen : List Fact} (named : ∀ fact ∈ seen, ∀ other ∈ seen,
      exportName fact = exportName other → fact = other)
    (shown : ∀ fact ∈ facts, fact ∈ seen) (mem : fact ∈ seen)
    (decoded : ∃ fact ∈ facts, decodeRecord decodeField exportFields record = some fact)
    (read : readFact exportFields record = some fact) :
    fact ∈ facts ∧ isObject record = true ∧ parametersWritten record ∧
      decodeRecord decodeField exportFields record = some fact := by
  obtain ⟨other, other_mem, decode⟩ := decoded
  cases object : isObject record with
  | false =>
    have unread : readFact exportFields record = none := readRecord_not_object object rfl
    simp [unread] at read
  | true =>
    obtain ⟨_, read', same_name, same_iff⟩ := readExport_of_decode object decode
    obtain rfl := Option.some.inj (read.symm.trans read')
    obtain rfl := named fact mem other (shown other other_mem) same_name
    exact ⟨other_mem, rfl, same_iff.mp rfl, decode⟩

theorem sameMembers_lastOfKey_iff (decoded : Decoded exportFields records facts) :
    SameMembers facts (lastOfKey exportName (records.filterMap (readFact exportFields))) ↔
      ExportsWritten records facts := by
  have named : ∀ fact ∈ lastOfKey exportName (records.filterMap (readFact exportFields)),
      ∀ other ∈ lastOfKey exportName (records.filterMap (readFact exportFields)),
      exportName fact = exportName other → fact = other :=
    fun _ mem _ other_mem => eq_of_mem_lastOfKey mem other_mem
  have decodes : ∀ record ∈ records, ∃ fact ∈ facts,
      decodeRecord decodeField exportFields record = some fact := fun _ => decoded.exists_fact
  constructor
  · intro same fact mem
    have shown := (same fact).mp mem
    obtain ⟨_, _, split, distinct⟩ := mem_lastOfKey_iff.mp shown
    obtain ⟨first, rest, hrecords, _, hrest⟩ := filterMap_eq_append_iff.mp split
    obtain ⟨skipped, record, after, rfl, _, read, rfl⟩ := filterMap_eq_cons_iff.mp hrest
    have suffix : ∀ other ∈ record :: after, other ∈ records := by
      rw [hrecords]
      simp +contextual
    obtain ⟨_, object, parameters, decode⟩ := decode_of_read named (fun other => (same other).mp)
      shown (decodes record (suffix _ mem_cons_self)) read
    refine ⟨first ++ skipped, record, after, by simp [hrecords], object, parameters, decode, ?_⟩
    rw [index_name_of_decode object decode]
    exact (exportName_ne_iff fun other mem => decodes other (suffix _ (mem_cons_of_mem _ mem))).mp distinct
  · intro written
    have shown : ∀ fact ∈ facts,
        fact ∈ lastOfKey exportName (records.filterMap (readFact exportFields)) := by
      intro fact mem
      obtain ⟨before, record, after, rfl, object, parameters, decode, distinct⟩ := written fact mem
      obtain ⟨seen, read, _, same⟩ := readExport_of_decode object decode
      obtain rfl := same.mpr parameters
      rw [index_name_of_decode object decode] at distinct
      refine mem_lastOfKey_iff.mpr ⟨before.filterMap (readFact exportFields),
        after.filterMap (readFact exportFields), ?_, ?_⟩
      · simp [filterMap_append, filterMap_cons_some read]
      · exact (exportName_ne_iff fun other mem => decodes other (by simp [mem])).mpr distinct
    refine fun fact => ⟨shown fact, fun mem => ?_⟩
    obtain ⟨_, _, split, _⟩ := mem_lastOfKey_iff.mp mem
    obtain ⟨record, record_mem, read⟩ := mem_filterMap.mp (split ▸ mem_append_right _ mem_cons_self)
    exact (decode_of_read named shown mem (decodes record record_mem) read).1

end Written

/-- The facts that two bundles carry beside their counters are the same. -/
structure SameRecords (left right : ArtifactBundle) : Prop where
  imports : SameMembers (requiredInterfaces left) (requiredInterfaces right)
  externalContracts : SameMembers (externalContracts left) (externalContracts right)
  exports : SameMembers left.analysis.exports right.analysis.exports
  externalCalls : SameMembers left.analysis.externalCalls right.analysis.externalCalls
  recursiveFunctions :
    SameMembers left.analysis.recursiveFunctions right.analysis.recursiveFunctions
  facts : ∀ kind, SameMembers (left.analysis.facts kind) (right.analysis.facts kind)

/-- The facts and counters that two bundles carry are the same. -/
structure SameFacts (left right : ArtifactBundle) : Prop extends SameRecords left right where
  summary : left.analysis.summary = right.analysis.summary

theorem PackageAnalysisSummary.map_counter (summary : PackageAnalysisSummary) :
    summaryKeys.map (counter summary.entries) = summary.counters.map UInt64.toNat := by
  have length : summaryKeys.length =
      (summary.counters.map fun counter => Value.number (.posInt counter)).length := by
    simp [summary.length_eq]
  have get := congrArg (map fun value => (value.bind Value.asU64).getD 0)
    (map_get_zip (by decide) length)
  rw [map_map, map_map, map_map] at get
  exact get

theorem PackageAnalysisSummary.eq_of_counters {left right : PackageAnalysisSummary}
    (h : ∀ key ∈ summaryKeys, counter left.entries key = counter right.entries key) :
    left = right := by
  have counters := map_congr_left h
  rw [left.map_counter, right.map_counter] at counters
  have same := map_injective_iff.mpr (fun _ _ => UInt64.toNat_inj.mp) counters
  cases left
  cases right
  cases same
  rfl

theorem index_summary_source (accepted : SourceAnalysis.fromJson payload = some analysis) :
    index payload "summary" = .null := by
  rw [index, (SourceAnalysis.of_fromJson accepted).1 "summary" (by decide)]
  rfl

theorem summaryDiff_package (left right : PackageAnalysis) :
    summaryDiff left.payload right.payload = [] ↔ left.summary = right.summary := by
  have written : ∀ analysis : PackageAnalysis,
      (index analysis.payload "summary").asObject = some analysis.summary.entries := fun _ => rfl
  have keys : ∀ summary : PackageAnalysisSummary,
      summary.entries.map Prod.fst = summaryKeys := fun summary =>
    map_fst_zip (by simp [summary.length_eq])
  simp only [summaryDiff, written, filterMap_eq_nil_iff,
    Finset.mem_sort, mem_toFinset, map_append, keys, mem_append, or_self,
    ite_eq_right_iff, reduceCtorEq, imp_false, not_not]
  exact ⟨PackageAnalysisSummary.eq_of_counters, fun h => by simp [h]⟩

/-- The schema of the analysis. -/
def AnalysisEnvelope.isPackage : AnalysisEnvelope → Bool
  | .source _ _ _ => false
  | .package _ => true

/-- An analysis of another schema has another summary. -/
theorem AnalysisEnvelope.isPackage_of_summary {left right : AnalysisEnvelope}
    (h : left.summary = right.summary) : left.isPackage = right.isPackage := by
  cases left <;> cases right <;> first | rfl | cases h

theorem AnalysisEnvelope.summaryDiff_iff (left right : AnalysisEnvelope) :
    summaryDiff left.payload right.payload = [] ↔
      (left.isPackage = right.isPackage → left.summary = right.summary) := by
  cases left with
  | source _ _ accepted =>
    have missing := index_summary_source accepted
    cases right <;> simp [AnalysisEnvelope.payload, summaryDiff, missing, Value.asObject, isPackage, summary]
  | package left =>
    cases right with
    | source _ _ accepted =>
      have missing := index_summary_source accepted
      simp [AnalysisEnvelope.payload, summaryDiff, missing, Value.asObject, isPackage, summary]
    | package right => simp [AnalysisEnvelope.payload, summaryDiff_package, isPackage, summary]

namespace SemanticDiff

/-- The payload shows what the analysis carries. -/
structure Faithful (analysis : AnalysisEnvelope) : Prop where
  exports : ExportsWritten (exportRecords analysis.payload) analysis.exports
  externalCalls : Written externalCallFields (callRecords analysis.payload) analysis.externalCalls
  facts : ∀ kind, Written kind.fields (factRecords kind analysis.payload) (analysis.facts kind)

theorem faithful_iff {analysis : AnalysisEnvelope} : Faithful analysis ↔
    SameMembers analysis.exports (lastOfKey exportName (analysisExports analysis.payload)) ∧
    SameMembers analysis.externalCalls (analysisExternalCalls analysis.payload) ∧
    ∀ kind, SameMembers (analysis.facts kind) (analysisFacts kind analysis.payload) := by
  have calls := sameMembers_read_iff flat_externalCallFields analysis.decoded_externalCalls
  have others := fun kind => sameMembers_read_iff kind.flat (analysis.decoded_facts kind)
  constructor
  · rintro ⟨exports, externalCalls, facts⟩
    exact ⟨(sameMembers_lastOfKey_iff analysis.decoded_exports).mpr exports,
      calls.mpr externalCalls, fun kind => (others kind).mpr (facts kind)⟩
  · rintro ⟨exports, externalCalls, facts⟩
    exact ⟨(sameMembers_lastOfKey_iff analysis.decoded_exports).mp exports,
      calls.mp externalCalls, fun kind => (others kind).mp (facts kind)⟩

/-- An empty diff: what is read of the analyses agrees. -/
theorem isEmpty_between : (between left right).isEmpty ↔
    (keyedDiff (·.symbol) (requiredInterfaces left) (requiredInterfaces right)).isEmpty ∧
    (keyedDiff (·.symbol) (Artifact.externalContracts left)
      (Artifact.externalContracts right)).isEmpty ∧
    (keyedDiff exportName (analysisExports left.analysis.payload)
      (analysisExports right.analysis.payload)).isEmpty ∧
    SameMembers (analysisExternalCalls left.analysis.payload)
      (analysisExternalCalls right.analysis.payload) ∧
    SameMembers left.analysis.recursiveFunctions right.analysis.recursiveFunctions ∧
    (∀ kind, SameMembers (analysisFacts kind left.analysis.payload)
      (analysisFacts kind right.analysis.payload)) ∧
    (left.analysis.isPackage = right.analysis.isPackage →
      left.analysis.summary = right.analysis.summary) := by
  have every : ∀ kind, kind ∈ FactSection.all := fun kind => by cases kind <;> decide
  simp [isEmpty, between, isEmpty_setDiff, and_assoc, AnalysisEnvelope.strings_recursiveFunctions,
    every, AnalysisEnvelope.summaryDiff_iff]

/-- Symbols identify imports, hence what is derived from them. -/
theorem keyIdentifies_map_imports (bundle : ArtifactBundle) (fact : ExternalImport → F)
    (key : F → String) (h : ∀ item, key (fact item) = item.symbol) :
    KeyIdentifies key (bundle.imports.map fact) := by
  have nodup : (bundle.imports.map (·.symbol)).Nodup :=
    pairwise_map.mpr (bundle.sorted.imp fun lt => lt.ne)
  intro left left_mem right right_mem same
  obtain ⟨item, mem, rfl⟩ := mem_map.mp left_mem
  obtain ⟨other, other_mem, rfl⟩ := mem_map.mp right_mem
  rw [h, h] at same
  rw [inj_on_of_nodup_map nodup mem other_mem same]

theorem isEmpty_keyedDiff_imports [DecidableEq F] (fact : ExternalImport → F) (key : F → String)
    (h : ∀ item, key (fact item) = item.symbol) (left right : ArtifactBundle) :
    (keyedDiff key (left.imports.map fact) (right.imports.map fact)).isEmpty ↔
      SameMembers (left.imports.map fact) (right.imports.map fact) := by
  rw [isEmpty_keyedDiff_iff]
  exact ((keyIdentifies_map_imports left fact key h).sameMembers_lastOfKey.congr
    (keyIdentifies_map_imports right fact key h).sameMembers_lastOfKey).symm

/-- Between bundles that show what they carry, the diff is empty if they carry the same
facts and, with one schema, the same counters. -/
theorem Faithful.isEmpty_between_iff (shows_left : Faithful left.analysis)
    (shows_right : Faithful right.analysis) :
    (between left right).isEmpty ↔ SameRecords left right ∧
      (left.analysis.isPackage = right.analysis.isPackage →
        left.analysis.summary = right.analysis.summary) := by
  obtain ⟨exports, calls, facts⟩ := faithful_iff.mp shows_left
  obtain ⟨exports', calls', facts'⟩ := faithful_iff.mp shows_right
  have imports := isEmpty_keyedDiff_imports
    (fun item => InterfaceRequirement.mk item.symbol item.signatureHash item.abiVersion)
    (·.symbol) (fun _ => rfl) left right
  have contracts := isEmpty_keyedDiff_imports
    (fun item => ExternalContractFact.mk item.symbol item.abiVersion item.signatureHash item.signature)
    (·.symbol) (fun _ => rfl) left right
  have kept : (keyedDiff exportName (analysisExports left.analysis.payload)
      (analysisExports right.analysis.payload)).isEmpty ↔ _ := isEmpty_keyedDiff_iff
  rw [isEmpty_between, kept, ← exports.congr exports', ← calls.congr calls', forall_congr' fun kind => ((facts kind).congr (facts' kind)).symm]
  constructor
  · rintro ⟨hi, hc, he, hcalls, hr, hf, hs⟩
    exact ⟨⟨imports.mp hi, contracts.mp hc, he, hcalls, hr, hf⟩, hs⟩
  · rintro ⟨⟨hi, hc, he, hcalls, hr, hf⟩, hs⟩
    exact ⟨imports.mpr hi, contracts.mpr hc, he, hcalls, hr, hf, hs⟩

/-- An analysis that carries just what is read of another one. -/
structure Shows (analysis seen : AnalysisEnvelope) : Prop where
  schema : seen.isPackage = analysis.isPackage
  exports : seen.exports = lastOfKey exportName (analysisExports analysis.payload)
  exports_read : analysisExports seen.payload = seen.exports
  externalCalls : seen.externalCalls = analysisExternalCalls analysis.payload
  externalCalls_read : analysisExternalCalls seen.payload = seen.externalCalls
  recursiveFunctions : seen.recursiveFunctions = analysis.recursiveFunctions
  facts : ∀ kind, seen.facts kind = analysisFacts kind analysis.payload
  facts_read : ∀ kind, analysisFacts kind seen.payload = seen.facts kind
  summary : seen.summary = analysis.summary

/-- The last export of each name. -/
def lastExports (exports : Facts exportFields) : Facts exportFields where
  list := lastOfKey exportName exports.list
  conform fact mem := exports.conform fact (mem_of_mem_lastOfKey mem)

theorem exists_shows_source (accepted : SourceAnalysis.fromJson payload = some analysis) :
    ∃ seen, Shows (.source payload analysis accepted) seen := by
  let exports := lastExports (.read exportFields (index payload "exports"))
  let callEdges := Facts.read FactSection.callEdges.fields (index payload "call_edges")
  let externalCalls := Facts.read externalCallFields (callsOf payload)
  let seen : SourceAnalysis := { analysis with
    exports := exports.list, callEdges := callEdges.list, externalCalls := externalCalls.list }
  refine ⟨.source seen.payload seen
    (SourceAnalysis.fromJson_payload exports callEdges externalCalls rfl rfl rfl), ?_⟩
  have missing := (SourceAnalysis.of_fromJson accepted).1
  exact {
    schema := rfl
    exports := rfl
    exports_read := factsOf_factsJson (by decide) exports
    externalCalls := rfl
    externalCalls_read := factsOf_factsJson (by decide) externalCalls
    recursiveFunctions := rfl
    facts := fun kind => by
      cases kind with
      | callEdges => rfl
      | resourceLifetimes | resourceTransfers | taskGroups | awaitSites | diagnostics =>
        simp [AnalysisEnvelope.facts, AnalysisEnvelope.payload, analysisFacts, index, missing,
          FactSection.key, factsOf, items, Value.asArray]
    facts_read := fun kind => by
      cases kind with
      | callEdges => exact factsOf_factsJson (by decide) callEdges
      | resourceLifetimes | resourceTransfers | taskGroups | awaitSites | diagnostics => rfl
    summary := rfl }

theorem exists_shows_package (analysis : PackageAnalysis) : ∃ seen, Shows (.package analysis) seen := by
  have names : ∀ kind : FactSection, (kind.fields.map Prod.fst).Nodup := by
    intro kind
    cases kind <;> decide
  have calls := factsOf_factsJson (by decide) analysis.externalCalls
  have facts := fun kind => factsOf_factsJson (names kind) (analysis.facts kind)
  refine ⟨.package { analysis with exports := lastExports analysis.exports }, ?_⟩
  exact {
    schema := rfl
    exports := congrArg (lastOfKey exportName) (factsOf_factsJson (by decide) analysis.exports).symm
    exports_read := factsOf_factsJson (by decide) (lastExports analysis.exports)
    externalCalls := calls.symm
    externalCalls_read := calls
    recursiveFunctions := rfl
    facts := fun kind => by cases kind <;> exact (facts _).symm
    facts_read := fun kind => by cases kind <;> exact facts _
    summary := rfl }

theorem Shows.faithful (h : Shows analysis seen) : Faithful seen := by
  refine faithful_iff.mpr ⟨?_, ?_, fun kind => ?_⟩
  · rw [h.exports_read, h.exports, lastOfKey_lastOfKey]
    exact fun _ => .rfl
  · rw [h.externalCalls_read]
    exact fun _ => .rfl
  · rw [h.facts_read]
    exact fun _ => .rfl

/-- Nobody notices what was not read. -/
theorem Shows.isEmpty_between (bundle : ArtifactBundle) (h : Shows bundle.analysis seen) :
    (between bundle { bundle with analysis := seen }).isEmpty := by
  refine SemanticDiff.isEmpty_between.mpr ⟨isEmpty_keyedDiff.mpr fun _ => rfl,
    isEmpty_keyedDiff.mpr fun _ => rfl, isEmpty_keyedDiff_iff.mpr ?_, ?_, ?_, fun kind => ?_,
    fun _ => h.summary.symm⟩
  · rw [h.exports_read, h.exports, lastOfKey_lastOfKey]
    exact fun _ => .rfl
  · rw [h.externalCalls_read, h.externalCalls]
    exact fun _ => .rfl
  · rw [h.recursiveFunctions]
    exact fun _ => .rfl
  · rw [h.facts_read, h.facts]
    exact fun _ => .rfl

/-- A bundle with a source analysis of some exports. -/
def sourceBundle (exports : Facts exportFields) : ArtifactBundle where
  identity := ⟨"", "", "", "", ""⟩
  imports := []
  sorted := List.Pairwise.nil
  analysis :=
    let analysis : SourceAnalysis := ⟨"", "", [], exports.list, [], []⟩
    .source analysis.payload analysis
      (SourceAnalysis.fromJson_payload exports ⟨[], by simp⟩ ⟨[], by simp⟩ rfl rfl rfl)

/-- A bundle with a package analysis of some exports. -/
def packageBundle (exports : Facts exportFields) (summary : PackageAnalysisSummary) :
    ArtifactBundle where
  identity := ⟨"", "", "", "", ""⟩
  imports := []
  sorted := List.Pairwise.nil
  analysis := .package ⟨exports, ⟨[], by simp⟩, [], fun _ => ⟨[], by simp⟩, summary⟩

/-- The payload of a source analysis with one export, which is written as an array. -/
def arrayPayload : Value :=
  .object [("$schema", .string sourceAnalysisSchema), ("language_version", .string ""),
    ("snapshot_digest", .string ""), ("sources", .array []),
    ("exports", .array [.array [.string "User", .string "type", .null, .array [], .null,
      .array [], .array []]])]

def typeExport : Fact :=
  [.text "User", .text "type", .optionalText none, .parameters [], .optionalText none, .texts [],
    .texts []]

theorem fromJson_arrayPayload :
    SourceAnalysis.fromJson arrayPayload = some ⟨"", "", [], [typeExport], [], []⟩ := by
  decide +kernel

end SemanticDiff

end RSScript.Artifact
