import Mathlib.Data.Finset.Basic
import RSScript.Lib.Outcome
import RSScript.Bytecode.Container

/-!
# The payload verifier: outcomes and JSON helpers

The verifier inspects attacker-controlled JSON as data. Besides returning an
error it could, in principle, hit one of Rust's panicking operators: an index
out of range, a missing key of `map[key]`, a failed `expect`. The outcome keeps
these apart, together with the fuel of the modelled loops, so that "never
panics" is a statement about results.
-/

variable {α : Type} {message key context : String} {value : Value}

namespace RSScript.Bytecode

open Guards Outcome Graceful

/-- How a pass can fail to return `Ok`. -/
abbrev Fault := Outcome.Fault BytecodeError

abbrev Checked := Except Fault

/-- `serde_json::Map<String, Value>`. -/
abbrev Fields := List (String × Value)

def invalidPayload (message : String) : Fault := .error (.invalidPayload message)
def limitExceeded (limit : String) : Fault := .error (.limitExceeded limit)

/-- `value.ok_or_else(|| invalid_payload(message))`. -/
def orInvalid {α : Type} (value : Option α) (message : String) : Checked α :=
  match value with
  | some a => .ok a
  | none => .error (invalidPayload message)

/-- `map[key]`, which panics on a missing key. -/
def index (object : Fields) (key : String) : Checked Value :=
  match SortedMap.get key object with
  | some value => .ok value
  | none => .error .panic

/-- The `Debug` text of a set of strings. -/
def debugSet (keys : List String) : String :=
  let sorted := (SortedMap.insertAll [] (keys.map fun key => (key, ()))).map Prod.fst
  "\x7b" ++ ", ".intercalate (sorted.map fun key => key.quote) ++ "\x7d"

def jsonUsize (value : Value) (field : String) : Checked Nat :=
  orInvalid value.asU64 s!"{field} is not a valid index"

def requiredIndex (fields : Fields) (field : String) : Checked Nat := do
  let value ← orInvalid (SortedMap.get field fields) s!"missing `{field}` field"
  jsonUsize value field

def keys (object : Fields) : List String := object.map Prod.fst

def requireObjectFields (object : Fields) (expected : List String) (context : String) :
    Checked Unit :=
  ensure ((keys object).toFinset = expected.toFinset) <| invalidPayload <|
    s!"{context} fields differ: actual={debugSet (keys object)}, expected={debugSet expected}"

def requireObjectFieldsWithOptional (object : Fields) (required optional : List String)
    (context : String) : Checked Unit :=
  let actual := (keys object).toFinset
  ensure (required.toFinset ⊆ actual ∧ actual ⊆ (required ++ optional).toFinset) <| invalidPayload <|
    s!"{context} fields differ: actual={debugSet (keys object)}, required={debugSet required}, " ++
      s!"allowed={debugSet (required ++ optional)}"

/-! ## What the helpers establish -/

@[simp] theorem orInvalid_eq_ok {value : Option α} :
    orInvalid value message = .ok a ↔ value = some a := by
  cases value <;> simp [orInvalid]

@[simp] theorem jsonUsize_eq_ok {field : String} :
    jsonUsize value field = .ok n ↔ value.asU64 = some n := orInvalid_eq_ok

/-- A field read as an index. -/
def index? (fields : Fields) (field : String) : Option Nat :=
  (SortedMap.get field fields).bind Value.asU64

@[simp] theorem requiredIndex_eq_ok {fields : Fields} :
    requiredIndex fields field = .ok n ↔ index? fields field = some n := by
  simp [requiredIndex, index?, Option.bind_eq_some_iff]

@[simp] theorem index_eq_ok :
    index object key = .ok value ↔ SortedMap.get key object = some value := by
  unfold index
  cases SortedMap.get key object <;> simp

/-- A key among the keys of an object has a value. -/
theorem exists_get_of_mem_keys (h : key ∈ keys object) :
    ∃ value, SortedMap.get key object = some value := by
  cases hget : SortedMap.get key object with
  | none => exact absurd h (SortedMap.get_eq_none_iff.mp hget)
  | some value => exact ⟨value, rfl⟩

/-- A key the field check asks for is there. -/
theorem exists_of_requireObjectFields (h : requireObjectFields object expected context = .ok ())
    (hkey : key ∈ expected) : ∃ value, SortedMap.get key object = some value := by
  have hset : (keys object).toFinset = expected.toFinset := ensure_eq_ok.mp h
  apply exists_get_of_mem_keys
  rw [← List.mem_toFinset, hset, List.mem_toFinset]
  exact hkey

theorem exists_of_requireObjectFieldsWithOptional {required optional : List String}
    (h : requireObjectFieldsWithOptional object required optional context = .ok ())
    (hkey : key ∈ required) : ∃ value, SortedMap.get key object = some value := by
  obtain ⟨hrequired, -⟩ := ensure_eq_ok.mp h
  exact exists_get_of_mem_keys (List.mem_toFinset.mp (hrequired (List.mem_toFinset.mpr hkey)))

/-! ## Helpers that never panic -/

end RSScript.Bytecode

namespace Outcome.Graceful

open RSScript.Bytecode

theorem orInvalid (value : Option α) (message : String) : Graceful (orInvalid value message) := by
  cases value with
  | none => exact error _
  | some a => exact ok a

theorem valid {value : Option α}
    (h : ∀ a, RSScript.Bytecode.orInvalid value message = .ok a → Graceful (next a)) :
    Graceful (RSScript.Bytecode.orInvalid value message >>= next) := (orInvalid _ _).bind h

theorem jsonUsize (value : Value) (field : String) : Graceful (jsonUsize value field) :=
  orInvalid _ _

theorem requiredIndex (fields : Fields) (field : String) : Graceful (requiredIndex fields field) :=
  valid fun _ _ => jsonUsize _ _

theorem index {object : Fields} (h : SortedMap.get key object = some value) :
    Graceful (index object key) := by
  rw [index_eq_ok.mpr h]
  exact ok value

theorem requireObjectFields (object : Fields) (expected : List String) (context : String) :
    Graceful (requireObjectFields object expected context) :=
  ensure _

theorem requireObjectFieldsWithOptional (object : Fields) (required optional : List String)
    (context : String) :
    Graceful (requireObjectFieldsWithOptional object required optional context) :=
  ensure _

/-- A key is safe to index by once the field check asked for it. -/
theorem object {value : Option Fields} {rest : Fields → Checked α}
    (h : ∀ object,
      (∀ key ∈ expected, Graceful (RSScript.Bytecode.index object key)) → Graceful (rest object)) :
    Graceful (RSScript.Bytecode.orInvalid value message >>= fun object =>
      RSScript.Bytecode.requireObjectFields object expected context >>= fun _ => rest object) := by
  refine valid fun object _ => ?_
  refine (requireObjectFields _ _ _).bind fun _ hfields => h object fun key hkey => ?_
  obtain ⟨value, hvalue⟩ := exists_of_requireObjectFields hfields hkey
  exact index hvalue

/-- A member that is safe to index by is read through a view. -/
theorem member {β : Type} {object : Fields} {view : Value → Option α} {rest : α → Checked β}
    (h : Graceful (RSScript.Bytecode.index object key)) (hrest : ∀ a, Graceful (rest a)) :
    Graceful (RSScript.Bytecode.index object key >>= fun value =>
      RSScript.Bytecode.orInvalid (view value) message >>= rest) :=
  h.bind fun _ _ => valid fun a _ => hrest a

end Outcome.Graceful
