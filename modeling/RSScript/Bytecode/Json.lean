import Mathlib.Data.String.Basic
import RSScript.Lib.BinaryFloat
import RSScript.Lib.SortedMap

/-!
# JSON values

The `serde_json::Value` the bytecode container is built from. Numbers keep the
three-way split of `serde_json::Number`: a non-negative integer is a `u64`, a
negative one an `i64`, and a float is always finite. Those ranges are fields of
the constructors, so a number outside them cannot be written down.

An object is a `BTreeMap`: its entries in increasing key order. The recursive
occurrence keeps that order from being a field, so `Value.WellFormed` states it,
together with the bound every Rust length obeys.
-/

namespace RSScript.Bytecode

/-- A finite binary64, by its bits. -/
structure FiniteF64 where
  bits : Nat
  bits_lt : bits < 2 ^ 64
  finite : BinaryFloat.isFinite BinaryFloat.double bits = true
  deriving DecidableEq, Repr

/-- `serde_json::Number`. -/
inductive Number where
  | posInt (value : UInt64)
  | negInt (value : Int) (inRange : -2 ^ 63 ≤ value ∧ value < 0)
  | float (value : FiniteF64)
  deriving DecidableEq, Repr

namespace Number

def asI64 : Number → Option Int
  | .posInt value => if value.toNat < 2 ^ 63 then some value.toNat else none
  | .negInt value _ => some value
  | .float _ => none

def asU64 : Number → Option Nat
  | .posInt value => some value.toNat
  | _ => none

def asFloat : Number → Option FiniteF64
  | .float value => some value
  | _ => none

/-- `Number::from_f64`, which refuses infinities and NaNs. -/
def fromF64 (bits : Nat) : Option Number :=
  if h : bits < 2 ^ 64 ∧ BinaryFloat.isFinite BinaryFloat.double bits = true then
    some (.float ⟨bits, h.1, h.2⟩)
  else none

/-- `i64::MIN`. -/
def i64Min : Number := .negInt (-2 ^ 63) (by decide)

end Number

/-- `serde_json::Value`. -/
inductive Value where
  | null
  | bool (value : Bool)
  | number (number : Number)
  | string (text : String)
  | array (values : List Value)
  | object (entries : List (String × Value))
  deriving Repr

namespace Value

/-! The accessors of `serde_json::Value`. -/

def asObject : Value → Option (List (String × Value))
  | .object entries => some entries
  | _ => none

def asArray : Value → Option (List Value)
  | .array values => some values
  | _ => none

def asStr : Value → Option String
  | .string text => some text
  | _ => none

def asU64 : Value → Option Nat
  | .number n => n.asU64
  | _ => none

def isNull : Value → Bool
  | .null => true
  | _ => false

/-- `Value::get` with a string key: absent unless the value is an object that has
the key. -/
def get (value : Value) (key : String) : Option Value :=
  match value with
  | .object entries => SortedMap.get key entries
  | _ => none

/-- Every object in the value is a map: its keys increase strictly. -/
inductive Ordered : Value → Prop
  | null : Ordered .null
  | bool (value : Bool) : Ordered (.bool value)
  | number (number : Number) : Ordered (.number number)
  | string (text : String) : Ordered (.string text)
  | array {values : List Value} (elements : ∀ value ∈ values, Ordered value) :
      Ordered (.array values)
  | object {entries : List (String × Value)} (sorted : SortedMap.Sorted entries)
      (elements : ∀ entry ∈ entries, Ordered entry.2) : Ordered (.object entries)

/-- Every length in the value is a `u64`, as every Rust length is. -/
inductive Sized : Value → Prop
  | null : Sized .null
  | bool (value : Bool) : Sized (.bool value)
  | number (number : Number) : Sized (.number number)
  | string {text : String} (length : text.utf8ByteSize < 2 ^ 64) : Sized (.string text)
  | array {values : List Value} (length : values.length < 2 ^ 64)
      (elements : ∀ value ∈ values, Sized value) : Sized (.array values)
  | object {entries : List (String × Value)} (length : entries.length < 2 ^ 64)
      (keys : ∀ entry ∈ entries, entry.1.utf8ByteSize < 2 ^ 64)
      (elements : ∀ entry ∈ entries, Sized entry.2) : Sized (.object entries)

/-- The values the Rust type has. -/
structure WellFormed (value : Value) : Prop where
  ordered : Ordered value
  sized : Sized value

/-- `inner` occurs in a value, at any depth. -/
inductive Occurs (inner : Value) : Value → Prop
  | self : Occurs inner inner
  | array {values : List Value} {value : Value} (mem : value ∈ values)
      (occurs : Occurs inner value) : Occurs inner (.array values)
  | object {entries : List (String × Value)} {entry : String × Value} (mem : entry ∈ entries)
      (occurs : Occurs inner entry.2) : Occurs inner (.object entries)

/-- Only collections hold other values. -/
theorem Occurs.eq_of_scalar {inner : Value} (h : Occurs inner value)
    (harray : ∀ values, value ≠ .array values) (hobject : ∀ entries, value ≠ .object entries) :
    value = inner := by
  cases h with
  | self => rfl
  | array => exact absurd rfl (harray _)
  | object => exact absurd rfl (hobject _)

end Value

end RSScript.Bytecode
