import Mathlib.Algebra.Order.Ring.Int

/-!
# Binary interchange floats, as bit patterns

A float of a given format is the number its bits spell: a sign bit, a biased
exponent and a mantissa. Two conversions are needed between formats.

- `widen` goes from a narrower format to binary64 and is exact.
- `narrow` goes back. It truncates: for a value the narrower format can hold
  there is nothing to round, and for any other value no result of any rounding
  widens to it. A caller that compares the widened result with the value it
  started from cannot tell `narrow` from a rounding conversion.
-/

namespace BinaryFloat

/-- Field widths of a format. -/
structure Format where
  exponentBits : Nat
  mantissaBits : Nat

def half : Format := ⟨5, 10⟩
def single : Format := ⟨8, 23⟩
def double : Format := ⟨11, 52⟩

namespace Format

variable (f : Format)

def bias : Nat := 2 ^ (f.exponentBits - 1) - 1

/-- The exponent field of infinities and NaNs. -/
def maxExponent : Nat := 2 ^ f.exponentBits - 1

def sign (bits : Nat) : Nat := bits / 2 ^ (f.exponentBits + f.mantissaBits)
def exponent (bits : Nat) : Nat := bits / 2 ^ f.mantissaBits % 2 ^ f.exponentBits
def mantissa (bits : Nat) : Nat := bits % 2 ^ f.mantissaBits

def pack (sign exponent mantissa : Nat) : Nat :=
  sign * 2 ^ (f.exponentBits + f.mantissaBits) + exponent * 2 ^ f.mantissaBits + mantissa

end Format

/-- Finite: neither an infinity nor a NaN. -/
def isFinite (f : Format) (bits : Nat) : Bool := f.exponent bits != f.maxExponent

/-- A bit pattern of the format, as a binary64 bit pattern of the same value. -/
def widen (f : Format) (bits : Nat) : Nat :=
  let sign := f.sign bits
  let exponent := f.exponent bits
  let mantissa := f.mantissa bits
  if exponent = f.maxExponent then
    double.pack sign double.maxExponent (mantissa * 2 ^ (52 - f.mantissaBits))
  else if exponent ≠ 0 then
    double.pack sign (exponent + double.bias - f.bias) (mantissa * 2 ^ (52 - f.mantissaBits))
  else if mantissa = 0 then
    double.pack sign 0 0
  else
    -- A subnormal of the narrow format is a normal binary64: its leading one
    -- becomes the hidden bit.
    let leading := mantissa.log2
    double.pack sign (double.bias + leading + 1 - f.bias - f.mantissaBits)
      ((mantissa - 2 ^ leading) * 2 ^ (52 - leading))

/-- A binary64 bit pattern truncated to the format; infinity above its range. -/
def narrow (f : Format) (bits : Nat) : Nat :=
  let sign := double.sign bits
  let exponent := double.exponent bits
  let mantissa := double.mantissa bits
  if double.bias + 1 ≤ exponent + f.bias then
    let biased := exponent + f.bias - double.bias
    if f.maxExponent ≤ biased then f.pack sign f.maxExponent 0
    else f.pack sign biased (mantissa / 2 ^ (52 - f.mantissaBits))
  else
    f.pack sign 0
      ((2 ^ 52 + mantissa) / 2 ^ (52 - f.mantissaBits + (double.bias + 1 - f.bias - exponent)))

/-- Equality of binary64 values: bit equality, except that the two zeros are
equal and a NaN equals nothing. -/
def doubleEq (left right : Nat) : Bool :=
  if left % 2 ^ 63 = 0 ∧ right % 2 ^ 63 = 0 then true
  else left = right ∧ (isFinite double left ∨ double.mantissa left = 0)

/-- The two zeros, the only patterns equality identifies. -/
theorem eq_of_doubleEq (h : doubleEq left right = true)
    (hzero : right % 2 ^ 63 = 0 → left = right) : left = right := by
  unfold doubleEq at h
  split at h
  case isTrue hz => exact hzero hz.2
  case isFalse => exact (of_decide_eq_true h).1

/-- A value that compares equal to its own narrowing has the bits of it:
narrowing keeps the sign of a zero. -/
theorem widen_narrow_of_doubleEq (hf : f = half ∨ f = single) (hlt : bits < 2 ^ 64)
    (h : doubleEq (widen f (narrow f bits)) bits = true) : widen f (narrow f bits) = bits := by
  refine eq_of_doubleEq h fun hz => ?_
  have hzero : bits = 0 ∨ bits = 2 ^ 63 := by omega
  rcases hf with rfl | rfl <;> rcases hzero with rfl | rfl <;> decide +kernel

theorem Format.pack_lt {f : Format} {sign exponent mantissa : Nat} (hs : sign < 2)
    (he : exponent < 2 ^ f.exponentBits) (hm : mantissa < 2 ^ f.mantissaBits) :
    f.pack sign exponent mantissa < 2 ^ (1 + f.exponentBits + f.mantissaBits) := by
  have hlow : exponent * 2 ^ f.mantissaBits + mantissa < 2 ^ (f.exponentBits + f.mantissaBits) := by
    calc exponent * 2 ^ f.mantissaBits + mantissa
        < (exponent + 1) * 2 ^ f.mantissaBits := by rw [Nat.add_mul, Nat.one_mul]; omega
      _ ≤ 2 ^ f.exponentBits * 2 ^ f.mantissaBits := Nat.mul_le_mul_right _ he
      _ = 2 ^ (f.exponentBits + f.mantissaBits) := (Nat.pow_add ..).symm
  have hsign : sign * 2 ^ (f.exponentBits + f.mantissaBits)
      ≤ 1 * 2 ^ (f.exponentBits + f.mantissaBits) := Nat.mul_le_mul_right _ (by omega)
  have hpow : 2 ^ (1 + f.exponentBits + f.mantissaBits)
      = 2 * 2 ^ (f.exponentBits + f.mantissaBits) := by
    rw [Nat.add_assoc, Nat.pow_add]
  unfold Format.pack
  omega

/-- A narrowed pattern fits the format's own width. -/
theorem narrow_lt (hmax : f.maxExponent < 2 ^ f.exponentBits) (hmant : f.mantissaBits ≤ 52)
    {bits : Nat} (hlt : bits < 2 ^ 64) :
    narrow f bits < 2 ^ (1 + f.exponentBits + f.mantissaBits) := by
  have hsign : double.sign bits < 2 := by
    simp only [Format.sign, double]
    omega
  have hmantissa : double.mantissa bits < 2 ^ 52 := Nat.mod_lt _ (by decide)
  have hsplit : 2 ^ f.mantissaBits * 2 ^ (52 - f.mantissaBits) = 2 ^ 52 := by
    rw [← Nat.pow_add, Nat.add_sub_cancel' hmant]
  simp only [narrow]
  split
  case isTrue =>
    split
    case isTrue => exact Format.pack_lt hsign hmax (Nat.two_pow_pos _)
    case isFalse hbiased =>
      refine Format.pack_lt hsign (by omega) (Nat.div_lt_of_lt_mul ?_)
      rw [Nat.mul_comm, hsplit]
      exact hmantissa
  case isFalse hsmall =>
    refine Format.pack_lt hsign (Nat.two_pow_pos _) (Nat.div_lt_of_lt_mul ?_)
    -- The shift drops at least one bit more than a normal's, which makes room
    -- for the hidden bit.
    obtain ⟨extra, hextra⟩ : ∃ extra,
        double.bias + 1 - f.bias - double.exponent bits = extra + 1 :=
      ⟨double.bias - f.bias - double.exponent bits, by omega⟩
    rw [hextra, Nat.pow_add, Nat.mul_right_comm, Nat.mul_comm (2 ^ (52 - f.mantissaBits)), hsplit,
      Nat.pow_succ]
    have := Nat.two_pow_pos extra
    omega

end BinaryFloat
