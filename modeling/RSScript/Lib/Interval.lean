import Mathlib.Algebra.Order.Ring.Int
import Mathlib.Tactic.Linarith

/-!
# Integer intervals

Closed intervals of integers with hull, arithmetic and intersection. Each
operation covers the results of the operation on members (`mem_add`, `mem_sub`,
`mem_mul`, `mem_rem`, `mem_clamp`). An interval may be empty; an operation on
intervals that have members gives one that has, since the result on the members
is in it.
-/

namespace IntegerInterval

/-- The integers from `lo` to `hi`. -/
@[ext] structure Interval where
  lo : Int
  hi : Int
  deriving DecidableEq, Repr

instance : Membership Int Interval where
  mem range value := range.lo ≤ value ∧ value ≤ range.hi

instance (value : Int) (range : Interval) : Decidable (value ∈ range) :=
  inferInstanceAs (Decidable (_ ∧ _))

namespace Interval

variable {a b : Interval}

theorem mem_iff : x ∈ a ↔ a.lo ≤ x ∧ x ≤ a.hi := Iff.rfl

/-- Some integer lies in the interval. -/
def Inhabited (a : Interval) : Prop := a.lo ≤ a.hi

instance (a : Interval) : Decidable a.Inhabited := inferInstanceAs (Decidable (_ ≤ _))

theorem Inhabited.of_mem (h : x ∈ a) : a.Inhabited := h.1.trans h.2

theorem Inhabited.lo_mem (h : a.Inhabited) : a.lo ∈ a := ⟨le_refl _, h⟩

theorem Inhabited.hi_mem (h : a.Inhabited) : a.hi ∈ a := ⟨h, le_refl _⟩

/-- Every integer of the first lies in the second, by their ends. -/
def Within (a b : Interval) : Prop := b.lo ≤ a.lo ∧ a.hi ≤ b.hi

theorem Within.refl (a : Interval) : a.Within a := ⟨le_refl _, le_refl _⟩

theorem Within.trans (hab : a.Within b) (hbc : b.Within c) : a.Within c :=
  ⟨hbc.1.trans hab.1, hab.2.trans hbc.2⟩

theorem Within.mem (h : a.Within b) (hx : x ∈ a) : x ∈ b := ⟨h.1.trans hx.1, hx.2.trans h.2⟩

/-! ## Operations -/

def constant (value : Int) : Interval := ⟨value, value⟩

theorem mem_constant : value ∈ constant value := ⟨le_refl _, le_refl _⟩

/-- The convex hull of two intervals. -/
def hull (a b : Interval) : Interval := ⟨min a.lo b.lo, max a.hi b.hi⟩

theorem within_hull_left : a.Within (a.hull b) := ⟨min_le_left _ _, le_max_left _ _⟩

theorem within_hull_right : b.Within (a.hull b) := ⟨min_le_right _ _, le_max_right _ _⟩

theorem hull_within (ha : a.Within c) (hb : b.Within c) : (a.hull b).Within c :=
  ⟨le_min ha.1 hb.1, max_le ha.2 hb.2⟩

/-- A fold of hulls contains its seed and every interval folded in. -/
theorem within_foldl_hull (f : α → Interval) (xs : List α) (seed : Interval) :
    seed.Within (xs.foldl (fun merged x => merged.hull (f x)) seed) ∧
      ∀ x ∈ xs, (f x).Within (xs.foldl (fun merged x => merged.hull (f x)) seed) := by
  induction xs generalizing seed with
  | nil => exact ⟨Within.refl _, by simp⟩
  | cons first xs ih =>
    obtain ⟨hseed, hall⟩ := ih (seed.hull (f first))
    refine ⟨within_hull_left.trans hseed, List.forall_mem_cons.mpr ⟨?_, hall⟩⟩
    exact (within_hull_right).trans hseed

def add (a b : Interval) : Interval := ⟨a.lo + b.lo, a.hi + b.hi⟩

theorem mem_add (hx : x ∈ a) (hy : y ∈ b) : x + y ∈ a.add b :=
  ⟨add_le_add hx.1 hy.1, add_le_add hx.2 hy.2⟩

def sub (a b : Interval) : Interval := ⟨a.lo - b.hi, a.hi - b.lo⟩

theorem mem_sub (hx : x ∈ a) (hy : y ∈ b) : x - y ∈ a.sub b :=
  ⟨sub_le_sub hx.1 hy.2, sub_le_sub hx.2 hy.1⟩

/-- The hull of the four corner products. -/
def mul (a b : Interval) : Interval :=
  let c1 := a.lo * b.lo
  let c2 := a.lo * b.hi
  let c3 := a.hi * b.lo
  let c4 := a.hi * b.hi
  ⟨min (min (min c1 c2) c3) c4, max (max (max c1 c2) c3) c4⟩

/-- A product with a member lies between the products with the ends. -/
theorem mul_between (hx : x ∈ a) (y : Int) :
    min (a.lo * y) (a.hi * y) ≤ x * y ∧ x * y ≤ max (a.lo * y) (a.hi * y) := by
  obtain ⟨hlo, hhi⟩ := hx
  rcases le_total 0 y with hy | hy
  · exact ⟨min_le_of_left_le (mul_le_mul_of_nonneg_right hlo hy),
      le_max_of_le_right (mul_le_mul_of_nonneg_right hhi hy)⟩
  · exact ⟨min_le_of_right_le (mul_le_mul_of_nonpos_right hhi hy),
      le_max_of_le_left (mul_le_mul_of_nonpos_right hlo hy)⟩

theorem mem_mul (hx : x ∈ a) (hy : y ∈ b) : x * y ∈ a.mul b := by
  have hout := mul_between hx y
  have hlow := mul_between hy a.lo
  have hhigh := mul_between hy a.hi
  simp only [mul_comm _ a.lo, mul_comm _ a.hi] at hlow hhigh
  simp only [mul, mem_iff]
  omega

/-- The largest magnitude of a member. -/
def magnitude (a : Interval) : Int := max |a.lo| |a.hi|

theorem abs_le_magnitude (hx : x ∈ a) : |x| ≤ a.magnitude := by
  obtain ⟨hlo, hhi⟩ := hx
  rcases le_total 0 x with h | h
  · rw [abs_of_nonneg h]
    exact le_max_of_le_right (hhi.trans (le_abs_self _))
  · rw [abs_of_nonpos h]
    exact le_max_of_le_left ((neg_le_neg hlo).trans (neg_le_abs _))

/-- Where the truncated remainder can lie, by the sign of the numerator. -/
def rem (numerator divisor : Interval) : Interval :=
  let bound := min (divisor.magnitude - 1) numerator.magnitude
  if 0 ≤ numerator.lo then ⟨0, min numerator.hi bound⟩
  else if numerator.hi ≤ 0 then ⟨max numerator.lo (-bound), 0⟩
  else ⟨max numerator.lo (-bound), min numerator.hi bound⟩

/-- A truncated remainder is smaller than the divisor, no larger than the
numerator, and has the numerator's sign. -/
theorem tmod_bounds (x : Int) (hy : y ≠ 0) :
    |x.tmod y| < |y| ∧ (0 ≤ x → 0 ≤ x.tmod y ∧ x.tmod y ≤ x) ∧
      (x ≤ 0 → x ≤ x.tmod y ∧ x.tmod y ≤ 0) := by
  have habs := Int.natAbs_tmod x y
  have hlt : x.natAbs % y.natAbs < y.natAbs := Nat.mod_lt _ (Int.natAbs_pos.mpr hy)
  have hle : x.natAbs % y.natAbs ≤ x.natAbs := Nat.mod_le _ _
  have hpos : 0 ≤ x → 0 ≤ x.tmod y := Int.tmod_nonneg y
  have hneg : x ≤ 0 → x.tmod y ≤ 0 := by
    intro h
    have := Int.tmod_nonneg y (neg_nonneg.mpr h)
    rw [Int.neg_tmod] at this
    omega
  refine ⟨?_, fun h => ⟨hpos h, ?_⟩, fun h => ⟨?_, hneg h⟩⟩
  · rw [Int.abs_eq_natAbs, Int.abs_eq_natAbs]
    omega
  · omega
  · omega

theorem mem_rem (hx : x ∈ a) (hy : y ∈ b) (hne : y ≠ 0) : x.tmod y ∈ a.rem b := by
  obtain ⟨hlt, hpos, hneg⟩ := tmod_bounds x hne
  have hdivisor := abs_le_magnitude hy
  have hnumerator := abs_le_magnitude hx
  have hle : |x.tmod y| ≤ |x| := by
    rcases le_total 0 x with h | h
    · rw [abs_of_nonneg h, abs_of_nonneg (hpos h).1]
      exact (hpos h).2
    · rw [abs_of_nonpos h, abs_of_nonpos (hneg h).2]
      exact neg_le_neg (hneg h).1
  have hbound : |x.tmod y| ≤ min (b.magnitude - 1) a.magnitude := le_min (by omega) (by omega)
  obtain ⟨hlow, hhigh⟩ := abs_le.mp hbound
  obtain ⟨hlo, hhi⟩ := hx
  unfold rem
  rcases le_total 0 x with h | h
  · obtain ⟨h0, hx'⟩ := hpos h
    split
    · exact ⟨h0, le_min (hx'.trans hhi) hhigh⟩
    split
    · rename_i hhigh'
      exact ⟨max_le (by omega) hlow, hx'.trans (hhi.trans hhigh')⟩
    · exact ⟨max_le (by omega) hlow, le_min (hx'.trans hhi) hhigh⟩
  · obtain ⟨hx', h0⟩ := hneg h
    split
    · have hzero : x = 0 := by omega
      exact ⟨hzero ▸ hx', le_min (h0.trans (hzero ▸ hhi)) hhigh⟩
    split
    · exact ⟨max_le (hlo.trans hx') hlow, h0⟩
    · rename_i hhigh'
      exact ⟨max_le (hlo.trans hx') hlow, le_min (h0.trans (le_of_not_ge hhigh')) hhigh⟩

/-- A divisor that can be other than zero leaves some remainder. -/
theorem rem_inhabited (ha : a.Inhabited) (hb : b.Inhabited) (hne : b.magnitude ≠ 0) :
    (a.rem b).Inhabited := by
  by_cases hlo : b.lo = 0
  · have hhi : b.hi ≠ 0 := by
      intro hhi
      exact hne (by simp [magnitude, hlo, hhi])
    exact Inhabited.of_mem (mem_rem ha.lo_mem hb.hi_mem hhi)
  · exact Inhabited.of_mem (mem_rem ha.lo_mem hb.lo_mem hlo)

/-- Intersect with the integers from `lo` to `hi`, unless nothing would be left. -/
def clamp (a : Interval) (lo hi : Int) : Interval :=
  if max a.lo lo ≤ min a.hi hi then ⟨max a.lo lo, min a.hi hi⟩ else a

theorem mem_clamp {lo hi : Int} (hx : x ∈ a) (hlo : lo ≤ x) (hhi : x ≤ hi) : x ∈ a.clamp lo hi := by
  unfold clamp
  split
  · exact ⟨max_le hx.1 hlo, le_min hx.2 hhi⟩
  · exact hx

end Interval

end IntegerInterval
