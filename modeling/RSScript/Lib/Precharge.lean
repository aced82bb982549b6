import Mathlib.Algebra.BigOperators.Group.List.Basic
import Mathlib.Algebra.Order.BigOperators.Group.List
import Mathlib.Tactic.Ring

/-!
# Charging in advance

Positions on a line each have a cost, and some of them start a stretch that
reaches up to the next start. A meter that charges the cost of a whole stretch on
entering it is ahead of the positions that were executed; by how much depends on
the current position only, as long as a path leaves a stretch at its end and
enters one at its start (`Stretches`, `running_eq`). A visit may also be charged an
extra amount when it is left.
-/

namespace Precharge

open List Nat

/-- An executed position, with what was charged besides its cost. -/
structure Visit where
  ip : Nat
  extra : Nat
  deriving DecidableEq, Repr

/-- The visits from a starting position to the current one, the last visit first. -/
inductive Trail (Next : Visit → Nat → Prop) (start : Nat) : List Visit → Nat → Prop
  | start : Trail Next start [] start
  | step {visits : List Visit} {ip target : Nat} (extra : Nat) (trail : Trail Next start visits ip)
      (next : Next ⟨ip, extra⟩ target) : Trail Next start (⟨ip, extra⟩ :: visits) target

section Costs

variable (cost : Nat → Nat)

/-- What a visit is charged. -/
def Visit.charged (visit : Visit) : Nat := cost visit.ip + visit.extra

/-- What some visits are charged. -/
def paid (visits : List Visit) : Nat := (visits.map (Visit.charged cost)).sum

/-- The cost of the positions from one up to another. -/
def span (first last : Nat) : Nat := ((List.range' first (last - first)).map cost).sum

variable {cost}

@[simp] theorem charged_mk : Visit.charged cost ⟨ip, extra⟩ = cost ip + extra := rfl

@[simp] theorem paid_nil : paid cost [] = 0 := rfl

@[simp] theorem paid_cons :
    paid cost (visit :: visits) = visit.charged cost + paid cost visits := by
  simp [paid]

@[simp] theorem paid_append :
    paid cost (later ++ earlier) = paid cost later + paid cost earlier := by
  simp [paid]

theorem paid_eq_zero : paid cost visits = 0 ↔ ∀ visit ∈ visits, visit.charged cost = 0 := by
  simp [paid, sum_eq_zero_iff]

@[simp] theorem span_self : span cost ip ip = 0 := by simp [span]

theorem span_cons (h : first < last) :
    span cost first last = cost first + span cost (first + 1) last := by
  obtain ⟨count, hcount⟩ : ∃ count, last - first = count + 1 := ⟨last - first - 1, by omega⟩
  have hrest : last - (first + 1) = count := by omega
  simp [span, hcount, hrest, range'_succ]

theorem span_append (hfirst : first ≤ middle) (hlast : middle ≤ last) :
    span cost first middle + span cost middle last = span cost first last := by
  induction hfirst using decreasingInduction with
  | self => simp
  | of_succ ip hip ih =>
    rw [span_cons (by omega), span_cons (show ip < last by omega), add_assoc, ih]

end Costs

section Stretches

variable (starts : Nat → Bool) (size : Nat)

/-- The next start after a position, or the end of the line. -/
def stretchEnd (ip : Nat) : Nat :=
  ((List.range' (ip + 1) (size - (ip + 1))).find? starts).getD size

variable {starts size}

theorem stretchEnd_of_start (hip : ip < size) (h : ip + 1 < size → starts (ip + 1) = true) :
    stretchEnd starts size ip = ip + 1 := by
  unfold stretchEnd
  rcases eq_or_lt_of_le (succ_le_of_lt hip) with heq | hlt
  · simp [← heq]
  · obtain ⟨count, hcount⟩ : ∃ count, size - (ip + 1) = count + 1 := ⟨size - (ip + 1) - 1, by omega⟩
    rw [hcount, range'_succ, find?_cons_of_pos (h hlt)]
    rfl

theorem stretchEnd_of_not_start (hip : ip + 1 < size) (h : starts (ip + 1) = false) :
    stretchEnd starts size ip = stretchEnd starts size (ip + 1) := by
  unfold stretchEnd
  obtain ⟨count, hcount⟩ : ∃ count, size - (ip + 1) = count + 1 := ⟨size - (ip + 1) - 1, by omega⟩
  have hrest : size - (ip + 1 + 1) = count := by omega
  rw [hcount, hrest, range'_succ, find?_cons_of_neg (by simp [h])]

theorem lt_stretchEnd (hip : ip < size) :
    ip < stretchEnd starts size ip ∧ stretchEnd starts size ip ≤ size := by
  unfold stretchEnd
  cases hfind : (range' (ip + 1) (size - (ip + 1))).find? starts with
  | none => simp [hip]
  | some next =>
    have := mem_range'_1.mp (mem_of_find?_eq_some hfind)
    simp only [Option.getD_some]
    omega

/-- Positions of one stretch have the same end. -/
theorem stretchEnd_of_between (hle : first ≤ ip) (hip : ip < size)
    (hnone : ∀ later, first < later → later ≤ ip → starts later = false) :
    stretchEnd starts size first = stretchEnd starts size ip := by
  induction hle using decreasingInduction with
  | self => rfl
  | of_succ first hfirst ih =>
    rw [stretchEnd_of_not_start (by omega) (hnone _ (lt_succ_self first) (by omega))]
    exact ih fun later hlater hle => hnone later (by omega) hle

variable (cost : Nat → Nat) (starts size)

/-- What is left of the stretch of a position. -/
def rest (ip : Nat) : Nat := span cost ip (stretchEnd starts size ip)

/-- What is charged on entering a position. -/
def charge (ip : Nat) : Nat := if starts ip then rest starts size cost ip else 0

/-- The count on arrival at the position after some visits. -/
def arrival (entry : Nat) : List Visit → Nat
  | [] => entry
  | visit :: visits => arrival entry visits + charge starts size cost visit.ip + visit.extra

/-- A path leaves a stretch at its end and enters one at its start. -/
structure Stretches (Next : Visit → Nat → Prop) : Prop where
  lt : ∀ {ip extra target}, Next ⟨ip, extra⟩ target → ip < size ∧ target < size
  next : ∀ {ip extra target}, Next ⟨ip, extra⟩ target →
    target = ip + 1 ∨ starts target = true ∧ (ip + 1 < size → starts (ip + 1) = true)

variable {cost starts size} {Next : Visit → Nat → Prop} {start entry : Nat}

theorem rest_of_end (hip : ip < size) (h : ip + 1 < size → starts (ip + 1) = true) :
    rest starts size cost ip = cost ip := by
  rw [rest, stretchEnd_of_start hip h, span_cons (by omega)]
  simp

theorem rest_of_inside (hip : ip + 1 < size) (h : starts (ip + 1) = false) :
    rest starts size cost ip = cost ip + rest starts size cost (ip + 1) := by
  have hlt := @lt_stretchEnd starts size (ip + 1) hip
  rw [rest, rest, stretchEnd_of_not_start hip h, span_cons (by omega)]

section Stretched

variable {visits : List Visit} {ip : Nat} (hstretches : Stretches starts size Next)
  (hstart : starts start = true)

include hstretches hstart

/-- The count on arrival: what was paid, and the rest of a stretch that was entered before. -/
theorem arrival_eq (h : Trail Next start visits ip) : arrival starts size cost entry visits =
      entry + paid cost visits + if starts ip then 0 else rest starts size cost ip := by
  induction h with
  | start => simp [arrival, hstart]
  | @step visits ip target extra _ hnext ih =>
    obtain ⟨hip, htarget⟩ := hstretches.lt hnext
    have hcharged : arrival starts size cost entry visits + charge starts size cost ip =
        entry + paid cost visits + rest starts size cost ip := by
      rw [ih, charge]
      split <;> omega
    have hrest : rest starts size cost ip =
        cost ip + if starts target then 0 else rest starts size cost target := by
      rcases hstretches.next hnext with rfl | ⟨hstarts, hend⟩
      · by_cases hstarts : starts (ip + 1) = true
        · rw [rest_of_end hip fun _ => hstarts, if_pos hstarts]
          omega
        · simp only [Bool.not_eq_true] at hstarts
          simp only [rest_of_inside htarget hstarts, hstarts, Bool.false_eq_true, if_false]
      · rw [rest_of_end hip hend, if_pos hstarts]
        omega
    show arrival starts size cost entry visits + charge starts size cost ip + extra = _
    rw [hcharged, paid_cons, charged_mk]
    omega

/-- The count while a position is executed is ahead by the rest of its stretch. -/
theorem running_eq (h : Trail Next start visits ip) :
    arrival starts size cost entry visits + charge starts size cost ip =
      entry + paid cost visits + rest starts size cost ip := by
  rw [arrival_eq hstretches hstart h, charge]
  split <;> omega

/-- The visits since a position of the current stretch are those of the positions
from there on, each once. -/
theorem exists_since (h : Trail Next start visits ip) (hle : first ≤ ip)
    (hinside : ∀ later, first < later → later ≤ ip → starts later = false) :
    ∃ since before, visits = since ++ before ∧
      paid cost since = span cost first ip + (since.map Visit.extra).sum ∧
      (first = ip ∧ since = [] ∨ first < ip ∧ ∃ later extra, since = later ++ [⟨first, extra⟩] ∧
        ∀ visit ∈ later, visit.ip ≠ first) := by
  induction h with
  | start =>
    obtain rfl : first = start := by
      by_contra hne
      simp [hinside start (by omega) le_rfl] at hstart
    exact ⟨[], [], rfl, by simp, .inl ⟨rfl, rfl⟩⟩
  | @step visits ip target extra htrail hnext ih =>
    rcases eq_or_lt_of_le hle with rfl | hlt
    · exact ⟨[], _, rfl, by simp, .inl ⟨rfl, rfl⟩⟩
    · have hnot := hinside target hlt le_rfl
      obtain rfl : target = ip + 1 := by
        rcases hstretches.next hnext with heq | ⟨hstarts, _⟩
        · exact heq
        · simp [hnot] at hstarts
      obtain ⟨since, before, rfl, hpaid, hcases⟩ := ih (by omega) fun later hlater hle =>
        hinside later hlater (by omega)
      refine ⟨⟨ip, extra⟩ :: since, before, rfl, ?_, .inr ⟨hlt, ?_⟩⟩
      · have hspan := @span_append cost first ip (ip + 1) (by omega) (le_succ ip)
        rw [span_cons (lt_succ_self ip), span_self] at hspan
        simp only [paid_cons, hpaid, charged_mk, map_cons, sum_cons]
        omega
      · rcases hcases with ⟨rfl, rfl⟩ | ⟨hless, later, other, rfl, hlater⟩
        · exact ⟨[], extra, rfl, by simp⟩
        · refine ⟨⟨ip, extra⟩ :: later, other, rfl, forall_mem_cons.mpr ⟨?_, hlater⟩⟩
          exact ne_of_gt hless

end Stretched

end Stretches

/-- The visits between two points of a trail, whichever is the earlier. -/
def between (one other : List Visit) : List Visit :=
  one.take (one.length - other.length) ++ other.take (other.length - one.length)

/-- Two points of a trail have paid the same exactly if nothing was charged between them. -/
theorem paid_eq_iff (hone : one <:+ visits) (hother : other <:+ visits) :
    paid cost one = paid cost other ↔ ∀ visit ∈ between one other, visit.charged cost = 0 := by
  have hsplit : ∀ {short long : List Visit}, short <:+ long →
      (paid cost long = paid cost short ↔
        ∀ visit ∈ long.take (long.length - short.length), visit.charged cost = 0) := by
    rintro short long ⟨more, rfl⟩
    simp [paid_eq_zero]
  unfold between
  rcases le_total one.length other.length with hle | hle
  · have hsuffix := suffix_of_suffix_length_le hone hother hle
    rw [Nat.sub_eq_zero_of_le hle, take_zero, nil_append, ← hsplit hsuffix]
    exact eq_comm
  · have hsuffix := suffix_of_suffix_length_le hother hone hle
    rw [Nat.sub_eq_zero_of_le hle, take_zero, append_nil, ← hsplit hsuffix]

end Precharge
