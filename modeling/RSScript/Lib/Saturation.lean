import Mathlib.Order.Nat

/-!
# Rounds until nothing changes

A round visits every item once, and a visit leaves the state as it is or makes it larger. If
states have a bound the rounds come to one that no visit changes, and what visits keep holds
of it (`saturate_spec`).
-/

namespace Saturation

variable {σ α : Type} (visit : σ → α → σ) (items : List α)

def saturate [DecidableEq σ] : Nat → σ → σ
  | 0, state => state
  | fuel + 1, state =>
    let next := items.foldl visit state
    if next = state then state else saturate fuel next

variable {visit items} {size : σ → Nat}
  (hvisit : ∀ state a, visit state a = state ∨ size state < size (visit state a))

include hvisit

/-- A round changes nothing or adds something. -/
theorem foldl_eq_or_lt (items : List α) (state : σ) :
    items.foldl visit state = state ∨ size state < size (items.foldl visit state) := by
  induction items generalizing state with
  | nil => exact .inl rfl
  | cons a items ih =>
    rw [List.foldl_cons]
    rcases hvisit state a with hsame | hmore
    · rw [hsame]
      exact ih state
    · rcases ih (visit state a) with hrest | hrest
      · exact .inr (by rwa [hrest])
      · exact .inr (hmore.trans hrest)

/-- A round that changes nothing has no visit that does. -/
theorem visit_eq_of_foldl_eq {items : List α} {state : σ} (h : items.foldl visit state = state)
    {a : α} (ha : a ∈ items) : visit state a = state := by
  induction items with
  | nil => cases ha
  | cons b items ih =>
    rw [List.foldl_cons] at h
    have hb : visit state b = state := by
      refine (hvisit state b).resolve_right fun hmore => ?_
      rcases foldl_eq_or_lt hvisit items (visit state b) with hrest | hrest
      · exact hmore.ne (by rw [← hrest, h])
      · exact absurd (hmore.trans hrest) (by rw [h]; exact lt_irrefl _)
    rw [hb] at h
    rcases List.mem_cons.mp ha with rfl | ha
    · exact hb
    · exact ih h ha

theorem saturate_spec [DecidableEq σ] {invariant : σ → Prop}
    (hkeeps : ∀ state, invariant state → ∀ a ∈ items, invariant (visit state a))
    (hbound : ∀ state, invariant state → size state ≤ bound) (h : invariant state)
    (hfuel : bound < size state + fuel) : invariant (saturate visit items fuel state) ∧
      ∀ a ∈ items, visit (saturate visit items fuel state) a = saturate visit items fuel state := by
  induction fuel generalizing state with
  | zero => exact absurd (hbound state h) (by omega)
  | succ fuel ih =>
    rcases foldl_eq_or_lt hvisit items state with hsame | hmore
    · rw [saturate, if_pos hsame]
      exact ⟨h, fun a ha => visit_eq_of_foldl_eq hvisit hsame ha⟩
    · rw [saturate, if_neg fun hsame => hmore.ne (by rw [hsame])]
      exact ih (List.foldlRecOn _ _ h hkeeps) (by omega)

end Saturation
