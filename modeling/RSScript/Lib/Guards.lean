import Mathlib.Data.Finset.Insert
import Mathlib.Data.List.Nodup

/-!
# Sequences of checks

A validator is a sequence of steps in `Except`, most of which only test
something. These facts say what its success means: each step succeeded, each
tested condition held, and each element of a traversed list passed.
-/

namespace Guards

variable {ε α β : Type}

variable {x : Except ε α} {a : α} {as : List α}

/-- A sequence succeeds exactly when its first step does and the rest does after it. -/
@[simp] theorem bind_eq_ok : (x >>= f) = .ok b ↔ ∃ a, x = .ok a ∧ f a = .ok b := by
  cases x with
  | error e => simp [bind, Except.bind]
  | ok a => simp [bind, Except.bind]

@[simp] theorem pure_eq_ok : (pure a : Except ε α) = .ok b ↔ a = b := by simp [pure, Except.pure]

@[simp] theorem map_eq_ok : f <$> x = .ok b ↔ ∃ a, x = .ok a ∧ f a = b := by
  cases x with
  | error e => simp [Functor.map, Except.map]
  | ok a => simp [Functor.map, Except.map]

@[simp] theorem throw_ne_ok : (throw e : Except ε α) ≠ .ok a := by
  simp [throw, throwThe, MonadExceptOf.throw]

/-- Test a condition; `e` is the error of a failed test. -/
def ensure (p : Prop) [Decidable p] (e : ε) : Except ε Unit :=
  if p then .ok () else .error e

@[simp] theorem ensure_eq_ok [Decidable p] : ensure p e = .ok u ↔ p := by
  by_cases h : p <;> simp [ensure, h]

/-- A traversal succeeds exactly when every element passes. -/
@[simp] theorem forM_eq_ok {check : α → Except ε Unit} :
    as.forM check = .ok u ↔ ∀ a ∈ as, check a = .ok () := by
  induction as with
  | nil => simp
  | cons a as ih =>
    change (check a >>= fun _ => as.forM check) = _ ↔ _
    rw [bind_eq_ok, List.forall_mem_cons, ih]
    constructor
    · rintro ⟨_, ha, has⟩
      exact ⟨ha, has⟩
    · rintro ⟨ha, has⟩
      exact ⟨(), ha, has⟩

/-- A traversal that collects succeeds when every element does. -/
theorem exists_mapM_ok {f : α → Except ε β} (h : ∀ a ∈ as, ∃ b, f a = .ok b) :
    ∃ bs, as.mapM f = .ok bs := by
  induction as with
  | nil => exact ⟨[], by simp⟩
  | cons a as ih =>
    obtain ⟨hhead, htail⟩ := List.forall_mem_cons.mp h
    obtain ⟨b, hb⟩ := hhead
    obtain ⟨bs, hbs⟩ := ih htail
    refine ⟨b :: bs, ?_⟩
    rw [List.mapM_cons]
    exact bind_eq_ok.mpr ⟨b, hb, bind_eq_ok.mpr ⟨bs, hbs, rfl⟩⟩

/-- A successful fold took every element through a successful step. -/
theorem exists_of_foldlM_eq_ok {step : β → α → Except ε β} (h : as.foldlM step init = .ok final)
    (ha : a ∈ as) : ∃ before after, step before a = .ok after := by
  induction as generalizing init with
  | nil => exact absurd ha (by simp)
  | cons first as ih =>
    obtain ⟨next, hfirst, hrest⟩ := bind_eq_ok.mp h
    rcases List.mem_cons.mp ha with rfl | ha
    · exact ⟨init, next, hfirst⟩
    · exact ih hrest ha

/-- What every step of a fold keeps holds at its end. -/
theorem foldlM_induction {step : β → α → Except ε β} {I : β → Prop} (hinit : I init)
    (hstep : ∀ {before after : β} {a : α}, a ∈ as → I before → step before a = .ok after → I after)
    (h : as.foldlM step init = .ok final) : I final := by
  induction as generalizing init with
  | nil =>
    obtain rfl : init = final := by simpa using h
    exact hinit
  | cons first as ih =>
    obtain ⟨next, hfirst, hrest⟩ := bind_eq_ok.mp h
    refine ih (hstep List.mem_cons_self hinit hfirst) (fun hmem => ?_) hrest
    exact hstep (List.mem_cons_of_mem _ hmem)

section Insertions

variable {κ : Type} [DecidableEq κ] {step : Finset κ → α → Except ε (Finset κ)} (key : α → κ)
  (passes : α → Prop)
  (hstep : ∀ seen a after, step seen a = .ok after ↔ passes a ∧ key a ∉ seen ∧ insert (key a) seen = after)

include hstep

/-- A fold that collects keys succeeds exactly when every element passes and no key is met again. -/
theorem foldlM_insert_eq_ok : (∃ final, as.foldlM step seen = .ok final) ↔
      (∀ a ∈ as, passes a) ∧ (∀ a ∈ as, key a ∉ seen) ∧ (as.map key).Nodup := by
  induction as generalizing seen with
  | nil => simp
  | cons first as ih =>
    simp only [List.foldlM_cons, bind_eq_ok, hstep]
    constructor
    · rintro ⟨final, _, ⟨hpasses, hfresh, rfl⟩, hrest⟩
      obtain ⟨hall, hunseen, hnodup⟩ := ih.mp ⟨final, hrest⟩
      simp only [Finset.mem_insert, not_or] at hunseen
      refine ⟨List.forall_mem_cons.mpr ⟨hpasses, hall⟩,
        List.forall_mem_cons.mpr ⟨hfresh, fun a ha => (hunseen a ha).2⟩,
        List.nodup_cons.mpr ⟨fun hmem => ?_, hnodup⟩⟩
      obtain ⟨a, ha, heq⟩ := List.mem_map.mp hmem
      exact (hunseen a ha).1 heq
    · rintro ⟨hall, hunseen, hnodup⟩
      obtain ⟨hpasses, hall⟩ := List.forall_mem_cons.mp hall
      obtain ⟨hfresh, hunseen⟩ := List.forall_mem_cons.mp hunseen
      obtain ⟨hfirst, hnodup⟩ := List.nodup_cons.mp hnodup
      have hrest : ∀ a ∈ as, key a ∉ insert (key first) seen := by
        intro a ha hmem
        rcases Finset.mem_insert.mp hmem with heq | hmem
        · exact hfirst (List.mem_map.mpr ⟨a, ha, heq⟩)
        · exact hunseen a ha hmem
      obtain ⟨final, hfinal⟩ := ih.mpr ⟨hall, hrest, hnodup⟩
      exact ⟨final, _, ⟨hpasses, hfresh, rfl⟩, hfinal⟩

/-- A check of each element and of the difference of their keys. -/
theorem distinct_eq_ok :
    (do let _ ← as.foldlM step ∅) = .ok u ↔ (∀ a ∈ as, passes a) ∧ (as.map key).Nodup := by
  rw [bind_eq_ok]
  simp only [pure_eq_ok, and_true, foldlM_insert_eq_ok key passes hstep]
  simp

end Insertions

end Guards
