import RSScript.Lib.Guards

/-!
# Outcomes of checkers

A checker that can also panic, or whose loops are run with fuel, returns one of
three faults besides its value: an error of its own, a panic, or "out of fuel".
`Graceful` says that a result is a value or an error; `Answers` says that a
program with loops settles on such a result once it has enough fuel. Both are
closed under sequencing and traversal, so that a whole checker answers if its
parts do.
-/

namespace Outcome

/-- How a checker can fail to return a value. -/
inductive Fault (ε : Type) where
  | error (error : ε)
  | panic
  | outOfFuel
  deriving DecidableEq, Repr

variable {ε α β : Type}

/-- `slice[position]`, which panics out of range. -/
def at_ (values : List α) (position : Nat) : Except (Fault ε) α :=
  match values[position]? with
  | some value => .ok value
  | none => .error .panic

variable {values : List α}

@[simp] theorem at_eq_ok :
    (at_ values position : Except (Fault ε) α) = .ok a ↔ values[position]? = some a := by
  unfold at_
  cases values[position]? <;> simp

/-! ## Results that are no panic -/

/-- A result that is a value or one of the checker's errors. -/
def Graceful (result : Except (Fault ε) α) : Prop :=
  ∀ fault, result = .error fault → ∃ error, fault = .error error

namespace Graceful

theorem ok (a : α) : Graceful (.ok a : Except (Fault ε) α) := fun _ h => absurd h (by simp)

theorem pure (a : α) : Graceful (pure a : Except (Fault ε) α) := ok a

theorem error (error : ε) : Graceful (.error (.error error) : Except (Fault ε) α) := by
  intro fault h
  exact ⟨error, (Except.error.inj h).symm⟩

theorem throw (error : ε) : Graceful (throw (.error error) : Except (Fault ε) α) :=
  Graceful.error error

/-- A sequence needs its second part only after its first one succeeded. -/
theorem bind (hx : Graceful x) (hf : ∀ a, x = .ok a → Graceful (f a)) : Graceful (x >>= f) := by
  intro fault h
  cases x with
  | error fault' =>
    obtain rfl : fault' = fault := by simpa [Bind.bind, Except.bind] using h
    exact hx fault' rfl
  | ok a => exact hf a rfl fault h

theorem ensure [Decidable p] (error : ε) : Graceful (Guards.ensure p (.error error)) := by
  unfold Guards.ensure
  split
  · exact ok ()
  · exact Graceful.error error

theorem ensured [Decidable p] {error : ε}
    (h : ∀ a, Guards.ensure p (Fault.error error) = .ok a → Graceful (next a)) :
    Graceful (Guards.ensure p (.error error) >>= next) := (ensure error).bind h

theorem at_ (h : position < values.length) :
    Graceful (at_ values position : Except (Fault ε) α) := by
  rw [at_eq_ok.mpr (List.getElem?_eq_getElem h)]
  exact ok _

theorem forM (h : ∀ value ∈ values, Graceful (check value)) : Graceful (values.forM check) := by
  induction values with
  | nil => exact pure ()
  | cons value values ih =>
    obtain ⟨hhead, htail⟩ := List.forall_mem_cons.mp h
    exact bind hhead fun _ _ => ih htail

theorem mapM (h : ∀ value ∈ values, Graceful (f value)) : Graceful (values.mapM f) := by
  induction values with
  | nil => exact pure []
  | cons value values ih =>
    obtain ⟨hhead, htail⟩ := List.forall_mem_cons.mp h
    rw [List.mapM_cons]
    exact bind hhead fun _ _ => bind (ih htail) fun _ _ => pure _

theorem foldlM (h : ∀ acc, ∀ value ∈ values, Graceful (step acc value)) :
    Graceful (values.foldlM step init) := by
  induction values generalizing init with
  | nil => exact pure init
  | cons value values ih =>
    refine bind (h init value List.mem_cons_self) fun acc _ => ih fun acc value hmem => ?_
    exact h acc value (List.mem_cons_of_mem _ hmem)

end Graceful

/-! ## Programs with loops -/

/-- A program that, given enough fuel, settles on one graceful result. -/
def Answers (program : Nat → Except (Fault ε) α) : Prop :=
  ∃ bound result, Graceful result ∧ ∀ fuel, bound ≤ fuel → program fuel = result

namespace Answers

theorem of_graceful (h : Graceful result) : Answers fun _ => result :=
  ⟨0, result, h, fun _ _ => rfl⟩

variable {next : Nat → α → Except (Fault ε) β}

/-- The second part of a sequence needs to settle only on values the first one
settles on. -/
theorem bind (hprogram : Answers program)
    (hnext : ∀ a, (∃ fuel, program fuel = .ok a) → Answers fun fuel => next fuel a) :
    Answers fun fuel => program fuel >>= next fuel := by
  obtain ⟨bound, result, hresult, hprogram⟩ := hprogram
  cases result with
  | error fault =>
    refine ⟨bound, .error fault, fun fault' h => hresult fault' ?_, fun fuel hfuel => ?_⟩
    · exact congrArg Except.error (Except.error.inj h)
    · show (program fuel >>= next fuel) = _
      rw [hprogram fuel hfuel]
      rfl
  | ok a =>
    obtain ⟨bound', result, hresult, hnext⟩ := hnext a ⟨bound, hprogram bound (Nat.le_refl _)⟩
    refine ⟨max bound bound', result, hresult, fun fuel hfuel => ?_⟩
    show (program fuel >>= next fuel) = _
    rw [hprogram fuel (Nat.le_trans (Nat.le_max_left _ _) hfuel)]
    exact hnext fuel (Nat.le_trans (Nat.le_max_right _ _) hfuel)

theorem bind_graceful (hresult : Graceful result)
    (hnext : ∀ a, result = .ok a → Answers fun fuel => next fuel a) :
    Answers fun fuel => result >>= next fuel :=
  bind (of_graceful hresult) fun a ⟨_, ha⟩ => hnext a ha

theorem foldlM {step : Nat → β → α → Except (Fault ε) β}
    (h : ∀ acc, ∀ value ∈ values, Answers fun fuel => step fuel acc value) :
    Answers fun fuel => values.foldlM (step fuel) init := by
  induction values generalizing init with
  | nil => exact of_graceful (Graceful.pure init)
  | cons value values ih =>
    refine bind (h init value List.mem_cons_self) fun acc _ => ih fun acc value hmem => ?_
    exact h acc value (List.mem_cons_of_mem _ hmem)

end Answers

end Outcome
