import Mathlib.Tactic.ByContra

/-!
# Searches with a work budget

A search examines candidates one after the other and charges its work to a budget
they share. A candidate is skipped when a test fails, and the search stops when
the budget is used up. `Returns` says that a computation can return a value; what
follows from it is that its tests held, whatever was charged on the way.
-/

namespace Budget

/-- Why a candidate was given up. -/
inductive Halt where
  | skip
  | stop
  deriving DecidableEq, Repr

/-- A computation on the remaining budget. -/
def Work (α : Type) := Nat → Except Halt α × Nat

variable {α : Type}

instance : Monad Work where
  pure a := fun remaining => (.ok a, remaining)
  bind x f := fun remaining =>
    match x remaining with
    | (.ok a, rest) => f a rest
    | (.error halt, rest) => (.error halt, rest)

/-- Pay for some work; what is left when the budget does not reach is forfeited. -/
def charge (amount : Nat) : Work Unit := fun remaining =>
  if amount ≤ remaining then (.ok (), remaining - amount) else (.error .stop, 0)

/-- Go on with the candidate only if a condition holds. -/
def require (p : Prop) [Decidable p] : Work Unit := fun remaining =>
  if p then (.ok (), remaining) else (.error .skip, remaining)

/-- Go on with the value of an option. -/
def some? (found : Option α) : Work α := fun remaining =>
  match found with
  | some a => (.ok a, remaining)
  | none => (.error .skip, remaining)

/-- The computation returns the value from some budget. -/
def Returns (work : Work α) (a : α) : Prop := ∃ before after, work before = (.ok a, after)

theorem Returns.bind (h : Returns (x >>= f) b) : ∃ a, Returns x a ∧ Returns (f a) b := by
  obtain ⟨before, after, heq⟩ := h
  simp only [Bind.bind] at heq
  cases hx : x before with
  | mk result rest =>
    cases result with
    | error halt => simp [hx] at heq
    | ok a =>
      rw [hx] at heq
      exact ⟨a, ⟨before, rest, hx⟩, ⟨rest, after, heq⟩⟩

theorem Returns.pure (h : Returns (pure a) b) : a = b := by
  obtain ⟨before, after, heq⟩ := h
  exact Except.ok.inj (congrArg Prod.fst heq)

theorem Returns.require [Decidable p] (h : Returns (require p) u) : p := by
  obtain ⟨before, after, heq⟩ := h
  by_contra hp
  simp [Budget.require, hp] at heq

theorem Returns.some? (h : Returns (some? found) a) : found = some a := by
  obtain ⟨before, after, heq⟩ := h
  cases found with
  | none => simp [Budget.some?] at heq
  | some b => simpa [Budget.some?] using congrArg Prod.fst heq

/-- A traversal returns only if every element passes. -/
theorem Returns.forM {as : List α} (h : Returns (as.forM check) u) :
    ∀ a ∈ as, Returns (check a) () := by
  induction as with
  | nil => simp
  | cons a as ih =>
    have hcons : Returns (check a >>= fun _ => as.forM check) u := h
    obtain ⟨_, ha, has⟩ := hcons.bind
    exact List.forall_mem_cons.mpr ⟨ha, ih has⟩

end Budget
