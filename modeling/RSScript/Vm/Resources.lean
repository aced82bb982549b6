import RSScript.Vm.Channels

/-!
# Resource scopes

The live resources of each task, as a stack. Like the channel table they are
reached through calls only. Every acquired resource gets a ticket, its number
among the acquired ones, by which the history tells resources with equal values
apart; no operation reads the history.
-/

namespace RSScript.Vm

/-- A live resource and the register it was acquired in. The ticket numbers acquisitions. -/
structure TrackedResource (V : Type) where
  register : Nat
  value : V
  ticket : Nat

inductive ResourceEvent (V : Type) where
  | acquired (task ticket : Nat) (value : V)
  /-- The value is passed to `run_resource_drop`. -/
  | dropped (ticket : Nat) (value : V)

structure Resources (V : Type) where
  /-- The live resources of each task, the last acquired first. -/
  scopes : List (Nat × List (TrackedResource V)) := []
  acquired : Nat := 0
  history : List (ResourceEvent V) := []

/-- What the interpreter asks of the resource scopes. -/
inductive ResourceCall (V : Type) : Type → Type where
  | acquire (task register : Nat) (value : V) : ResourceCall V Unit
  | pop (task : Nat) : ResourceCall V (Option (TrackedResource V))
  | forget (task : Nat) : ResourceCall V Unit
  | tasks : ResourceCall V (List Nat)
  | dropping (ticket : Nat) (value : V) : ResourceCall V Unit

variable {V : Type}

/-- The live resources of a task. -/
def Resources.live (resources : Resources V) (task : Nat) : List (TrackedResource V) :=
  (SortedMap.get task resources.scopes).getD []

def answerResource : (β : Type) → ResourceCall V β → Resources V → Except EvalError β × Resources V
  | _, .acquire task register value, resources =>
    let ticket := resources.acquired
    let tracked : TrackedResource V := ⟨register, value, ticket⟩
    (.ok (), {
      scopes := SortedMap.insert task (tracked :: resources.live task) resources.scopes
      acquired := ticket + 1
      history := resources.history ++ [.acquired task ticket value] })
  | _, .pop task, resources =>
    match SortedMap.get task resources.scopes with
    | some (tracked :: rest) =>
      (.ok (some tracked), { resources with scopes := SortedMap.insert task rest resources.scopes })
    | _ => (.ok none, resources)
  | _, .forget task, resources =>
    (.ok (), { resources with
      scopes := resources.scopes.filter fun entry => entry.1 ≠ task })
  | _, .tasks, resources => (.ok (resources.scopes.map Prod.fst), resources)
  | _, .dropping ticket value, resources =>
    (.ok (), { resources with history := resources.history ++ [.dropped ticket value] })

end RSScript.Vm
