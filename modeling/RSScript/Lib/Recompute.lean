import Mathlib.Algebra.BigOperators.Group.Finset.Basic
import Mathlib.Algebra.Order.BigOperators.Group.Finset
import Mathlib.Data.Finset.Dedup
import Mathlib.Logic.Function.Basic

/-!
# Recomputing facts until nothing changes

A table of facts, one per node, and a queue of nodes whose fact may be stale. A
visit recomputes the fact of a node from the table; if it changed, the dependents
of the node are queued again, each at most once. Nodes that are never queued keep
the fact they started with.

When a recomputed fact only ever moves down an order, the queue runs empty
(`run_pending`), every node then has the fact its equation gives it (`run_fixed`),
and the table lies above every other table that could have been read off the
equations (`run_above`).
-/

namespace Recompute

open Function List

/-- The equation of each node, and the nodes whose equation reads it. -/
structure System (σ : Type) where
  recompute : (Nat → σ) → Nat → σ
  dependents : Nat → List Nat

structure State (σ : Type) where
  facts : Nat → σ
  queued : Nat → Bool
  pending : List Nat

variable {σ : Type}

/-- Queue a node unless it is queued already. -/
def State.requeue (state : State σ) (node : Nat) : State σ :=
  if state.queued node then state
  else { state with
    queued := Function.update state.queued node true
    pending := state.pending ++ [node] }

namespace System

variable (S : System σ) [DecidableEq σ]

/-- Visit a node that was just taken from the queue. -/
def visit (state : State σ) (node : Nat) : State σ :=
  let fact := S.recompute state.facts node
  if fact = state.facts node then state
  else (S.dependents node).foldl State.requeue
    { state with facts := Function.update state.facts node fact }

/-- Take the first node of the queue and visit it. -/
def step (state : State σ) : State σ :=
  match state.pending with
  | [] => state
  | node :: pending =>
    S.visit { state with queued := Function.update state.queued node false, pending } node

def run : Nat → State σ → State σ
  | 0, state => state
  | fuel + 1, state =>
    match state.pending with
    | [] => state
    | _ :: _ => run fuel (S.step state)

end System

/-! ## The queue -/

/-- The flags say what is queued, and nothing is queued twice. -/
structure State.Tidy (state : State σ) : Prop where
  nodup : state.pending.Nodup
  queued : ∀ node, state.queued node = true ↔ node ∈ state.pending

variable {node : Nat} {pending : List Nat}

namespace State

variable {state : State σ}

@[simp] theorem requeue_facts : (state.requeue node).facts = state.facts := by
  unfold requeue
  split <;> rfl

theorem foldl_requeue_facts (nodes : List Nat) :
    (nodes.foldl requeue state).facts = state.facts := by
  induction nodes generalizing state with
  | nil => rfl
  | cons node nodes ih => rw [foldl_cons, ih, requeue_facts]

theorem Tidy.mem_requeue (htidy : state.Tidy) :
    other ∈ (state.requeue node).pending ↔ other ∈ state.pending ∨ other = node := by
  unfold requeue
  split
  · rename_i hqueued
    have hmem := (htidy.queued node).mp hqueued
    constructor
    · exact Or.inl
    · rintro (h | rfl)
      · exact h
      · exact hmem
  · simp

theorem Tidy.requeue (htidy : state.Tidy) (node : Nat) : (state.requeue node).Tidy := by
  unfold State.requeue
  split
  · exact htidy
  · rename_i hqueued
    have hfresh : node ∉ state.pending := fun h => hqueued ((htidy.queued node).mpr h)
    refine ⟨?_, fun other => ?_⟩
    · exact nodup_append.mpr ⟨htidy.nodup, nodup_singleton _, by
        rintro a ha b hb rfl
        exact hfresh (mem_singleton.mp hb ▸ ha)⟩
    · by_cases hother : other = node
      · subst hother
        simp
      · simp [htidy.queued other, hother]

theorem Tidy.foldl_requeue (htidy : state.Tidy) (nodes : List Nat) :
    (nodes.foldl State.requeue state).Tidy ∧
      ∀ other, other ∈ (nodes.foldl State.requeue state).pending ↔
        other ∈ state.pending ∨ other ∈ nodes := by
  induction nodes generalizing state with
  | nil => exact ⟨htidy, by simp⟩
  | cons node nodes ih =>
    obtain ⟨htidy', hmem⟩ := ih (htidy.requeue node)
    refine ⟨htidy', fun other => ?_⟩
    rw [foldl_cons, hmem, htidy.mem_requeue, mem_cons, or_assoc]

/-- The queue without its first node. -/
theorem Tidy.pop (htidy : state.Tidy) (h : state.pending = node :: pending) :
    State.Tidy { state with queued := Function.update state.queued node false, pending } := by
  have hnodup := htidy.nodup
  rw [h] at hnodup
  obtain ⟨hfresh, hnodup⟩ := nodup_cons.mp hnodup
  refine ⟨hnodup, fun other => ?_⟩
  by_cases hother : other = node
  · subst hother
    simp [hfresh]
  · have hqueued := htidy.queued other
    simp only [h, mem_cons, hother, false_or] at hqueued
    simpa [update_of_ne hother] using hqueued

end State

/-! ## A step -/

namespace System

variable {S : System σ} [DecidableEq σ] {state : State σ}

/-- What a step does: it takes the first node, gives it the fact of its equation,
and queues its dependents if that fact is new. -/
theorem step_cases (htidy : state.Tidy) (h : state.pending = node :: pending) :
    (S.step state).Tidy ∧
      (S.step state).facts =
        Function.update state.facts node (S.recompute state.facts node) ∧
      (S.recompute state.facts node = state.facts node ∧ (S.step state).pending = pending ∨
        S.recompute state.facts node ≠ state.facts node ∧ ∀ other, other ∈ (S.step state).pending ↔
            other ∈ pending ∨ other ∈ S.dependents node) := by
  simp only [step, h]
  have hpop := htidy.pop h
  unfold visit
  by_cases hsame : S.recompute state.facts node = state.facts node
  · refine ⟨?_, ?_, .inl ⟨hsame, ?_⟩⟩
    · rw [if_pos hsame]
      exact hpop
    · rw [if_pos hsame, hsame, update_eq_self]
    · rw [if_pos hsame]
  · simp only [if_neg hsame]
    have hassigned : State.Tidy { state with
        facts := update state.facts node (S.recompute state.facts node)
        queued := update state.queued node false
        pending } := ⟨hpop.nodup, hpop.queued⟩
    obtain ⟨htidy', hmem⟩ := hassigned.foldl_requeue (S.dependents node)
    exact ⟨htidy', State.foldl_requeue_facts _, .inr ⟨hsame, hmem⟩⟩

/-- What every step keeps holds after a run. -/
theorem run_induction {I : State σ → Prop}
    (hstep : ∀ (state : State σ) (node : Nat) (pending : List Nat),
      state.pending = node :: pending → I state → I (S.step state))
    (fuel : Nat) (hstate : I state) : I (S.run fuel state) := by
  induction fuel generalizing state with
  | zero => exact hstate
  | succ fuel ih =>
    rw [run]
    split
    · exact hstate
    · rename_i node pending hpending
      exact ih (hstep state node pending hpending hstate)

/-! ## Fixed points -/

/-- The equation of a node among `nodes` reads only the nodes it depends on, and
dependents are among `nodes`. -/
structure Local (S : System σ) (nodes : Nat → Prop) : Prop where
  reads : ∀ (facts : Nat → σ) (node : Nat) (fact : σ) (other : Nat), nodes other →
    other ∉ S.dependents node → S.recompute (Function.update facts node fact) other =
      S.recompute facts other
  closed : ∀ node, nodes node → ∀ other ∈ S.dependents node, nodes other

/-- Every node is queued or has the fact of its equation. -/
structure Settling (S : System σ) (nodes : Nat → Prop) (state : State σ) : Prop where
  tidy : state.Tidy
  inside : ∀ node ∈ state.pending, nodes node
  settled : ∀ node, nodes node → node ∈ state.pending ∨
    S.recompute state.facts node = state.facts node

variable {nodes : Nat → Prop}

theorem Settling.step (hlocal : Local S nodes) (hstate : Settling S nodes state)
    (h : state.pending = node :: pending) : Settling S nodes (S.step state) := by
  obtain ⟨htidy, hfacts, hcases⟩ := step_cases (S := S) hstate.tidy h
  have hnode : nodes node := hstate.inside node (by simp [h])
  have hinside : ∀ other ∈ pending, nodes other :=
    fun other hmem => hstate.inside other (by simp [h, hmem])
  rcases hcases with ⟨hsame, hpending⟩ | ⟨hchanged, hmem⟩
  · refine ⟨htidy, by rwa [hpending], fun other hother => ?_⟩
    rw [hfacts, hsame, update_eq_self, hpending]
    rcases hstate.settled other hother with hqueued | hsettled
    · rw [h, mem_cons] at hqueued
      rcases hqueued with rfl | hqueued
      · exact .inr hsame
      · exact .inl hqueued
    · exact .inr hsettled
  · refine ⟨htidy, fun other hqueued => ?_, fun other hother => ?_⟩
    · rcases (hmem other).mp hqueued with hqueued | hdep
      · exact hinside other hqueued
      · exact hlocal.closed node hnode other hdep
    · by_cases hdep : other ∈ S.dependents node
      · exact .inl ((hmem other).mpr (.inr hdep))
      -- the equation of a node that does not depend on the visited one is as before
      · have hreads := hlocal.reads state.facts node (S.recompute state.facts node) other hother hdep
        rw [hfacts, hreads]
        by_cases heq : other = node
        · subst heq
          exact .inr (by rw [update_self])
        · rw [update_of_ne heq]
          rcases hstate.settled other hother with hqueued | hsettled
          · rw [h, mem_cons] at hqueued
            rcases hqueued with rfl | hqueued
            · exact absurd rfl heq
            · exact .inl ((hmem other).mpr (.inl hqueued))
          · exact .inr hsettled

/-- A run that emptied the queue left every node with the fact of its equation. -/
theorem run_fixed (hlocal : Local S nodes) (hstate : Settling S nodes state)
    (hdone : (S.run fuel state).pending = []) (hnode : nodes node) :
    S.recompute (S.run fuel state).facts node = (S.run fuel state).facts node := by
  have hfinal : Settling S nodes (S.run fuel state) :=
    run_induction (fun _ _ _ h hI => hI.step hlocal h) fuel hstate
  rcases hfinal.settled node hnode with hqueued | hsettled
  · rw [hdone] at hqueued
    exact absurd hqueued (by simp)
  · exact hsettled

/-- A node that is never queued keeps its fact. -/
theorem run_facts_of_not (hlocal : Local S nodes) (hstate : Settling S nodes state)
    (hnode : ¬ nodes node) : (S.run fuel state).facts node = state.facts node := by
  suffices hfinal : Settling S nodes (S.run fuel state) ∧
      (S.run fuel state).facts node = state.facts node from hfinal.2
  refine run_induction (I := fun after => Settling S nodes after ∧
    after.facts node = state.facts node) (fun before first pending h hI => ?_) fuel ⟨hstate, rfl⟩
  obtain ⟨hsettling, hfacts⟩ := hI
  refine ⟨hsettling.step hlocal h, ?_⟩
  have hfirst : nodes first := hsettling.inside first (by simp [h])
  have hne : node ≠ first := by
    rintro rfl
    exact hnode hfirst
  rw [(step_cases (S := S) hsettling.tidy h).2.1, update_of_ne hne]
  exact hfacts

/-! ## Descent -/

section Descent

variable {Le : σ → σ → Prop}

/-- Equations that are monotone in a preorder. -/
structure Monotone (S : System σ) (Le : σ → σ → Prop) : Prop where
  refl : ∀ a, Le a a
  trans : ∀ {a b c}, Le a b → Le b c → Le a c
  mono : ∀ {facts facts' : Nat → σ}, (∀ node, Le (facts node) (facts' node)) →
    ∀ node, Le (S.recompute facts node) (S.recompute facts' node)

/-- No fact lies below what its equation gives. -/
def Above (S : System σ) (nodes : Nat → Prop) (Le : σ → σ → Prop) (facts : Nat → σ) : Prop :=
  ∀ node, nodes node → Le (S.recompute facts node) (facts node)

variable {facts : Nat → σ}

omit [DecidableEq σ] in
theorem Monotone.update_le (hmono : Monotone S Le) (h : Le (S.recompute facts node) (facts node))
    (other : Nat) :
    Le (Function.update facts node (S.recompute facts node) other) (facts other) := by
  by_cases heq : other = node
  · subst heq
    rwa [update_self]
  · rw [update_of_ne heq]
    exact hmono.refl _

omit [DecidableEq σ] in
/-- Giving a node the fact of its equation keeps every fact above its equation. -/
theorem Above.update (hmono : Monotone S Le) (habove : Above S nodes Le facts) (hnode : nodes node) :
    Above S nodes Le (Function.update facts node (S.recompute facts node)) := by
  intro other hother
  have hle := hmono.mono (hmono.update_le (habove node hnode)) other
  by_cases heq : other = node
  · subst heq
    rwa [update_self]
  · rw [update_of_ne heq]
    exact hmono.trans hle (habove other hother)

/-- The table stays above any table that lies below its own equations. -/
theorem run_above (hlocal : Local S nodes) (hmono : Monotone S Le) (hstate : Settling S nodes state)
    {below : Nat → σ} (hbelow : ∀ node, nodes node → Le (below node) (S.recompute below node))
    (hstart : ∀ node, Le (below node) (state.facts node)) :
    Le (below node) ((S.run fuel state).facts node) := by
  suffices hfinal : Settling S nodes (S.run fuel state) ∧
      ∀ node, Le (below node) ((S.run fuel state).facts node) from hfinal.2 node
  refine run_induction (I := fun after => Settling S nodes after ∧
    ∀ node, Le (below node) (after.facts node)) (fun before first pending h hI => ?_) fuel
    ⟨hstate, hstart⟩
  obtain ⟨hsettling, hle⟩ := hI
  refine ⟨hsettling.step hlocal h, fun other => ?_⟩
  have hfirst : nodes first := hsettling.inside first (by simp [h])
  rw [(step_cases (S := S) hsettling.tidy h).2.1]
  by_cases heq : other = first
  · subst heq
    rw [update_self]
    exact hmono.trans (hbelow other hfirst) (hmono.mono hle other)
  · rw [update_of_ne heq]
    exact hle other

/-! ## Termination -/

variable {size : Nat} {rank : σ → Nat}

/-- The ranks of all facts together. -/
def total (size : Nat) (rank : σ → Nat) (facts : Nat → σ) : Nat :=
  ∑ node ∈ Finset.range size, rank (facts node)

omit [DecidableEq σ] in
theorem total_update_lt (hlt : node < size) (h : rank fact < rank (facts node)) :
    total size rank (Function.update facts node fact) < total size rank facts := by
  apply Finset.sum_lt_sum
  · intro other _
    by_cases heq : other = node
    · subst heq
      rw [update_self]
      exact h.le
    · rw [update_of_ne heq]
  · exact ⟨node, Finset.mem_range.mpr hlt, by rwa [update_self]⟩

omit [DecidableEq σ] in
/-- A tidy queue of nodes below `size` is no longer than that. -/
theorem length_pending_le (hstate : Settling S nodes state) (hsize : ∀ node, nodes node → node < size) :
    state.pending.length ≤ size := by
  have hsub : state.pending.toFinset ⊆ Finset.range size := by
    intro node hmem
    exact Finset.mem_range.mpr (hsize node (hstate.inside node (mem_toFinset.mp hmem)))
  have hcard := Finset.card_le_card hsub
  rwa [toFinset_card_of_nodup hstate.tidy.nodup, Finset.card_range] at hcard

/-- The visits that may still come: one for each queued node, and a whole queue
for each time a fact can still move down. -/
def budget (size : Nat) (rank : σ → Nat) (state : State σ) : Nat :=
  total size rank state.facts * (size + 1) + state.pending.length

theorem budget_step_lt (hlocal : Local S nodes) (hstate : Settling S nodes state)
    (habove : Above S nodes Le state.facts)
    (hrank : ∀ facts node, Le (S.recompute facts node) (facts node) →
      S.recompute facts node ≠ facts node → rank (S.recompute facts node) < rank (facts node))
    (hsize : ∀ node, nodes node → node < size) (h : state.pending = node :: pending) :
    budget size rank (S.step state) < budget size rank state := by
  have hnode : nodes node := hstate.inside node (by simp [h])
  have hafter := length_pending_le (hstate.step hlocal h) hsize
  obtain ⟨_, hfacts, hcases⟩ := step_cases (S := S) hstate.tidy h
  unfold budget
  rw [hfacts]
  rcases hcases with ⟨hsame, hpending⟩ | ⟨hchanged, _⟩
  · rw [hsame, hpending, h]
    simp
  · have hlower : total size rank (update state.facts node
        (S.recompute state.facts node)) < total size rank state.facts :=
      total_update_lt (hsize node hnode) (hrank _ _ (habove node hnode) hchanged)
    have hmul := Nat.mul_le_mul_right (size + 1) (Nat.succ_le_of_lt hlower)
    rw [Nat.succ_mul] at hmul
    omega

/-- With as much fuel as the budget of its start, a run empties the queue. -/
theorem run_pending (size : Nat) (rank : σ → Nat) (hlocal : Local S nodes) (hmono : Monotone S Le)
    (hstate : Settling S nodes state) (habove : Above S nodes Le state.facts)
    (hrank : ∀ facts node, Le (S.recompute facts node) (facts node) →
      S.recompute facts node ≠ facts node → rank (S.recompute facts node) < rank (facts node))
    (hsize : ∀ node, nodes node → node < size) (hfuel : budget size rank state ≤ fuel) :
    (S.run fuel state).pending = [] := by
  induction fuel generalizing state with
  | zero =>
    have hlength : state.pending.length = 0 := by
      unfold budget at hfuel
      omega
    exact eq_nil_of_length_eq_zero hlength
  | succ fuel ih =>
    rw [run]
    split
    · assumption
    · rename_i node pending hpending
      have hlt := budget_step_lt hlocal hstate habove hrank hsize hpending
      refine ih (hstate.step hlocal hpending) ?_ (by omega)
      rw [(step_cases (S := S) hstate.tidy hpending).2.1]
      exact habove.update hmono (hstate.inside node (by simp [hpending]))

end Descent

end System

end Recompute
