import Mathlib.Data.Finset.Card
import Mathlib.Algebra.Order.BigOperators.Group.Finset
import Mathlib.Logic.Function.Basic
import RSScript.Lib.Outcome

/-!
# Worklist solvers

A forward analysis over nodes `0 .. size - 1`. Each node holds at most one fact.
The solver visits the oldest pending node, asks the problem which facts flow out
of it, and merges each into its target; a target whose fact was set or changed
is pending again.

Three rules carry every proof about such an analysis.

- `run_terminates`: if changing a fact lowers a rank, the solver stops.
- `run_sound`: a run that stops without an error leaves facts that account for
  everything that flows (`Closed`).
- `run_error`: an error that the solver reports comes from a fact that has whatever
  holds of the starting fact and is kept by flow and merge.

Nothing here depends on the shape of the graph, so cycles and irreducible
regions need no special care.
-/

namespace Worklist

/-- A forward analysis. `flow` may fail for the node as a whole or for one of its
edges; `merge` compares a fact with the one already at its target and answers
with the replacement, if there is one. -/
structure Problem (σ ε : Type) where
  size : Nat
  flow : Nat → σ → Except ε (List (Except ε (Nat × σ)))
  merge : Nat → σ → σ → Except ε (Option σ)
  /-- The error for a target outside the graph. -/
  outside : Nat → ε
  /-- The error for a pending node without a fact. -/
  stale : Nat → ε
  /-- Leave a node that is pending already where it is in the queue. -/
  dedup : Bool

structure State (σ : Type) where
  incoming : Nat → Option σ
  work : List Nat

variable {σ ε : Type}

namespace Problem

variable (P : Problem σ ε)

/-- Make a node pending. -/
def push (work : List Nat) (node : Nat) : List Nat :=
  if P.dedup ∧ node ∈ work then work else work ++ [node]

/-- Give a node a fact and make it pending. -/
def assign (state : State σ) (node : Nat) (fact : σ) : State σ :=
  ⟨Function.update state.incoming node (some fact), P.push state.work node⟩

/-- Merge a fact into its target. -/
def enqueue (state : State σ) (target : Nat) (fact : σ) : Except ε (State σ) :=
  if target < P.size then
    match state.incoming target with
    | none => .ok (P.assign state target fact)
    | some existing => do
      match ← P.merge target existing fact with
      | none => .ok state
      | some replacement => .ok (P.assign state target replacement)
  else .error (P.outside target)

/-- Merge the facts that flow out of a node, in order. -/
def deliver : State σ → List (Except ε (Nat × σ)) → Except ε (State σ)
  | state, [] => .ok state
  | state, edge :: edges => do
    let (target, fact) ← edge
    let state ← P.enqueue state target fact
    deliver state edges

def visit (state : State σ) (node : Nat) : Except ε (State σ) :=
  match state.incoming node with
  | none => .error (P.stale node)
  | some fact => do
    let edges ← P.flow node fact
    P.deliver state edges

/-- Visit pending nodes, oldest first, until none is left; `none` when the fuel
runs out before. -/
def run : Nat → State σ → Option (Except ε (State σ))
  | 0, _ => none
  | fuel + 1, state =>
    match state.work with
    | [] => some (.ok state)
    | node :: work =>
      match P.visit ⟨state.incoming, work⟩ node with
      | .error e => some (.error e)
      | .ok state => run fuel state

end Problem

/-- The start: one fact, at one node. -/
def start (node : Nat) (fact : σ) : State σ :=
  ⟨Function.update (fun _ => none) node (some fact), [node]⟩

@[simp] theorem start_incoming_self : (start node fact).incoming node = some fact := by simp [start]

theorem start_incoming_of_ne (h : other ≠ node) : (start node fact).incoming other = none := by
  simp [start, Function.update_of_ne h]

/-! ## Steps -/

variable {target fuel : Nat} {edges : List (Except ε (Nat × σ))}

attribute [local simp] Problem.run Except.bind Problem.deliver bind

section Steps

variable {P : Problem σ ε}

@[simp] theorem assign_incoming_self : (P.assign state node fact).incoming node = some fact := by
  simp [Problem.assign]

variable {state : State σ}

theorem assign_incoming_of_ne (h : other ≠ node) :
    (P.assign state node fact).incoming other = state.incoming other :=
  Function.update_of_ne h _ _

theorem mem_push : node ∈ P.push work node := by
  unfold Problem.push
  split
  case isTrue h => exact h.2
  case isFalse => simp

theorem mem_push_of_mem (h : other ∈ work) : other ∈ P.push work node := by
  unfold Problem.push
  split
  · exact h
  · exact List.mem_append_left _ h

theorem eq_or_mem_of_mem_push (h : other ∈ P.push work node) : other = node ∨ other ∈ work := by
  unfold Problem.push at h
  split at h
  · exact .inr h
  · simpa [or_comm] using h

/-- What merging one fact does: nothing, or one new fact at the target. -/
inductive Enqueued (P : Problem σ ε) (state : State σ) (target : Nat) (fact : σ) :
    State σ → Prop
  | first (fresh : state.incoming target = none) :
      Enqueued P state target fact (P.assign state target fact)
  | same {existing : σ} (present : state.incoming target = some existing)
      (merged : P.merge target existing fact = .ok none) : Enqueued P state target fact state
  | changed {existing replacement : σ} (present : state.incoming target = some existing)
      (merged : P.merge target existing fact = .ok (some replacement)) :
      Enqueued P state target fact (P.assign state target replacement)

theorem enqueued_of_enqueue (h : P.enqueue state target fact = .ok after) :
    target < P.size ∧ Enqueued P state target fact after := by
  unfold Problem.enqueue at h
  split at h
  case isFalse => exact absurd h (by simp)
  case isTrue hlt =>
    refine ⟨hlt, ?_⟩
    cases hincoming : state.incoming target with
    | none =>
      rw [hincoming] at h
      obtain rfl : P.assign state target fact = after := by simpa using h
      exact .first hincoming
    | some existing =>
      rw [hincoming] at h
      obtain ⟨merged, hmerged, hafter⟩ := Guards.bind_eq_ok.mp h
      cases merged with
      | none =>
        obtain rfl : state = after := by simpa using hafter
        exact .same hincoming hmerged
      | some replacement =>
        obtain rfl : P.assign state target replacement = after := by simpa using hafter
        exact .changed hincoming hmerged

/-- A delivery is a sequence of merges. -/
theorem deliver_cons : P.deliver state (edge :: edges) = .ok after ↔
      ∃ target fact next, edge = .ok (target, fact) ∧ P.enqueue state target fact = .ok next ∧
        P.deliver next edges = .ok after := by
  rw [Problem.deliver, Guards.bind_eq_ok]
  constructor
  · rintro ⟨⟨target, fact⟩, hedge, hrest⟩
    obtain ⟨next, hnext, hdeliver⟩ := Guards.bind_eq_ok.mp hrest
    exact ⟨target, fact, next, hedge, hnext, hdeliver⟩
  · rintro ⟨target, fact, next, hedge, hnext, hdeliver⟩
    exact ⟨(target, fact), hedge, Guards.bind_eq_ok.mpr ⟨next, hnext, hdeliver⟩⟩

theorem visit_eq_ok : P.visit state node = .ok after ↔
      ∃ fact edges, state.incoming node = some fact ∧ P.flow node fact = .ok edges ∧
        P.deliver state edges = .ok after := by
  unfold Problem.visit
  cases state.incoming node with
  | none => simp
  | some fact =>
    constructor
    · intro h
      obtain ⟨edges, hflow, hdeliver⟩ := Guards.bind_eq_ok.mp h
      exact ⟨fact, edges, rfl, hflow, hdeliver⟩
    · rintro ⟨_, edges, hfact, hflow, hdeliver⟩
      obtain rfl := Option.some.inj hfact
      exact Guards.bind_eq_ok.mpr ⟨edges, hflow, hdeliver⟩

/-- More fuel changes nothing. -/
theorem run_mono (hle : fuel ≤ more) (h : P.run fuel state = some result) :
    P.run more state = some result := by
  induction fuel generalizing more state with
  | zero => exact absurd h (by simp)
  | succ fuel ih =>
    obtain ⟨more, rfl⟩ : ∃ k, more = k + 1 := ⟨more - 1, by omega⟩
    unfold Problem.run at h ⊢
    cases hwork : state.work with
    | nil => simpa [hwork] using h
    | cons node work =>
      simp only [hwork] at h ⊢
      cases hvisit : P.visit ⟨state.incoming, work⟩ node with
      | error e => simpa [hvisit] using h
      | ok after =>
        simp only [hvisit] at h ⊢
        exact ih (by omega) h

end Steps

/-! ## Facts of a run

A property of facts that the start has and that flow and merge keep holds
throughout a run. -/

variable {incoming : Nat → Option σ} {work : List Nat}

section Induction

variable {P : Problem σ ε} {Q : Nat → σ → Prop}

/-- `Q` is kept by flow and merge. -/
structure Kept (P : Problem σ ε) (Q : Nat → σ → Prop) : Prop where
  flow : ∀ {node target : Nat} {fact out : σ} {edges : List (Except ε (Nat × σ))},
    Q node fact → P.flow node fact = .ok edges → .ok (target, out) ∈ edges → target < P.size →
    Q target out
  merge : ∀ {target : Nat} {existing fact replacement : σ},
    Q target existing → Q target fact → P.merge target existing fact = .ok (some replacement) →
    Q target replacement

/-- Every fact of a state has the property, lies inside the graph, and every
pending node has a fact. -/
structure Holds (P : Problem σ ε) (Q : Nat → σ → Prop) (state : State σ) : Prop where
  fact : ∀ {node : Nat} {fact : σ}, state.incoming node = some fact → node < P.size ∧ Q node fact
  work : ∀ {node : Nat}, node ∈ state.work → (state.incoming node).isSome

variable {fact : σ} {node : Nat} {edges : List (Except ε (Nat × σ))} {e : ε}

theorem Holds.assign (hstate : Holds P Q state) (hlt : node < P.size) (h : Q node fact) :
    Holds P Q (P.assign state node fact) where
  fact {other found} hfound := by
    by_cases heq : other = node
    · subst heq
      obtain rfl : fact = found := by simpa using hfound
      exact ⟨hlt, h⟩
    · rw [assign_incoming_of_ne heq] at hfound
      exact hstate.fact hfound
  work {other} hmem := by
    by_cases heq : other = node
    · subst heq
      simp
    · rw [assign_incoming_of_ne heq]
      rcases eq_or_mem_of_mem_push hmem with h | h
      · exact absurd h heq
      · exact hstate.work h

theorem Holds.start (hlt : node < P.size) (h : Q node fact) : Holds P Q (start node fact) := by
  have hempty : Holds P Q ⟨fun _ => none, []⟩ := ⟨nofun, nofun⟩
  simpa [Problem.assign, Problem.push, Worklist.start] using hempty.assign hlt h

theorem Holds.enqueue (hkept : Kept P Q) (hstate : Holds P Q state)
    (hfact : target < P.size → Q target fact) (h : P.enqueue state target fact = .ok after) :
    Holds P Q after := by
  obtain ⟨hlt, henqueued⟩ := enqueued_of_enqueue h
  cases henqueued with
  | first => exact hstate.assign hlt (hfact hlt)
  | same => exact hstate
  | changed hpresent hmerged =>
    exact hstate.assign hlt (hkept.merge (hstate.fact hpresent).2 (hfact hlt) hmerged)

theorem Holds.deliver (hkept : Kept P Q) (hstate : Holds P Q state)
    (hedges : ∀ {target : Nat} {fact : σ}, .ok (target, fact) ∈ edges → target < P.size →
      Q target fact) (h : P.deliver state edges = .ok after) : Holds P Q after := by
  induction edges generalizing state with
  | nil =>
    obtain rfl : state = after := by simpa using h
    exact hstate
  | cons edge edges ih =>
    obtain ⟨target, fact, next, rfl, hnext, hdeliver⟩ := deliver_cons.mp h
    exact ih (hstate.enqueue hkept (hedges List.mem_cons_self) hnext)
      (fun hmem => hedges (List.mem_cons_of_mem _ hmem)) hdeliver

theorem Holds.popped (h : Holds P Q ⟨incoming, node :: work⟩) : Holds P Q ⟨incoming, work⟩ :=
  ⟨fun hfound => h.fact hfound, fun hmem => h.work (List.mem_cons_of_mem _ hmem)⟩

theorem Holds.visit (hkept : Kept P Q) (hstate : Holds P Q ⟨incoming, node :: work⟩)
    (h : P.visit ⟨incoming, work⟩ node = .ok after) : Holds P Q after := by
  obtain ⟨fact, edges, hfact, hflow, hdeliver⟩ := visit_eq_ok.mp h
  exact hstate.popped.deliver hkept (hkept.flow (hstate.fact hfact).2 hflow) hdeliver

/-- Where an error of the solver can come from. -/
inductive Blame (P : Problem σ ε) (Q : Nat → σ → Prop) (e : ε) : Prop
  | node {node : Nat} {fact : σ} (inside : node < P.size) (holds : Q node fact)
      (flow : P.flow node fact = .error e)
  | edge {node : Nat} {fact : σ} {edges : List (Except ε (Nat × σ))} (inside : node < P.size)
      (holds : Q node fact) (flow : P.flow node fact = .ok edges) (mem : .error e ∈ edges)
  | outside {node target : Nat} {fact out : σ} {edges : List (Except ε (Nat × σ))}
      (inside : node < P.size) (holds : Q node fact) (flow : P.flow node fact = .ok edges)
      (mem : .ok (target, out) ∈ edges) (outside : ¬target < P.size) (error : e = P.outside target)
  | merge {node target : Nat} {fact out existing : σ} {edges : List (Except ε (Nat × σ))}
      (inside : node < P.size) (holds : Q node fact) (flow : P.flow node fact = .ok edges)
      (mem : .ok (target, out) ∈ edges) (inside' : target < P.size) (present : Q target existing)
      (merge : P.merge target existing out = .error e)

theorem blame_of_enqueue (hstate : Holds P Q state) (hnode : node < P.size) (hfact : Q node fact)
    (hflow : P.flow node fact = .ok edges) (hmem : .ok (target, out) ∈ edges)
    (h : P.enqueue state target out = .error e) : Blame P Q e := by
  unfold Problem.enqueue at h
  split at h
  case isFalse hout =>
    obtain rfl : P.outside target = e := by simpa using h
    exact .outside hnode hfact hflow hmem hout rfl
  case isTrue hlt =>
    cases hincoming : state.incoming target with
    | none =>
      rw [hincoming] at h
      exact absurd h (by simp)
    | some existing =>
      simp only [hincoming] at h
      cases hmerge : P.merge target existing out with
      | error e' =>
        rw [hmerge] at h
        obtain rfl : e' = e := by simpa using h
        exact .merge hnode hfact hflow hmem hlt (hstate.fact hincoming).2 hmerge
      | ok merged =>
        rw [hmerge] at h
        cases merged <;> exact absurd h (by simp)

theorem blame_of_deliver (hkept : Kept P Q) (hstate : Holds P Q state) (hnode : node < P.size)
    (hfact : Q node fact) (hflow : P.flow node fact = .ok all) (hsub : ∀ edge ∈ edges, edge ∈ all)
    (h : P.deliver state edges = .error e) : Blame P Q e := by
  induction edges generalizing state with
  | nil => exact absurd h (by simp)
  | cons edge edges ih =>
    obtain ⟨hhead, htail⟩ := List.forall_mem_cons.mp hsub
    rw [Problem.deliver] at h
    cases edge with
    | error e' =>
      obtain rfl : e' = e := by simpa using h
      exact .edge hnode hfact hflow hhead
    | ok pair =>
      obtain ⟨target, out⟩ := pair
      cases hnext : P.enqueue state target out with
      | error e' =>
        obtain rfl : e' = e := by simpa [hnext] using h
        exact blame_of_enqueue hstate hnode hfact hflow hhead hnext
      | ok next =>
        refine ih (hstate.enqueue hkept (hkept.flow hfact hflow hhead) hnext) htail ?_
        simpa [hnext] using h

theorem blame_of_visit (hkept : Kept P Q) (hstate : Holds P Q ⟨incoming, node :: work⟩)
    (h : P.visit ⟨incoming, work⟩ node = .error e) : Blame P Q e := by
  obtain ⟨fact, hfact⟩ := Option.isSome_iff_exists.mp (hstate.work List.mem_cons_self)
  obtain ⟨hlt, hholds⟩ := hstate.fact hfact
  simp only [Problem.visit, show incoming node = some fact from hfact] at h
  cases hflow : P.flow node fact with
  | error e' =>
    obtain rfl : e' = e := by simpa [hflow] using h
    exact .node hlt hholds hflow
  | ok edges =>
    refine blame_of_deliver hkept hstate.popped hlt hholds hflow (fun _ hmem => hmem) ?_
    simpa [hflow] using h

/-- An error of a run comes from a fact that has the property. -/
theorem run_error (hkept : Kept P Q) (hstate : Holds P Q state)
    (h : P.run fuel state = some (.error e)) : Blame P Q e := by
  induction fuel generalizing state with
  | zero => exact absurd h (by simp)
  | succ fuel ih =>
    obtain ⟨incoming, work⟩ := state
    cases work with
    | nil => exact absurd h (by simp)
    | cons node work =>
      cases hvisit : P.visit ⟨incoming, work⟩ node with
      | error e' =>
        obtain rfl : e' = e := by simpa [hvisit] using h
        exact blame_of_visit hkept hstate hvisit
      | ok after => exact ih (hstate.visit hkept hvisit) (by simpa [hvisit] using h)

end Induction

/-! ## Solutions

A run that ends without an error has delivered, from every fact it holds, all
that flows out of it. -/

section Solution

variable {P : Problem σ ε} {Le : σ → σ → Prop}

/-- `Le current fact`: a fact `current` at a node accounts for `fact` flowing
into it. Merging must keep accounting for both sides. -/
structure Accounts (P : Problem σ ε) (Le : σ → σ → Prop) : Prop where
  refl : ∀ fact, Le fact fact
  trans : ∀ {a b c}, Le a b → Le b c → Le a c
  same : ∀ {target : Nat} {existing fact : σ},
    P.merge target existing fact = .ok none → Le existing fact
  changed : ∀ {target : Nat} {existing fact replacement : σ},
    P.merge target existing fact = .ok (some replacement) →
    Le replacement existing ∧ Le replacement fact

/-- An edge whose fact its target accounts for. -/
def Delivered (P : Problem σ ε) (Le : σ → σ → Prop) (incoming : Nat → Option σ)
    (edge : Except ε (Nat × σ)) : Prop :=
  ∃ target fact current, edge = .ok (target, fact) ∧ target < P.size ∧
    incoming target = some current ∧ Le current fact

/-- A fact all of whose edges are delivered. -/
def Settled (P : Problem σ ε) (Le : σ → σ → Prop) (incoming : Nat → Option σ) (node : Nat)
    (fact : σ) : Prop :=
  ∃ edges, P.flow node fact = .ok edges ∧ ∀ edge ∈ edges, Delivered P Le incoming edge

/-- Every fact is settled. -/
def Closed (P : Problem σ ε) (Le : σ → σ → Prop) (incoming : Nat → Option σ) : Prop :=
  ∀ node fact, incoming node = some fact → Settled P Le incoming node fact

/-- Facts only move to facts that account for them. -/
def Grows (Le : σ → σ → Prop) (before after : Nat → Option σ) : Prop :=
  ∀ node fact, before node = some fact → ∃ current, after node = some current ∧ Le current fact

section Accounted

variable (hacc : Accounts P Le)

include hacc

theorem Grows.refl (incoming : Nat → Option σ) : Grows Le incoming incoming :=
  fun _ fact h => ⟨fact, h, hacc.refl fact⟩

theorem Grows.trans (hab : Grows Le a b) (hbc : Grows Le b c) : Grows Le a c := by
  intro node fact h
  obtain ⟨middle, hmiddle, hle⟩ := hab node fact h
  obtain ⟨current, hcurrent, hle'⟩ := hbc node middle hmiddle
  exact ⟨current, hcurrent, hacc.trans hle' hle⟩

theorem Delivered.grows (hgrows : Grows Le before after) (h : Delivered P Le before edge) :
    Delivered P Le after edge := by
  obtain ⟨target, fact, current, rfl, hlt, hcurrent, hle⟩ := h
  obtain ⟨new, hnew, hle'⟩ := hgrows target current hcurrent
  exact ⟨target, fact, new, rfl, hlt, hnew, hacc.trans hle' hle⟩

variable {node : Nat} {after : State σ}

theorem Settled.grows {before after : Nat → Option σ} (hgrows : Grows Le before after)
    (h : Settled P Le before node fact) : Settled P Le after node fact := by
  obtain ⟨edges, hflow, hedges⟩ := h
  exact ⟨edges, hflow, fun edge hmem => (hedges edge hmem).grows hacc hgrows⟩

/-- What a merge or a series of merges does to a state: facts grow, pending nodes
stay pending, and a node whose fact changed is pending. -/
structure Advance (Le : σ → σ → Prop) (before after : State σ) : Prop where
  grows : Grows Le before.incoming after.incoming
  pending : ∀ {node}, node ∈ before.work → node ∈ after.work
  changed : ∀ node, after.incoming node = before.incoming node ∨ node ∈ after.work

theorem Advance.refl (state : State σ) : Advance Le state state :=
  ⟨Grows.refl hacc _, id, fun _ => .inl rfl⟩

theorem Advance.trans (hab : Advance Le a b) (hbc : Advance Le b c) : Advance Le a c := by
  refine ⟨hab.grows.trans hacc hbc.grows, fun h => hbc.pending (hab.pending h), fun node => ?_⟩
  rcases hbc.changed node with hsame | hwork
  · rcases hab.changed node with hsame' | hwork'
    · exact .inl (hsame.trans hsame')
    · exact .inr (hbc.pending hwork')
  · exact .inr hwork

theorem Advance.assign (h : ∀ existing, state.incoming node = some existing → Le fact existing) :
    Advance Le state (P.assign state node fact) where
  grows other found hfound := by
    by_cases heq : other = node
    · subst heq
      exact ⟨fact, by simp, h found hfound⟩
    · exact ⟨found, by rw [assign_incoming_of_ne heq]; exact hfound, hacc.refl found⟩
  pending := mem_push_of_mem
  changed other := by
    by_cases heq : other = node
    · subst heq
      exact .inr mem_push
    · exact .inl (assign_incoming_of_ne heq)

theorem Advance.enqueue (h : P.enqueue state target fact = .ok after) :
    Advance Le state after ∧ Delivered P Le after.incoming (.ok (target, fact)) := by
  obtain ⟨hlt, henqueued⟩ := enqueued_of_enqueue h
  cases henqueued with
  | first hfresh =>
    refine ⟨.assign hacc fun existing hpresent => ?_, target, fact, fact, rfl, hlt, by simp,
      hacc.refl fact⟩
    rw [hfresh] at hpresent
    exact absurd hpresent (by simp)
  | same hpresent hmerged =>
    exact ⟨.refl hacc _, target, fact, _, rfl, hlt, hpresent, hacc.same hmerged⟩
  | changed hpresent hmerged =>
    obtain ⟨hleft, hright⟩ := hacc.changed hmerged
    refine ⟨.assign hacc fun existing hfound => ?_, target, fact, _, rfl, hlt, by simp, hright⟩
    rw [hpresent] at hfound
    obtain rfl := Option.some.inj hfound
    exact hleft

theorem Advance.deliver (h : P.deliver state edges = .ok after) :
    Advance Le state after ∧ ∀ edge ∈ edges, Delivered P Le after.incoming edge := by
  induction edges generalizing state with
  | nil =>
    obtain rfl : state = after := by simpa using h
    exact ⟨.refl hacc _, by simp⟩
  | cons edge edges ih =>
    obtain ⟨target, fact, next, rfl, hnext, hdeliver⟩ := deliver_cons.mp h
    obtain ⟨hfirst, hhead⟩ := Advance.enqueue hacc hnext
    obtain ⟨hrest, htail⟩ := ih hdeliver
    exact ⟨hfirst.trans hacc hrest, List.forall_mem_cons.mpr ⟨hhead.grows hacc hrest.grows, htail⟩⟩

end Accounted

/-- A fact is settled unless its node is pending. -/
def Progress (P : Problem σ ε) (Le : σ → σ → Prop) (state : State σ) : Prop :=
  ∀ node fact, state.incoming node = some fact →
    node ∈ state.work ∨ Settled P Le state.incoming node fact

theorem progress_start : Progress P Le (start node fact) := by
  intro other found hfound
  by_cases heq : other = node
  · subst heq
    exact .inl (by simp [start])
  · rw [start_incoming_of_ne heq] at hfound
    exact absurd hfound (by simp)

/-- The step lemma: a visit settles its node and unsettles only what it makes
pending. -/
theorem Progress.visit (hacc : Accounts P Le) (hstate : Progress P Le ⟨incoming, node :: work⟩)
    (h : P.visit ⟨incoming, work⟩ node = .ok after) :
    Progress P Le after ∧ Grows Le incoming after.incoming := by
  obtain ⟨fact, edges, hfact, hflow, hdeliver⟩ := visit_eq_ok.mp h
  obtain ⟨hadvance, hdelivered⟩ := Advance.deliver hacc hdeliver
  refine ⟨fun other found hfound => ?_, hadvance.grows⟩
  rcases hadvance.changed other with hsame | hwork
  · rw [hsame] at hfound
    rcases hstate other found hfound with hmem | hsettled
    · rcases List.mem_cons.mp hmem with rfl | hmem
      · obtain rfl : fact = found := Option.some.inj (hfact.symm.trans hfound)
        exact .inr ⟨edges, hflow, hdelivered⟩
      · exact .inl (hadvance.pending hmem)
    · exact .inr (hsettled.grows hacc hadvance.grows)
  · exact .inl hwork

/-- The run lemma: what a successful run leaves is closed, and still accounts for
where it started. -/
theorem run_closed (hacc : Accounts P Le) (hstate : Progress P Le state)
    (h : P.run fuel state = some (.ok final)) :
    Closed P Le final.incoming ∧ Grows Le state.incoming final.incoming := by
  induction fuel generalizing state with
  | zero => exact absurd h (by simp)
  | succ fuel ih =>
    obtain ⟨incoming, work⟩ := state
    cases work with
    | nil =>
      obtain rfl : (⟨incoming, []⟩ : State σ) = final := by simpa using h
      refine ⟨fun node fact hfact => ?_, Grows.refl hacc _⟩
      rcases hstate node fact hfact with hmem | hsettled
      · exact absurd hmem (by simp)
      · exact hsettled
    | cons node work =>
      cases hvisit : P.visit ⟨incoming, work⟩ node with
      | error e => exact absurd h (by simp [hvisit])
      | ok after =>
        obtain ⟨hprogress, hgrows⟩ := hstate.visit hacc hvisit
        obtain ⟨hclosed, hgrows'⟩ := ih hprogress (by simpa [hvisit] using h)
        exact ⟨hclosed, hgrows.trans hacc hgrows'⟩

/-- A successful run from one fact ends in a closed assignment that accounts for
that fact. -/
theorem run_sound (hacc : Accounts P Le) (h : P.run fuel (start node fact) = some (.ok final)) :
    Closed P Le final.incoming ∧ ∃ current, final.incoming node = some current ∧ Le current fact := by
  obtain ⟨hclosed, hgrows⟩ := run_closed hacc progress_start h
  exact ⟨hclosed, hgrows node fact start_incoming_self⟩

end Solution

/-! ## Termination

A node receives its first fact once; after that each change lowers the rank of
its fact. Between two such events the queue only shrinks. -/

section Termination

variable {P : Problem σ ε} {Q : Nat → σ → Prop} {rank : σ → Nat}

/-- Nodes that hold no fact yet. -/
def unset (P : Problem σ ε) (state : State σ) : Nat :=
  ((Finset.range P.size).filter fun node => (state.incoming node).isNone).card

/-- The ranks of all facts. -/
def total (P : Problem σ ε) (rank : σ → Nat) (state : State σ) : Nat :=
  ∑ node ∈ Finset.range P.size, ((state.incoming node).map rank).getD 0

/-- A fact was set, or replaced by one of lower rank. -/
def Lower (P : Problem σ ε) (rank : σ → Nat) (after before : State σ) : Prop :=
  unset P after < unset P before ∨
    unset P after = unset P before ∧ total P rank after < total P rank before

theorem Lower.trans (hab : Lower P rank a b) (hbc : Lower P rank b c) : Lower P rank a c := by
  unfold Lower at *
  omega

variable {fact : σ}

theorem unset_assign_first (hlt : node < P.size) (h : state.incoming node = none) :
    unset P (P.assign state node fact) < unset P state := by
  refine Finset.card_lt_card ⟨fun other hmem => ?_, fun hsub => ?_⟩
  · obtain ⟨hrange, hnone⟩ := Finset.mem_filter.mp hmem
    refine Finset.mem_filter.mpr ⟨hrange, ?_⟩
    by_cases heq : other = node
    · simp [heq, h]
    · rwa [assign_incoming_of_ne heq] at hnone
  · have hmem := hsub (Finset.mem_filter.mpr ⟨Finset.mem_range.mpr hlt, by simp [h]⟩)
    simp at hmem

theorem lower_assign_changed (hlt : node < P.size) (h : state.incoming node = some existing)
    (hrank : rank fact < rank existing) : Lower P rank (P.assign state node fact) state := by
  refine .inr ⟨?_, Finset.sum_lt_sum (fun other _ => ?_) ⟨node, Finset.mem_range.mpr hlt, ?_⟩⟩
  · refine congrArg Finset.card (Finset.filter_congr fun other _ => ?_)
    by_cases heq : other = node
    · simp [heq, h]
    · rw [assign_incoming_of_ne heq]
  · by_cases heq : other = node
    · subst heq
      simpa [h] using hrank.le
    · rw [assign_incoming_of_ne heq]
  · simpa [h] using hrank

/-- Replacing a fact lowers its rank. -/
def Descends (P : Problem σ ε) (Q : Nat → σ → Prop) (rank : σ → Nat) : Prop :=
  ∀ {target existing fact replacement}, Q target existing → Q target fact →
    P.merge target existing fact = .ok (some replacement) → rank replacement < rank existing

theorem lower_of_enqueue (hdesc : Descends P Q rank) (hstate : Holds P Q state)
    (hfact : target < P.size → Q target fact) (h : P.enqueue state target fact = .ok after) :
    after = state ∨ Lower P rank after state := by
  obtain ⟨hlt, henqueued⟩ := enqueued_of_enqueue h
  cases henqueued with
  | first hfresh => exact .inr (.inl (unset_assign_first hlt hfresh))
  | same => exact .inl rfl
  | changed hpresent hmerged =>
    exact .inr (lower_assign_changed hlt hpresent
      (hdesc (hstate.fact hpresent).2 (hfact hlt) hmerged))

theorem lower_of_deliver (hkept : Kept P Q) (hdesc : Descends P Q rank) (hstate : Holds P Q state)
    (hedges : ∀ {target : Nat} {fact : σ}, .ok (target, fact) ∈ edges → target < P.size →
      Q target fact) (h : P.deliver state edges = .ok after) :
    after = state ∨ Lower P rank after state := by
  induction edges generalizing state with
  | nil => exact .inl (by simpa [eq_comm] using h)
  | cons edge edges ih =>
    obtain ⟨target, fact, next, rfl, hnext, hdeliver⟩ := deliver_cons.mp h
    have hfact := hedges List.mem_cons_self
    have hrest := ih (hstate.enqueue hkept hfact hnext)
      (fun hmem => hedges (List.mem_cons_of_mem _ hmem)) hdeliver
    rcases lower_of_enqueue hdesc hstate hfact hnext with rfl | hlower
    · exact hrest
    · rcases hrest with rfl | hlower'
      · exact .inr hlower
      · exact .inr (hlower'.trans hlower)

/-- The solver stops: with a result or with an error. -/
theorem run_terminates (hkept : Kept P Q) (hdesc : Descends P Q rank) :
    (incoming : Nat → Option σ) → (work : List Nat) → Holds P Q ⟨incoming, work⟩ →
    ∃ fuel result, P.run fuel ⟨incoming, work⟩ = some result
  | incoming, [], _ => ⟨1, .ok ⟨incoming, []⟩, rfl⟩
  | incoming, node :: work, hstate => by
    cases hvisit : P.visit ⟨incoming, work⟩ node with
    | error e => exact ⟨1, .error e, by simp [hvisit]⟩
    | ok after =>
      -- a visit shortens the queue, sets a fact or lowers one
      obtain ⟨fact, edges, hfact, hflow, hdeliver⟩ := visit_eq_ok.mp hvisit
      have hlower := lower_of_deliver hkept hdesc hstate.popped
        (hkept.flow (hstate.fact hfact).2 hflow) hdeliver
      obtain ⟨fuel, result, hrun⟩ := run_terminates hkept hdesc after.incoming after.work
        (hstate.visit hkept hvisit)
      exact ⟨fuel + 1, result, by simpa [hvisit] using hrun⟩
termination_by incoming work _ =>
  (unset P ⟨incoming, work⟩, total P rank ⟨incoming, work⟩, work.length)
decreasing_by
  rcases hlower with rfl | hlt | ⟨heq, hlt⟩
  · exact Prod.Lex.right _ (Prod.Lex.right _ (Nat.lt_succ_self _))
  · exact Prod.Lex.left _ _ hlt
  · change Prod.Lex _ _ (unset P after, _) (unset P ⟨incoming, work⟩, _)
    rw [heq]
    exact Prod.Lex.right _ (Prod.Lex.left _ _ hlt)

/-- From one fact, every large enough amount of fuel gives the same result. -/
theorem run_start_terminates (hkept : Kept P Q) (hdesc : Descends P Q rank)
    (hstart : Holds P Q (start node fact)) :
    ∃ bound result, ∀ fuel, bound ≤ fuel → P.run fuel (start node fact) = some result := by
  obtain ⟨bound, result, hrun⟩ := run_terminates hkept hdesc _ _ hstart
  exact ⟨bound, result, fun fuel hfuel => run_mono hfuel hrun⟩

end Termination

/-! ## Analyses as checkers -/

section Checker

open Outcome

/-- Run an analysis from node 0 and keep only its verdict. -/
def solve (problem : Problem σ (Fault ε)) (fuel : Nat) (entry : σ) : Except (Fault ε) Unit :=
  match problem.run fuel (start 0 entry) with
  | none => throw .outOfFuel
  | some (.error fault) => throw fault
  | some (.ok _) => return ()

variable {problem : Problem σ (Fault ε)}

theorem solve_eq_ok : solve problem fuel entry = .ok () ↔
      ∃ final, problem.run fuel (start 0 entry) = some (.ok final) := by
  unfold solve
  split <;> simp [*]

theorem solve_eq_error : solve problem fuel entry = .error fault ↔
      problem.run fuel (start 0 entry) = some (.error fault) ∨
      problem.run fuel (start 0 entry) = none ∧ fault = .outOfFuel := by
  unfold solve
  split <;> simp [*, throw, throwThe, MonadExceptOf.throw, pure, Except.pure, eq_comm]

/-- A pass whose worklist descends answers, if every fault it can raise is an
error. -/
theorem solve_answers (hkept : Kept problem Q) (hdesc : Descends problem Q rank)
    (hstart : Holds problem Q (start 0 entry))
    (hblame : ∀ fault, Blame problem Q fault → ∃ error, fault = .error error) :
    Answers fun fuel => solve problem fuel entry := by
  obtain ⟨bound, result, hrun⟩ := run_start_terminates hkept hdesc hstart
  cases result with
  | ok final =>
    refine ⟨bound, .ok (), Graceful.ok (), fun fuel hfuel => ?_⟩
    exact solve_eq_ok.mpr ⟨final, hrun fuel hfuel⟩
  | error fault =>
    obtain ⟨error, rfl⟩ := hblame fault (run_error hkept hstart (hrun bound le_rfl))
    refine ⟨bound, .error (.error error), Graceful.error error, fun fuel hfuel => ?_⟩
    exact solve_eq_error.mpr (.inl (hrun fuel hfuel))

end Checker

end Worklist
