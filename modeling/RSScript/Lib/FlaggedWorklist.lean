import RSScript.Lib.Worklist

/-!
# Worklist solvers with flags

A solver may keep its facts in a table that starts at a bottom element, together
with two flags per node: is it queued, and has it been visited? A target is
queued when it was never visited or its fact changed, unless it is queued
already. `solve_toProblem` shows that this is the worklist solver of
`RSScript.Lib.Worklist` in which an unreached node has no fact at all, so that
its rules apply.
-/

namespace Worklist

open Outcome Function

/-- A forward analysis over joined facts. `join` answers with the new fact of a
target and whether it changed. -/
structure Joining (σ ε : Type) where
  size : Nat
  bottom : σ
  flow : Nat → σ → Except (Fault ε) (List (Nat × σ))
  join : σ → σ → Except (Fault ε) (σ × Bool)

structure Flagged (σ : Type) where
  entries : Nat → σ
  queued : Nat → Bool
  visited : Nat → Bool
  work : List Nat

variable {σ ε : Type}

namespace Joining

variable (J : Joining σ ε)

/-- The start: node 0 is queued. -/
def start : Flagged σ where
  entries _ := J.bottom
  queued node := node = 0
  visited _ := false
  work := [0]

def enqueue (state : Flagged σ) (target : Nat) (fact : σ) : Except (Fault ε) (Flagged σ) :=
  if target < J.size then do
    let (entry, changed) ← J.join (state.entries target) fact
    let entries := Function.update state.entries target entry
    if (!state.visited target || changed) && !state.queued target then
      return ⟨entries, Function.update state.queued target true, state.visited,
        state.work ++ [target]⟩
    else return { state with entries }
  -- `entries[target]`
  else throw .panic

def deliver (state : Flagged σ) (edges : List (Nat × σ)) : Except (Fault ε) (Flagged σ) :=
  edges.foldlM (fun state (target, fact) => J.enqueue state target fact) state

/-- Visit a node that was just taken from the queue. -/
def visit (state : Flagged σ) (node : Nat) : Except (Fault ε) (Flagged σ) := do
  let edges ← J.flow node (state.entries node)
  J.deliver { state with
    queued := Function.update state.queued node false
    visited := Function.update state.visited node true } edges

def run : Nat → Flagged σ → Except (Fault ε) (Flagged σ)
  | 0, _ => throw .outOfFuel
  | fuel + 1, state =>
    match state.work with
    | [] => return state
    | node :: work => do run fuel (← J.visit { state with work } node)

/-- Run from node 0 and keep only the verdict. -/
def solve (fuel : Nat) : Except (Fault ε) Unit := do
  let _ ← J.run fuel J.start

/-! ## The same analysis without flags -/

/-- The facts of unreached nodes are left out, and the flags with them. -/
def toProblem : Problem σ (Fault ε) where
  size := J.size
  flow node fact := do return (← J.flow node fact).map .ok
  merge _ existing fact := do
    let (entry, changed) ← J.join existing fact
    return if changed then some entry else none
  outside _ := .panic
  stale _ := .panic
  dedup := true

end Joining

/-- Joining into bottom gives the fact itself, and an unchanged fact is the same. -/
structure LawfulJoin (J : Joining σ ε) : Prop where
  bottom : ∀ fact, ∃ changed, J.join J.bottom fact = .ok (fact, changed)
  unchanged : ∀ {existing fact entry}, J.join existing fact = .ok (entry, false) → entry = existing

/-- A state with flags and one without that agree. -/
structure Tracks (J : Joining σ ε) (flagged : Flagged σ) (state : State σ) : Prop where
  work : state.work = flagged.work
  nodup : flagged.work.Nodup
  queued : ∀ node, flagged.queued node = true ↔ node ∈ flagged.work
  reached : ∀ node, flagged.visited node = true ∨ flagged.queued node = true →
    state.incoming node = some (flagged.entries node)
  fresh : ∀ node, flagged.visited node = false → flagged.queued node = false →
    state.incoming node = none ∧ flagged.entries node = J.bottom

/-- Two results that agree. -/
inductive Agree (J : Joining σ ε) :
    Except (Fault ε) (Flagged σ) → Except (Fault ε) (State σ) → Prop
  | error (fault : Fault ε) : Agree J (.error fault) (.error fault)
  | ok {flagged : Flagged σ} {state : State σ} (tracks : Tracks J flagged state) :
      Agree J (.ok flagged) (.ok state)

attribute [local simp] Joining.toProblem Joining.start Except.bind

section Simulation

variable {J : Joining σ ε}

theorem tracks_start : Tracks J J.start (start 0 J.bottom) where
  work := rfl
  nodup := List.nodup_singleton 0
  queued node := by simp
  reached node h := by
    obtain rfl : node = 0 := by simpa using h
    simp
  fresh node _ h := by
    have hne : node ≠ 0 := by simpa using h
    exact ⟨start_incoming_of_ne hne, rfl⟩

variable {flagged : Flagged σ} {state : State σ}

/-- A fact for a reached node replaces the old one; a queued node keeps its place. -/
theorem Tracks.update (h : Tracks J flagged state)
    (hreached : flagged.visited target = true ∨ flagged.queued target = true) :
    Tracks J { flagged with entries := Function.update flagged.entries target entry }
      ⟨Function.update state.incoming target (some entry), state.work⟩ where
  work := h.work
  nodup := h.nodup
  queued := h.queued
  reached node hnode := by
    by_cases heq : node = target
    · subst heq
      simp
    · simpa [heq] using h.reached node hnode
  fresh node hvisited hqueued := by
    by_cases heq : node = target
    · simp_all
    · simpa [heq] using h.fresh node hvisited hqueued

/-- A node that is not queued is queued with its new fact. -/
theorem Tracks.push (h : Tracks J flagged state) (hqueued : flagged.queued target = false) :
    Tracks J ⟨Function.update flagged.entries target entry,
        Function.update flagged.queued target true, flagged.visited, flagged.work ++ [target]⟩
      ⟨Function.update state.incoming target (some entry), state.work ++ [target]⟩ where
  work := by rw [h.work]
  nodup := by
    have hnot : target ∉ flagged.work := fun hmem => by simp [(h.queued target).mpr hmem] at hqueued
    exact List.nodup_append.mpr ⟨h.nodup, List.nodup_singleton _, by
      intro node hnode other hother heq
      exact hnot (List.mem_singleton.mp hother ▸ heq ▸ hnode)⟩
  queued node := by
    by_cases heq : node = target
    · subst heq
      simp
    · simp [heq, h.queued]
  reached node hnode := by
    by_cases heq : node = target
    · subst heq
      simp
    · simp only [update_of_ne heq] at hnode ⊢
      exact h.reached node hnode
  fresh node hvisited hnode := by
    by_cases heq : node = target
    · subst heq
      simp at hnode
    · simp only [update_of_ne heq] at hnode ⊢
      exact h.fresh node hvisited hnode

/-- What merging one fact does without flags, for a fact the join leaves as it is. -/
theorem enqueue_toProblem_of_some (hlt : target < J.size)
    (hexisting : state.incoming target = some existing)
    (hjoin : J.join existing fact = .ok (entry, changed)) : J.toProblem.enqueue state target fact =
      .ok (if changed then J.toProblem.assign state target entry else state) := by
  have hmerge : J.toProblem.merge target existing fact = .ok (if changed then some entry else none) := by
    simp [hjoin, bind, pure, Except.pure]
  unfold Problem.enqueue
  rw [if_pos (show target < J.toProblem.size from hlt), hexisting]
  change (J.toProblem.merge target existing fact >>= _) = _
  rw [hmerge]
  cases changed <;> rfl

theorem enqueue_of_join (hlt : target < J.size)
    (hjoin : J.join (flagged.entries target) fact = .ok (entry, changed)) :
    J.enqueue flagged target fact =
      .ok (if (!flagged.visited target || changed) && !flagged.queued target then
        ⟨Function.update flagged.entries target entry, Function.update flagged.queued target true,
          flagged.visited, flagged.work ++ [target]⟩
      else { flagged with entries := Function.update flagged.entries target entry }) := by
  unfold Joining.enqueue
  rw [if_pos hlt, hjoin]
  change (if _ then _ else _) = _
  split <;> rfl

theorem Tracks.assign_of_not_queued (h : Tracks J flagged state)
    (hqueued : flagged.queued target = false) : J.toProblem.assign state target entry =
      ⟨Function.update state.incoming target (some entry), state.work ++ [target]⟩ := by
  have hmem : target ∉ state.work := by
    rw [h.work, ← h.queued target, hqueued]
    simp
  simp [Problem.assign, Problem.push, hmem]

section Tracked

variable (hlaw : LawfulJoin J) (h : Tracks J flagged state)

include hlaw h

/-- Merging into a node that was reached before. -/
theorem agree_enqueue_reached (hlt : target < J.size)
    (hreached : flagged.visited target = true ∨ flagged.queued target = true) :
    Agree J (J.enqueue flagged target fact) (J.toProblem.enqueue state target fact) := by
  have hincoming := h.reached target hreached
  cases hjoin : J.join (flagged.entries target) fact with
  | error fault =>
    have hleft : J.enqueue flagged target fact = .error fault := by
      simp [Joining.enqueue, hlt, hjoin, bind]
    have hright : J.toProblem.enqueue state target fact = .error fault := by
      simp [Problem.enqueue, hlt, hincoming, hjoin, bind]
    rw [hleft, hright]
    exact .error fault
  | ok result =>
    obtain ⟨entry, changed⟩ := result
    rw [enqueue_of_join hlt hjoin, enqueue_toProblem_of_some hlt hincoming hjoin]
    cases changed with
    | false =>
      obtain rfl := hlaw.unchanged hjoin
      have hskip : ((!flagged.visited target || false) && !flagged.queued target) = false := by
        rcases hreached with hv | hq
        · simp [hv]
        · simp [hq]
      rw [hskip, update_eq_self]
      exact .ok h
    | true =>
      cases hqueued : flagged.queued target with
      | true =>
        have hmem : target ∈ state.work := h.work ▸ (h.queued target).mp hqueued
        simpa [Problem.assign, Problem.push, hmem] using Agree.ok (h.update hreached)
      | false =>
        rw [h.assign_of_not_queued hqueued]
        simpa using Agree.ok (h.push hqueued)

/-- Merging into a node for the first time. -/
theorem agree_enqueue_fresh (hlt : target < J.size) (hvisited : flagged.visited target = false)
    (hqueued : flagged.queued target = false) :
    Agree J (J.enqueue flagged target fact) (J.toProblem.enqueue state target fact) := by
  obtain ⟨hincoming, hbottom⟩ := h.fresh target hvisited hqueued
  obtain ⟨changed, hjoin⟩ := hlaw.bottom fact
  have hright : J.toProblem.enqueue state target fact = .ok (J.toProblem.assign state target fact) := by
    unfold Problem.enqueue
    rw [if_pos (show target < J.toProblem.size from hlt), hincoming]
  rw [enqueue_of_join hlt (by rw [hbottom]; exact hjoin), hright, h.assign_of_not_queued hqueued]
  simpa [hvisited, hqueued] using Agree.ok (h.push hqueued)

theorem agree_enqueue (target : Nat) (fact : σ) :
    Agree J (J.enqueue flagged target fact) (J.toProblem.enqueue state target fact) := by
  by_cases hlt : target < J.size
  · by_cases hreached : flagged.visited target = true ∨ flagged.queued target = true
    · exact agree_enqueue_reached hlaw h hlt hreached
    · simp only [not_or, Bool.not_eq_true] at hreached
      exact agree_enqueue_fresh hlaw h hlt hreached.1 hreached.2
  · unfold Joining.enqueue Problem.enqueue
    rw [if_neg hlt, if_neg (show ¬target < J.toProblem.size from hlt)]
    exact .error .panic

theorem agree_deliver (edges : List (Nat × σ)) :
    Agree J (J.deliver flagged edges) (J.toProblem.deliver state (edges.map .ok)) := by
  induction edges generalizing flagged state with
  | nil => exact .ok h
  | cons edge edges ih =>
    obtain ⟨target, fact⟩ := edge
    change Agree J (J.enqueue flagged target fact >>= fun flagged => J.deliver flagged edges)
      (J.toProblem.enqueue state target fact >>= fun state =>
        J.toProblem.deliver state (edges.map .ok))
    have hhead := agree_enqueue hlaw h target fact
    revert hhead
    generalize J.enqueue flagged target fact = left
    generalize J.toProblem.enqueue state target fact = right
    intro hhead
    cases hhead with
    | error fault => exact .error fault
    | ok htracks => exact ih htracks

end Tracked

/-- Taking a node from the queue. -/
theorem Tracks.pop {work : List Nat} (h : Tracks J flagged ⟨incoming, node :: work⟩) :
    incoming node = some (flagged.entries node) ∧
    Tracks J { flagged with
      queued := Function.update flagged.queued node false
      visited := Function.update flagged.visited node true
      work := work } ⟨incoming, work⟩ := by
  have hwork : flagged.work = node :: work := h.work.symm
  have hqueued : flagged.queued node = true := (h.queued node).mpr (by simp [hwork])
  obtain ⟨hnot, hnodup⟩ := List.nodup_cons.mp (hwork ▸ h.nodup)
  refine ⟨h.reached node (.inr hqueued), rfl, hnodup, ?_, ?_, ?_⟩
  · intro other
    by_cases heq : other = node
    · subst heq
      simpa using hnot
    · simp [heq, h.queued, hwork]
  · intro other hother
    by_cases heq : other = node
    · subst heq
      exact h.reached other (.inr hqueued)
    · simp only [update_of_ne heq] at hother
      exact h.reached other hother
  · intro other hvisited hother
    by_cases heq : other = node
    · subst heq
      simp at hvisited
    · simp only [update_of_ne heq] at hvisited hother
      exact h.fresh other hvisited hother

theorem agree_visit (hlaw : LawfulJoin J) (h : Tracks J flagged ⟨incoming, node :: work⟩) :
    Agree J (J.visit { flagged with work } node) (J.toProblem.visit ⟨incoming, work⟩ node) := by
  obtain ⟨hincoming, htracks⟩ := h.pop
  unfold Problem.visit
  simp only [hincoming]
  unfold Joining.visit
  simp only [Joining.toProblem]
  cases hflow : J.flow node (flagged.entries node) with
  | error fault => exact .error fault
  | ok edges => exact agree_deliver hlaw htracks edges

theorem run_toProblem (hlaw : LawfulJoin J) (h : Tracks J flagged state) :
    (J.run fuel flagged = .error .outOfFuel ∧ J.toProblem.run fuel state = none) ∨
    ∃ result, J.toProblem.run fuel state = some result ∧ Agree J (J.run fuel flagged) result := by
  induction fuel generalizing flagged state with
  | zero => exact .inl ⟨rfl, rfl⟩
  | succ fuel ih =>
    obtain ⟨incoming, work⟩ := state
    have hwork : work = flagged.work := h.work
    cases work with
    | nil =>
      refine .inr ⟨.ok ⟨incoming, []⟩, rfl, ?_⟩
      unfold Joining.run
      rw [← hwork]
      exact .ok h
    | cons node work =>
      unfold Joining.run Problem.run
      rw [← hwork]
      simp only
      have hvisit := agree_visit hlaw h
      revert hvisit
      generalize J.visit { flagged with work } node = left
      generalize J.toProblem.visit ⟨incoming, work⟩ node = right
      intro hvisit
      cases hvisit with
      | error fault => exact .inr ⟨_, rfl, .error fault⟩
      | ok htracks => exact ih htracks

/-- The verdict with flags is the verdict without. -/
theorem solve_toProblem (hlaw : LawfulJoin J) (fuel : Nat) :
    J.solve fuel = Worklist.solve J.toProblem fuel J.bottom := by
  unfold Joining.solve Worklist.solve
  rcases run_toProblem hlaw (tracks_start (J := J)) with ⟨hleft, hright⟩ | ⟨result, hright, hagree⟩
  · rw [hleft, hright]
    rfl
  · rw [hright]
    revert hagree
    generalize J.run fuel J.start = left
    intro hagree
    cases hagree with
    | error fault => rfl
    | ok => rfl

end Simulation

end Worklist
