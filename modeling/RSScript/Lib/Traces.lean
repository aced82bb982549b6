import Mathlib.Algebra.Group.Defs
import Mathlib.Data.Set.Basic

/-!
# Sets of runs

A run is the list of events that happened and how it ended: at its end, or by
leaving early in one of several ways. Programs denote sets of runs, composed one
after the other by a product that is associative and has the run without events
as its unit.
-/

namespace Traces

/-- Sets of runs over events `ε`, where `κ` are the ways of leaving early. -/
def Lang (ε κ : Type) : Type :=
  Set (List ε × Option κ)

variable {ε κ : Type}

instance : Membership (List ε × Option κ) (Lang ε κ) :=
  inferInstanceAs (Membership (List ε × Option κ) (Set (List ε × Option κ)))

variable {L M : Lang ε κ} {run : List ε × Option κ}

theorem Lang.ext (h : ∀ run, run ∈ L ↔ run ∈ M) : L = M := Set.ext h

/-- Nothing happens. -/
instance : One (Lang ε κ) :=
  ⟨fun run => run = ([], none)⟩

/-- First one, then, if it was not left early, the other. -/
instance : Mul (Lang ε κ) :=
  ⟨fun L M run => (∃ before after, (before, none) ∈ L ∧ (after, run.2) ∈ M ∧
      run.1 = before ++ after) ∨ (run.2.isSome ∧ run ∈ L)⟩

/-- One event. -/
def event (e : ε) : Lang ε κ :=
  fun run => run = ([e], none)

/-- Leave early. -/
def leave (way : κ) : Lang ε κ :=
  fun run => run = ([], some way)

/-- Either of the two. -/
def choice (L M : Lang ε κ) : Lang ε κ :=
  fun run => run ∈ L ∨ run ∈ M

theorem mem_one : run ∈ (1 : Lang ε κ) ↔ run = ([], none) := Iff.rfl

theorem mem_event : run ∈ (event e : Lang ε κ) ↔ run = ([e], none) := Iff.rfl

theorem mem_mul : run ∈ L * M ↔ (∃ before after, (before, none) ∈ L ∧ (after, run.2) ∈ M ∧
      run.1 = before ++ after) ∨ (run.2.isSome ∧ run ∈ L) :=
  Iff.rfl

instance : Monoid (Lang ε κ) where
  one_mul L := by
    apply Lang.ext
    rintro ⟨events, ending⟩
    rw [mem_mul]
    constructor
    · rintro (⟨before, after, hbefore, hafter, heq⟩ | ⟨hsome, hone⟩)
      · obtain rfl : before = [] := congrArg Prod.fst (mem_one.mp hbefore)
        obtain rfl : events = after := heq
        exact hafter
      · obtain ⟨-, rfl⟩ := Prod.mk.inj (mem_one.mp hone)
        simp at hsome
    · exact fun h => .inl ⟨[], events, rfl, h, rfl⟩
  mul_one L := by
    apply Lang.ext
    rintro ⟨events, ending⟩
    rw [mem_mul]
    constructor
    · rintro (⟨before, after, hbefore, hafter, heq⟩ | ⟨-, h⟩)
      · obtain ⟨rfl, hending⟩ := Prod.mk.inj (mem_one.mp hafter)
        obtain rfl : events = before := by simpa using heq
        obtain rfl : ending = none := hending
        exact hbefore
      · exact h
    · intro h
      cases ending with
      | none => exact .inl ⟨events, [], h, rfl, by simp⟩
      | some way => exact .inr ⟨rfl, h⟩
  mul_assoc L M N := by
    apply Lang.ext
    rintro ⟨events, ending⟩
    rw [mem_mul, mem_mul]
    constructor
    · rintro (⟨before, after, hbefore, hafter, rfl⟩ | ⟨hsome, hmul⟩)
      · rcases mem_mul.mp hbefore with ⟨first, second, hfirst, hsecond, rfl⟩ | ⟨hsome, -⟩
        · exact .inl ⟨first, second ++ after, hfirst,
            .inl ⟨second, after, hsecond, hafter, rfl⟩, List.append_assoc ..⟩
        · simp at hsome
      · rcases mem_mul.mp hmul with ⟨first, second, hfirst, hsecond, heq⟩ | ⟨-, hleft⟩
        · exact .inl ⟨first, second, hfirst, .inr ⟨hsome, hsecond⟩, heq⟩
        · exact .inr ⟨hsome, hleft⟩
    · rintro (⟨first, rest, hfirst, hrest, rfl⟩ | ⟨hsome, hleft⟩)
      · rcases mem_mul.mp hrest with ⟨second, after, hsecond, hafter, rfl⟩ | ⟨hsome, hsecond⟩
        · exact .inl ⟨first ++ second, after, .inl ⟨first, second, hfirst, hsecond, rfl⟩, hafter,
            (List.append_assoc ..).symm⟩
        · exact .inr ⟨hsome, .inl ⟨first, rest, hfirst, hsecond, rfl⟩⟩
      · exact .inr ⟨hsome, .inr ⟨hsome, hleft⟩⟩

theorem choice_self : choice L L = L := Lang.ext fun _ => or_self_iff

/-- What two stretches leave out in front can be done first, unless the rest of the
first stretch would have to wait for the front of the second. -/
theorem mul_fronts {front rest front' rest' : Lang ε κ} (h : rest = 1 ∨ front' = 1) :
    front * rest * (front' * rest') = front * front' * (rest * rest') := by
  rcases h with rfl | rfl
  · rw [mul_one, one_mul, mul_assoc]
  · rw [one_mul, mul_one, mul_assoc]

/-- The only run of events one after the other. -/
theorem mem_event_mul :
    run ∈ event e * L ↔ ∃ events, (events, run.2) ∈ L ∧ run.1 = e :: events := by
  constructor
  · rintro (⟨before, after, hbefore, hafter, heq⟩ | ⟨hsome, hevent⟩)
    · obtain rfl : before = [e] := congrArg Prod.fst (mem_event.mp hbefore)
      exact ⟨after, hafter, heq⟩
    · rw [mem_event.mp hevent] at hsome
      simp at hsome
  · rintro ⟨events, hevents, heq⟩
    exact .inl ⟨[e], events, rfl, hevents, heq⟩

section Loops

/-- The ways of leaving that a loop answers to itself. -/
structure LoopExits (κ : Type) where
  /-- Leaves the loop. -/
  last : κ
  /-- Goes on with the next round. -/
  next : κ

variable (exits : LoopExits κ) (mayStop : Prop) (test body : Nat → Lang ε κ)

/-- Test and body again and again, from a round on. Where `mayStop`, the loop ends after a test. -/
inductive Loops : Nat → List ε × Option κ → Prop where
  | stops {round events} (hstop : mayStop) (htest : (events, none) ∈ test round) :
      Loops round (events, none)
  | leavesTest {round events way} (htest : (events, some way) ∈ test round) :
      Loops round (events, some way)
  | again {round events events' ending run} (htest : (events, none) ∈ test round)
      (hbody : (events', ending) ∈ body round) (hending : ending = none ∨ ending = some exits.next)
      (hrun : Loops (round + 1) run) : Loops round (events ++ events' ++ run.1, run.2)
  | breaks {round events events'} (htest : (events, none) ∈ test round)
      (hbody : (events', some exits.last) ∈ body round) : Loops round (events ++ events', none)
  | leavesBody {round events events' way} (htest : (events, none) ∈ test round)
      (hbody : (events', some way) ∈ body round) (hway : way ≠ exits.last ∧ way ≠ exits.next) :
      Loops round (events ++ events', some way)

def loop : Lang ε κ :=
  fun run => Loops exits mayStop test body 0 run

end Loops

end Traces
