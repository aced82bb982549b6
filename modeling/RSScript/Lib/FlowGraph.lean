import Mathlib.Data.Set.Basic
import Mathlib.Data.Set.Lattice

/-!
# Runs through a control-flow graph

A graph of program points whose edges may carry an instruction, and the runs
through it from its entry. The second part is about lifetimes: an instruction
opens and closes keys and may need keys of some names to be open. What holds on
every run to a final point is the same as what an invariant per point can show
(`Lifetimes.needsMet_iff`), because opening and closing act on each key by
itself.
-/

namespace FlowGraph

/-- Points and edges; an edge is labelled with the instruction it executes, if any. -/
structure Flow (π ι : Type) where
  entry : π
  Edge : π → Option ι → π → Prop

variable {π ι κ ν : Type}

/-- A run from the entry to a point, with the instructions it executed. -/
inductive Run (G : Flow π ι) : List ι → π → Prop
  | entry : Run G [] G.entry
  | step {trace : List ι} {point target : π} {label : Option ι} (run : Run G trace point)
      (edge : G.Edge point label target) : Run G (trace ++ label.toList) target

def Reachable (G : Flow π ι) (point : π) : Prop := ∃ trace, Run G trace point

/-- A run can go on from the point to a final one. -/
inductive CanFinish (G : Flow π ι) (final : π → Prop) : π → Prop
  | done {point : π} (h : final point) : CanFinish G final point
  | step {point target : π} {label : Option ι} (edge : G.Edge point label target)
      (rest : CanFinish G final target) : CanFinish G final point

/-- A run to a point that can finish is the beginning of a run that does. -/
theorem Run.finish (hrun : Run G trace point) (hfinish : CanFinish G final point) :
    ∃ rest last, Run G (trace ++ rest) last ∧ final last := by
  induction hfinish generalizing trace with
  | done hfinal => exact ⟨[], _, by simpa using hrun, hfinal⟩
  | step hedge _ ih =>
    obtain ⟨rest, last, hlast, hfinal⟩ := ih (hrun.step hedge)
    exact ⟨_ ++ rest, last, by rwa [← List.append_assoc], hfinal⟩

/-! ## Lifetimes -/

/-- What an instruction opens and closes, and the names it needs to be open. -/
structure Lifetimes (ι κ ν : Type) where
  opens : ι → Set κ
  closes : ι → Set κ
  nameOf : κ → ν
  needs : ι → Set ν

namespace Lifetimes

variable (L : Lifetimes ι κ ν)

/-- The open keys after an instruction. -/
def after (instruction : ι) (live : Set κ) : Set κ :=
  L.opens instruction ∪ (live \ L.closes instruction)

/-- The open keys after an edge. -/
def afterEdge (label : Option ι) (live : Set κ) : Set κ :=
  match label with
  | none => live
  | some instruction => L.after instruction live

/-- The keys a run opened and has not closed. -/
def live (trace : List ι) : Set κ := trace.foldl (fun live instruction => L.after instruction live) ∅

@[simp] theorem live_nil : L.live [] = ∅ := rfl

@[simp] theorem live_snoc :
    L.live (trace ++ [instruction]) = L.after instruction (L.live trace) := by
  simp [live]

theorem live_edge : L.live (trace ++ label.toList) = L.afterEdge label (L.live trace) := by
  cases label with
  | none => simp [afterEdge]
  | some instruction => simp [afterEdge]

theorem after_mono (instruction : ι) {live live' : Set κ} (h : live ⊆ live') :
    L.after instruction live ⊆ L.after instruction live' :=
  Set.union_subset_union_right _ (Set.sdiff_subset_sdiff_left h)

theorem afterEdge_mono {live live' : Set κ} (h : live ⊆ live') :
    L.afterEdge label live ⊆ L.afterEdge label live' := by
  cases label with
  | none => exact h
  | some instruction => exact L.after_mono instruction h

/-- The names of some keys. -/
def names (keys : Set κ) : Set ν := {name | ∃ key ∈ keys, L.nameOf key = name}

theorem names_mono (h : keys ⊆ keys') : L.names keys ⊆ L.names keys' :=
  fun _ ⟨key, hkey, hname⟩ => ⟨key, h hkey, hname⟩

/-- Every instruction of a trace finds the names it needs open. -/
def NeedsMet (trace : List ι) : Prop :=
  ∀ before instruction rest, trace = before ++ instruction :: rest →
    L.needs instruction ⊆ L.names (L.live before)

theorem needsMet_nil : L.NeedsMet [] := by
  intro before instruction rest h
  simp at h

theorem NeedsMet.snoc (h : L.NeedsMet trace)
    (hneeds : L.needs instruction ⊆ L.names (L.live trace)) :
    L.NeedsMet (trace ++ [instruction]) := by
  intro before found rest heq
  rcases List.eq_nil_or_concat rest with rfl | ⟨rest, last, rfl⟩
  · obtain ⟨rfl, hlast⟩ := List.append_inj' heq rfl
    obtain rfl := List.singleton_inj.mp hlast
    exact hneeds
  · rw [List.concat_eq_append, ← List.cons_append, ← List.append_assoc] at heq
    obtain ⟨rfl, -⟩ := List.append_inj' heq rfl
    exact h before found rest rfl

/-- An invariant for each point: keys that are open whichever way the point is
reached. Only points on the way to a final one matter. -/
structure Invariant (G : Flow π ι) (final : π → Prop) (must : π → Set κ) : Prop where
  entry : must G.entry = ∅
  edge : ∀ {point target : π} {label : Option ι}, Reachable G point → G.Edge point label target →
    CanFinish G final target → must target ⊆ L.afterEdge label (must point)
  needs : ∀ {point target : π} {instruction : ι}, Reachable G point →
    G.Edge point (some instruction) target → CanFinish G final target →
    L.needs instruction ⊆ L.names (must point)

variable {L} {G : Flow π ι}

/-- The keys of an invariant are open, and nothing on the way lacked one. -/
theorem Invariant.run (h : L.Invariant G final must) (hrun : Run G trace point)
    (hfinish : CanFinish G final point) : must point ⊆ L.live trace ∧ L.NeedsMet trace := by
  induction hrun with
  | entry => exact ⟨by simp [h.entry], L.needsMet_nil⟩
  | @step trace point target label hrun hedge ih =>
    obtain ⟨hmust, hmet⟩ := ih (.step hedge hfinish)
    have hreach : Reachable G point := ⟨trace, hrun⟩
    refine ⟨?_, ?_⟩
    · rw [live_edge]
      exact (h.edge hreach hedge hfinish).trans (L.afterEdge_mono hmust)
    · cases label with
      | none => simpa using hmet
      | some instruction =>
        exact hmet.snoc _ ((h.needs hreach hedge hfinish).trans (L.names_mono hmust))

/-- The strongest invariant: what is open on every run to a point. -/
def openOnAll (L : Lifetimes ι κ ν) (G : Flow π ι) (point : π) : Set κ :=
  {key | ∀ trace, Run G trace point → key ∈ L.live trace}

theorem openOnAll_edge (hreach : Reachable G point) (hedge : G.Edge point label target) :
    L.openOnAll G target ⊆ L.afterEdge label (L.openOnAll G point) := by
  intro key hkey
  have hafter : ∀ trace, Run G trace point → key ∈ L.afterEdge label (L.live trace) := by
    intro trace hrun
    rw [← live_edge]
    exact hkey _ (hrun.step hedge)
  cases label with
  | none => exact hafter
  | some instruction =>
    obtain ⟨trace₀, hrun₀⟩ := hreach
    by_cases hopens : key ∈ L.opens instruction
    · exact .inl hopens
    · -- The key was open before on each run, and the edge does not close it.
      have hbefore : ∀ trace, Run G trace point →
          key ∈ L.live trace \ L.closes instruction := fun trace hrun =>
        (hafter trace hrun).resolve_left hopens
      exact .inr ⟨fun trace hrun => (hbefore trace hrun).1, (hbefore trace₀ hrun₀).2⟩

/-- No two keys that are ever open share a name. -/
def NamesDistinct (L : Lifetimes ι κ ν) (G : Flow π ι) : Prop :=
  ∀ {trace trace' : List ι} {point point' : π} {key key' : κ}, Run G trace point →
    Run G trace' point' → key ∈ L.live trace → key' ∈ L.live trace' →
    L.nameOf key = L.nameOf key' → key = key'

/-- Every run to a final point has its needs met exactly when some invariant
shows it. -/
theorem needsMet_iff (hdistinct : L.NamesDistinct G) :
    (∀ trace point, Run G trace point → final point → L.NeedsMet trace) ↔
      ∃ must : π → Set κ, L.Invariant G final must := by
  constructor
  · intro h
    refine ⟨L.openOnAll G, ?_, fun hreach hedge _ => openOnAll_edge hreach hedge, ?_⟩
    · exact Set.eq_empty_of_forall_notMem fun key hkey => hkey [] .entry
    · rintro point target instruction ⟨trace₀, hrun₀⟩ hedge hfinish name hname
      have hopen : ∀ trace, Run G trace point → name ∈ L.names (L.live trace) := by
        intro trace hrun
        obtain ⟨rest, last, hlast, hfinal⟩ := (hrun.step hedge).finish hfinish
        exact h _ last hlast hfinal trace instruction rest (by simp) hname
      obtain ⟨key, hkey, hkeyName⟩ := hopen trace₀ hrun₀
      refine ⟨key, fun trace hrun => ?_, hkeyName⟩
      obtain ⟨key', hkey', hkeyName'⟩ := hopen trace hrun
      rwa [hdistinct hrun₀ hrun hkey hkey' (hkeyName.trans hkeyName'.symm)]
  · rintro ⟨must, hmust⟩ trace point hrun hfinal
    exact (hmust.run hrun (.done hfinal)).2

end Lifetimes

end FlowGraph
