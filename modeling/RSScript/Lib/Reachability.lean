import Mathlib.Algebra.BigOperators.Group.Finset.Basic
import Mathlib.Data.Finset.Basic
import Mathlib.Logic.Relation

/-!
# Depth-first reachability

A stack of nodes to look at and the set of nodes seen. A node that was not seen
puts its successors on the stack. With fuel for every edge the search finds
exactly the nodes that a path from its start leads to (`mem_search`).
-/

namespace Reachability

open List Finset

variable (next : Nat → List Nat)

/-- The search; the head of `pending` is the top of the stack. -/
def search : Nat → List Nat → Finset Nat → Finset Nat
  | 0, _, seen => seen
  | _ + 1, [], seen => seen
  | fuel + 1, node :: pending, seen =>
    if node ∈ seen then search fuel pending seen
    else search fuel ((next node).reverse ++ pending) (insert node seen)

/-- A step along an edge. -/
def Step (source target : Nat) : Prop := target ∈ next source

variable {next}

variable {size node : Nat} {seen : Finset Nat}

/-- Everything found is on a path from what was pending or seen. -/
theorem search_sound {P : Nat → Prop} (hclosed : ∀ node, P node → ∀ target ∈ next node, P target)
    (hpending : ∀ node ∈ pending, P node) (hseen : ∀ node ∈ seen, P node) :
    ∀ node ∈ search next fuel pending seen, P node := by
  fun_induction search next fuel pending seen with
  | case1 => exact hseen
  | case2 => exact hseen
  | case3 fuel node pending seen hmem ih =>
    exact ih (fun other hother => hpending other (mem_cons_of_mem _ hother)) hseen
  | case4 fuel node pending seen hmem ih =>
    have hnode : P node := hpending node mem_cons_self
    refine ih (fun other hother => ?_) (fun other hother => ?_)
    · rcases mem_append.mp hother with hsucc | hother
      · exact hclosed node hnode other (mem_reverse.mp hsucc)
      · exact hpending other (mem_cons_of_mem _ hother)
    · rcases mem_insert.mp hother with rfl | hother
      · exact hnode
      · exact hseen other hother

/-- The edges out of nodes that were not seen. -/
def unseenEdges (next : Nat → List Nat) (size : Nat) (seen : Finset Nat) : Nat :=
  ∑ node ∈ Finset.range size \ seen, (next node).length

theorem unseenEdges_insert (hlt : node < size) (hfresh : node ∉ seen) :
    unseenEdges next size (insert node seen) + (next node).length = unseenEdges next size seen := by
  have hmem : node ∈ Finset.range size \ seen := mem_sdiff.mpr ⟨Finset.mem_range.mpr hlt, hfresh⟩
  have herase : Finset.range size \ insert node seen = (Finset.range size \ seen).erase node := by
    ext other
    simp only [mem_sdiff, mem_insert, mem_erase, not_or]
    tauto
  unfold unseenEdges
  rw [herase, sum_erase_add _ _ hmem]

/-- With enough fuel, what is found contains what was pending and is closed under edges. -/
theorem search_closed (hsize : ∀ node < size, ∀ target ∈ next node, target < size)
    (hpending : ∀ node ∈ pending, node < size)
    (hfuel : pending.length + unseenEdges next size seen ≤ fuel)
    (hseen : ∀ node ∈ seen, ∀ target ∈ next node, target ∈ seen ∨ target ∈ pending) :
    (∀ node ∈ pending, node ∈ search next fuel pending seen) ∧
      seen ⊆ search next fuel pending seen ∧
      ∀ node ∈ search next fuel pending seen, ∀ target ∈ next node,
        target ∈ search next fuel pending seen := by
  fun_induction search next fuel pending seen with
  | case1 pending seen =>
    have hnil : pending = [] := eq_nil_of_length_eq_zero (by omega)
    subst hnil
    refine ⟨by simp, Subset.refl _, fun node hnode target htarget => ?_⟩
    simpa using hseen node hnode target htarget
  | case2 fuel seen =>
    refine ⟨by simp, Subset.refl _, fun node hnode target htarget => ?_⟩
    simpa using hseen node hnode target htarget
  | case3 fuel node pending seen hmem ih =>
    have hrest : ∀ other ∈ pending, other < size :=
      fun other hother => hpending other (mem_cons_of_mem _ hother)
    obtain ⟨hfound, hsub, hclosed⟩ := ih hrest (by simp at hfuel; omega) (by
      intro other hother target htarget
      rcases hseen other hother target htarget with h | h
      · exact .inl h
      · rcases mem_cons.mp h with rfl | h
        · exact .inl hmem
        · exact .inr h)
    refine ⟨fun other hother => ?_, hsub, hclosed⟩
    rcases mem_cons.mp hother with rfl | hother
    · exact hsub hmem
    · exact hfound other hother
  | case4 fuel node pending seen hfresh ih =>
    have hlt : node < size := hpending node mem_cons_self
    have hedges : unseenEdges next size (insert node seen) + (next node).length =
        unseenEdges next size seen := unseenEdges_insert hlt hfresh
    obtain ⟨hfound, hsub, hclosed⟩ := ih
      (by
        intro other hother
        rcases mem_append.mp hother with hsucc | hother
        · exact hsize node hlt other (mem_reverse.mp hsucc)
        · exact hpending other (mem_cons_of_mem _ hother))
      (by
        simp only [length_append, length_reverse]
        simp only [length_cons] at hfuel
        omega)
      (by
        intro other hother target htarget
        rcases mem_insert.mp hother with rfl | hother
        · exact .inr (mem_append_left _ (mem_reverse.mpr htarget))
        · rcases hseen other hother target htarget with h | h
          · exact .inl (mem_insert_of_mem h)
          · rcases mem_cons.mp h with rfl | h
            · exact .inl (mem_insert_self _ _)
            · exact .inr (mem_append_right _ h))
    refine ⟨fun other hother => ?_, (Finset.subset_insert _ _).trans hsub, hclosed⟩
    rcases mem_cons.mp hother with rfl | hother
    · exact hsub (mem_insert_self _ _)
    · exact hfound other (mem_append_right _ hother)

/-- The search from one node finds exactly what its edges lead to. -/
theorem mem_search {start : Nat} (hsize : ∀ node < size, ∀ target ∈ next node, target < size)
    (hstart : start < size) (hfuel : 1 + unseenEdges next size ∅ ≤ fuel) :
    node ∈ search next fuel [start] ∅ ↔ Relation.ReflTransGen (Step next) start node := by
  constructor
  · refine search_sound (P := Relation.ReflTransGen (Step next) start) (fun _ hreach target h => ?_)
      (fun other hother => ?_) (by simp) node
    · exact hreach.tail h
    · rw [List.mem_singleton.mp hother]
  · intro hreach
    have hpending : ∀ node ∈ [start], node < size := by simpa using hstart
    obtain ⟨hfound, _, hclosed⟩ := search_closed hsize hpending
      (show [start].length + unseenEdges next size ∅ ≤ fuel from hfuel) (by simp)
    induction hreach with
    | refl => exact hfound start (List.mem_singleton_self _)
    | tail _ hstep ih => exact hclosed _ ih _ hstep

end Reachability
