import Mathlib.Algebra.BigOperators.Intervals
import RSScript.Vm.Values

/-!
# Sorting with closures

`List.sort_with` and `List.sort_by` sort by insertion and ask closures for each comparison. A
closure is code of the program: it may update the machine, fail, or answer inconsistently. Which
answers the interpreter computes for a closure is not modelled here: a call is any function of the
machine's state.
-/

namespace RSScript.Vm

/-- A call into the machine. It updates the state, also where it fails. -/
abbrev CallM (S : Type) := ExceptT EvalError (StateM S)

section Sorting

variable {V S : Type}

/-! ## The loops -/

/-- The `while` loop for `item`: on its left the items not yet compared, the nearest first, and on
its right those it was swapped with. -/
def sinkItem (ordering : V → V → CallM S Int) (item : V) : List V → List V → CallM S (List V)
  | [], right => return item :: right
  | left :: lefts, right => do
    if (← ordering left item) ≤ 0 then return lefts.reverse ++ left :: item :: right
    else sinkItem ordering item lefts (left :: right)

/-- The `for` loop: the items up to `right_index` are in order. -/
def sortItems (ordering : V → V → CallM S Int) : List V → List V → CallM S (List V)
  | sorted, [] => return sorted
  | sorted, item :: rest => do sortItems ordering (← sinkItem ordering item sorted.reverse []) rest

variable (env : Environment V) (key : V → CallM S V) (compare : V → V → CallM S V)

/-- One comparison, whose answer has to be an `Int`. -/
def callCompare (left right : V) : CallM S Int := do
  ExceptT.mk (pure (env.expectInt (← compare left right)))

def callCompareKeys (left right : V) : CallM S Int := do
  let leftKey ← key left
  let rightKey ← key right
  callCompare env compare leftKey rightKey

def sortListWithClosure (list : List V) : CallM S (List V) :=
  sortItems (callCompare env compare) [] list

def sortListByClosure (list : List V) : CallM S (List V) :=
  sortItems (callCompareKeys env key compare) [] list

/-! ## Closures of any kind -/

section Any

variable {α : Type} {ordering : V → V → CallM S Int} {calls : Nat} {run : CallM S α}
  {post : α → Prop}

/-- A run that makes at most `calls` comparisons and ends in a result with `post`, unless a
comparison fails. -/
inductive Compares (ordering : V → V → CallM S Int) (post : α → Prop) : Nat → CallM S α → Prop where
  | done {calls : Nat} {result : α} (h : post result) : Compares ordering post calls (pure result)
  | ask {calls : Nat} (left right : V) {next : Int → CallM S α}
      (h : ∀ answer, Compares ordering post calls (next answer)) :
      Compares ordering post (calls + 1) (ordering left right >>= next)

/-- A run fails only with the failure of a comparison. -/
def EndsIn (ordering : V → V → CallM S Int) (post : α → Prop) (run : CallM S α) : Prop :=
  ∀ state, match (run state).1 with
    | .ok result => post result
    | .error error => ∃ left right state, (ordering left right state).1 = .error error

theorem Compares.endsIn (h : Compares ordering post calls run) : EndsIn ordering post run := by
  induction h with
  | done h => exact fun _ => h
  | @ask _ left right next _ ih =>
    intro state
    simp only [Bind.bind, ExceptT.bind, ExceptT.mk, StateT.bind]
    rcases hcall : ordering left right state with ⟨_ | answer, state'⟩
    · exact ⟨left, right, state, congrArg Prod.fst hcall⟩
    · exact ih answer state'

theorem Compares.mono (h : Compares ordering post calls run) (hle : calls ≤ calls')
    (hpost : ∀ result, post result → post' result) : Compares ordering post' calls' run := by
  induction h generalizing calls' with
  | done h => exact .done (hpost _ h)
  | ask left right _ ih =>
    obtain ⟨rest, rfl⟩ := Nat.exists_eq_add_of_lt hle
    exact .ask left right fun answer => ih answer (by omega)

theorem Compares.bind (h : Compares ordering post calls run)
    (hnext : ∀ result, post result → Compares ordering post' calls' (next result)) :
    Compares ordering post' (calls + calls') (run >>= next) := by
  induction h with
  | done h => exact (hnext _ h).mono (by omega) fun _ => id
  | ask left right _ ih =>
    rw [bind_assoc, Nat.add_right_comm]
    exact .ask left right ih

theorem sinkItem_compares (right : List V) :
    Compares ordering (·.Perm (item :: (lefts ++ right))) lefts.length
      (sinkItem ordering item lefts right) := by
  induction lefts generalizing right with
  | nil => exact .done (.refl _)
  | cons left lefts ih =>
    refine .ask left item fun answer => ?_
    split
    · have hperm : (lefts.reverse ++ left :: item :: right).Perm (left :: item :: (lefts ++ right)) :=
        List.perm_middle.trans (.cons _ (List.perm_middle.trans
          (.cons _ (lefts.reverse_perm.append_right _))))
      exact .done (hperm.trans (.swap ..))
    · exact (ih (left :: right)).mono le_rfl fun _ hperm => hperm.trans (List.perm_middle.cons item)

/-- An item that sinks is compared at most once with each item in front of it. -/
theorem sortItems_compares (sorted rest : List V) : Compares ordering (·.Perm (sorted ++ rest))
      (∑ taken ∈ Finset.range rest.length, (sorted.length + taken))
      (sortItems ordering sorted rest) := by
  induction rest generalizing sorted with
  | nil => exact .done (.of_eq sorted.append_nil.symm)
  | cons item rest ih =>
    rw [List.length_cons, Finset.sum_range_succ', Nat.add_comm, Nat.add_zero, ← sorted.length_reverse]
    refine (sinkItem_compares []).bind fun sorted' hperm => ?_
    have hlength := hperm.length_eq
    simp only [List.append_nil, List.length_cons, List.length_reverse] at hlength
    refine (ih sorted').mono (by simp [hlength, Nat.add_assoc, Nat.add_comm 1]) fun _ hends => ?_
    refine hends.trans ((hperm.append_right rest).trans ?_)
    simpa using ((sorted.reverse_perm.append_right rest).cons item).trans List.perm_middle.symm

end Any

/-! ## Closures that order -/

/-- The items of `list` in order; those that stood in order stand as they stood. -/
structure StableSorted (order : V → V → Int) (list sorted : List V) : Prop where
  perm : sorted.Perm list
  ordered : sorted.Pairwise (order · · ≤ 0)
  stable : ∀ items : List V, items.Sublist list → items.Pairwise (order · · ≤ 0) → items.Sublist sorted

/-- Calls that give `answer` in every state that is ready for them. `ready calls` holds of the states
in which the machine can make `calls` more calls: a call may tick, write registers and use up steps. -/
def Answers {α : Type} (ready : Nat → S → Prop) (call : CallM S α) (answer : α) : Prop :=
  ∀ calls state, ready (calls + 1) state →
    ∃ state', call.run state = (.ok answer, state') ∧ ready calls state'

/-- Comparisons that answer as a total preorder on the items of a list. -/
structure Orders (ready : Nat → S → Prop) (list : List V) (ordering : V → V → CallM S Int)
    (order : V → V → Int) : Prop where
  fewer : ∀ calls state, ready (calls + 1) state → ready calls state
  answers : ∀ left ∈ list, ∀ right ∈ list, Answers ready (ordering left right) (order left right)
  total : ∀ left ∈ list, ∀ right ∈ list, order left right ≤ 0 ∨ order right left ≤ 0
  trans : ∀ first ∈ list, ∀ second ∈ list, ∀ third ∈ list, order first second ≤ 0 →
    order second third ≤ 0 → order first third ≤ 0

section Ordering

variable {ready : Nat → S → Prop} {list : List V} {ordering : V → V → CallM S Int}
  {order : V → V → Int} {state : S}

theorem Orders.fewer_of_le (h : Orders ready list ordering order) (hle : calls ≤ calls')
    (hready : ready calls' state) : ready calls state := by
  induction hle with
  | refl => exact hready
  | step _ ih => exact ih (h.fewer _ _ hready)

theorem run_bind_ok {α β : Type} {call : CallM S α} {next : α → CallM S β} {answer : α}
    (h : call.run state = (.ok answer, state')) : (call >>= next).run state = (next answer).run state' := by
  have hcall : call state = (.ok answer, state') := h
  change (ExceptT.bind call next) state = next answer state'
  simp [ExceptT.bind, ExceptT.mk, ExceptT.bindCont, Bind.bind, StateT.bind, hcall]

/-- Seen from the right end, an item is inserted in front of the first that is not after it. -/
theorem sinkItem_run (right : List V) (h : Orders ready list ordering order) (hitem : item ∈ list)
    (hlefts : ∀ left ∈ lefts, left ∈ list) (hready : ready (lefts.length + calls) state) :
    ∃ state', (sinkItem ordering item lefts right).run state =
        (.ok ((lefts.orderedInsert (fun item left => order left item ≤ 0) item).reverse ++ right),
          state') ∧ ready calls state' := by
  induction lefts generalizing right state with
  | nil => exact ⟨state, rfl, by simpa using hready⟩
  | cons left lefts ih =>
    obtain ⟨hleft, hrest⟩ := List.forall_mem_cons.mp hlefts
    rw [List.length_cons, Nat.add_right_comm] at hready
    obtain ⟨middle, hanswer, hmiddle⟩ := h.answers left hleft item hitem _ state hready
    rw [sinkItem, run_bind_ok hanswer, List.orderedInsert_cons]
    split_ifs with hle
    · exact ⟨middle, by simp; rfl, h.fewer_of_le (by omega) hmiddle⟩
    · obtain ⟨state', hrun, hstate'⟩ := ih (left :: right) hrest hmiddle
      exact ⟨state', by simpa using hrun, hstate'⟩

/-- The list is sorted by insertion, from its right end. -/
theorem sortItems_run (h : Orders ready list ordering order) (hrest : ∀ item ∈ rest, item ∈ list)
    (hsorted : ∀ item ∈ sorted, item ∈ list)
    (hready : ready (∑ taken ∈ Finset.range rest.length, (sorted.length + taken)) state) :
    ∃ state', (sortItems ordering sorted.reverse rest).run state =
      (.ok (rest.reverse.foldr (List.orderedInsert fun item left => order left item ≤ 0) sorted).reverse,
        state') := by
  induction rest generalizing sorted state with
  | nil => exact ⟨state, rfl⟩
  | cons item rest ih =>
    obtain ⟨hitem, hrest⟩ := List.forall_mem_cons.mp hrest
    rw [List.length_cons, Finset.sum_range_succ', Nat.add_zero, Nat.add_comm] at hready
    obtain ⟨middle, hsink, hmiddle⟩ := sinkItem_run [] h hitem hsorted hready
    rw [sortItems, List.reverse_reverse, run_bind_ok hsink, List.append_nil]
    have hinserted : ∀ other ∈ sorted.orderedInsert (fun item left => order left item ≤ 0) item,
        other ∈ list := by
      intro other hmem
      obtain rfl | hmem := (List.mem_orderedInsert _).mp hmem
      · exact hitem
      · exact hsorted other hmem
    have hleft : ready (∑ taken ∈ Finset.range rest.length,
        ((sorted.orderedInsert (fun item left => order left item ≤ 0) item).length + taken)) middle := by
      simpa [List.orderedInsert_length, Nat.add_assoc, Nat.add_comm 1] using hmiddle
    obtain ⟨state', hrun⟩ := ih hrest hinserted hleft
    exact ⟨state', by simpa using hrun⟩

/-- Sorting by insertion from the right end is stable where the order is total and transitive. -/
theorem stableSorted_insertionSort (h : Orders ready list ordering order) :
    StableSorted order list
      (list.reverse.insertionSort fun item left => order left item ≤ 0).reverse := by
  -- the order is that of a preorder on the items alone
  let after (item left : { item // item ∈ list }) : Prop := order left item ≤ 0
  have : Std.Total after := ⟨fun item left => h.total _ left.2 _ item.2⟩
  have : IsTrans _ after := ⟨fun first second third hfirst hsecond =>
    h.trans _ third.2 _ second.2 _ first.2 hsecond hfirst⟩
  have hitems : list.reverse = list.attach.reverse.map Subtype.val := by simp
  have hsort : (list.reverse.insertionSort fun item left => order left item ≤ 0) =
      (list.attach.reverse.insertionSort after).map Subtype.val := by
    rw [hitems]
    exact (List.map_insertionSort after _ Subtype.val _ fun _ _ _ _ => Iff.rfl).symm
  refine ⟨?_, ?_, fun items hsub hordered => ?_⟩
  · exact (List.reverse_perm _).trans ((List.perm_insertionSort _ _).trans list.reverse_perm)
  · rw [hsort]
    exact List.pairwise_reverse.mpr (List.pairwise_map.mpr (List.pairwise_insertionSort after _))
  · rw [← list.attach_map_subtype_val] at hsub
    obtain ⟨members, hmembers, rfl⟩ := List.sublist_map_iff.mp hsub
    have hreverse := List.sublist_insertionSort (r := after)
      (List.pairwise_reverse.mpr (List.pairwise_map.mp hordered)) hmembers.reverse
    rw [hsort]
    simpa using (hreverse.map Subtype.val).reverse

theorem sortItems_sorted (h : Orders ready list ordering order)
    (hready : ready (list.length * (list.length - 1) / 2) state) :
    ∃ sorted state', (sortItems ordering [] list).run state = (.ok sorted, state') ∧
      StableSorted order list sorted := by
  have hcalls : ready (∑ taken ∈ Finset.range list.length, (([] : List V).length + taken)) state := by
    simpa [Finset.sum_range_id] using hready
  obtain ⟨state', hrun⟩ := sortItems_run h (fun _ => id) (by simp) hcalls
  exact ⟨_, state', hrun, stableSorted_insertionSort h⟩

end Ordering

/-! ## The two sorts -/

variable {env key compare}

/-- A comparison of keys makes three calls. -/
theorem Orders.keys {ready : Nat → S → Prop} {keyOf : V → V}
    (h : Orders ready (list.map keyOf) (callCompare env compare) order)
    (hkey : ∀ item ∈ list, Answers ready (key item) (keyOf item)) :
    Orders (fun calls => ready (3 * calls)) list (callCompareKeys env key compare)
      fun left right => order (keyOf left) (keyOf right) := by
  have hmem {item : V} (hitem : item ∈ list) : keyOf item ∈ list.map keyOf := List.mem_map_of_mem hitem
  refine ⟨fun calls state => h.fewer_of_le (by omega), ?_, ?_, ?_⟩
  · intro left hleft right hright calls state hready
    obtain ⟨first, hrunFirst, hfirst⟩ := hkey left hleft (3 * calls + 2) state hready
    obtain ⟨second, hrunSecond, hsecond⟩ := hkey right hright (3 * calls + 1) first hfirst
    obtain ⟨third, hrunThird, hthird⟩ :=
      h.answers _ (hmem hleft) _ (hmem hright) (3 * calls) second hsecond
    exact ⟨third, by rw [callCompareKeys, run_bind_ok hrunFirst, run_bind_ok hrunSecond, hrunThird],
      hthird⟩
  · exact fun left hleft right hright => h.total _ (hmem hleft) _ (hmem hright)
  · exact fun first hfirst second hsecond third hthird =>
      h.trans _ (hmem hfirst) _ (hmem hsecond) _ (hmem hthird)

variable (env key compare)

/-- Where the closures answer as a total preorder on the items (on their keys) while the machine is
ready for `n * (n - 1) / 2` comparisons, the sorts end with the list sorted and stable. With closures
of any kind they end with the items of the list in some order, or with the failure of a comparison,
after at most as many comparisons. -/
theorem closureSorts (list : List V) (ready : Nat → S → Prop) (order : V → V → Int) (state : S) :
    (Orders ready list (callCompare env compare) order →
      ready (list.length * (list.length - 1) / 2) state →
      ∃ sorted state', (sortListWithClosure env compare list).run state = (.ok sorted, state') ∧
        StableSorted order list sorted) ∧
    (∀ keyOf : V → V, (∀ item ∈ list, Answers ready (key item) (keyOf item)) →
      Orders ready (list.map keyOf) (callCompare env compare) order →
      ready (3 * (list.length * (list.length - 1) / 2)) state →
      ∃ sorted state', (sortListByClosure env key compare list).run state = (.ok sorted, state') ∧
        StableSorted (fun left right => order (keyOf left) (keyOf right)) list sorted) ∧
    (Compares (callCompare env compare) (·.Perm list) (list.length * (list.length - 1) / 2)
        (sortListWithClosure env compare list) ∧
      EndsIn (callCompare env compare) (·.Perm list) (sortListWithClosure env compare list)) ∧
    Compares (callCompareKeys env key compare) (·.Perm list) (list.length * (list.length - 1) / 2)
      (sortListByClosure env key compare list) ∧
    EndsIn (callCompareKeys env key compare) (·.Perm list) (sortListByClosure env key compare list) := by
  have hany : ∀ ordering : V → V → CallM S Int, Compares ordering (·.Perm list)
      (list.length * (list.length - 1) / 2) (sortItems ordering [] list) := by
    intro ordering
    simpa [Finset.sum_range_id] using sortItems_compares [] list
  refine ⟨fun h hready => sortItems_sorted h hready, fun keyOf hkey h hready => ?_,
    ⟨hany _, (hany _).endsIn⟩, hany _, (hany _).endsIn⟩
  exact sortItems_sorted (h.keys hkey) hready

end Sorting

/-- Compares two `Int`s by their difference in one step of a budget; any other values, and any call
without a step left, fail. -/
def compareBudgeted (left right : VmValue) : CallM Nat VmValue := do
  match left, right, ← get with
  | .int left, .int right, steps + 1 =>
    set steps
    return .int (left - right)
  | _, _, _ => throw (runtime "no comparison")

/-- The value of an `Int`. -/
def VmValue.intOr0 (value : VmValue) : Int := value.expectInt.toOption.getD 0

/-- With a step for each comparison the budgeted closure sorts a list in which two items are equal. -/
theorem closureSorts_budgeted :
    ∃ sorted state', (sortListWithClosure smallEnvironment compareBudgeted
        [.int 2, .int 1, .int 2]).run 3 = (.ok sorted, state') ∧
      StableSorted (fun left right => left.intOr0 - right.intOr0)
        [.int 2, .int 1, .int 2] sorted := by
  refine (closureSorts smallEnvironment pure compareBudgeted [.int 2, .int 1, .int 2]
    (fun calls steps => calls ≤ steps) _ 3).1 ⟨?_, ?_, ?_, ?_⟩ (by decide)
  · intro calls steps hle
    omega
  · intro left hleft right hright calls steps hle
    obtain ⟨steps, rfl⟩ : ∃ rest, steps = rest + 1 := ⟨steps - 1, by omega⟩
    refine ⟨steps, ?_, by omega⟩
    simp only [List.mem_cons, List.not_mem_nil, or_false] at hleft hright
    obtain rfl | rfl | rfl := hleft
    all_goals obtain rfl | rfl | rfl := hright <;> rfl
  · intro left _ right _
    omega
  · intro first _ second _ third _
    omega

end RSScript.Vm
