import Mathlib.Tactic.IntervalCases
import RSScript.Vm.Failures
import RSScript.Vm.Values

/-!
# Runs under different orders of the hash tables

`satisfy_waiters` sorts the tasks it found before it wakes them, so that what a run does is
independent of the order in which the table of tasks is enumerated.
`cleanup_all_resource_scopes` collects the keys of the table of scopes and drops in the order it
found them: from there on two runs agree if a single task has scopes. What has failed before is
the result in every order.

Both runs have the same host, which answers from its state alone: what it reads from outside is
no source of difference here.
-/

namespace RSScript.Vm

open Config

/-! ## Orders -/

/-- A table that enumerates its keys sorted by a relation. -/
def HashOrder.sorting (before : Nat → Nat → Prop) [DecidableRel before] : HashOrder :=
  ⟨List.insertionSort before, List.perm_insertionSort before⟩

/-- Copies of one key look the same in every order. -/
theorem HashOrder.arrange_of_all_eq (order : HashOrder) (h : keys.Pairwise (· = ·)) :
    order.arrange keys = keys := by
  have hperm := order.perm keys
  exact hperm.eq_of_pairwise (fun _ _ _ _ heq _ => heq) (hperm.symm.pairwise h Eq.symm) h

/-- Keys that look the same ascending and descending are copies of one key. -/
theorem all_eq_of_sorting
    (h : (HashOrder.sorting (· ≤ ·)).arrange keys = (HashOrder.sorting (· ≥ ·)).arrange keys) :
    keys.Pairwise (· = ·) := by
  have hup : (keys.insertionSort (· ≤ ·)).Pairwise (· ≤ ·) := List.pairwise_insertionSort _ _
  have hdown : (keys.insertionSort (· ≤ ·)).Pairwise (· ≥ ·) := by
    rw [show keys.insertionSort (· ≤ ·) = _ from h]
    exact List.pairwise_insertionSort _ _
  have hsame := hup.and hdown |>.imp fun hle => Nat.le_antisymm hle.1 hle.2
  exact (List.perm_insertionSort _ _).pairwise hsame Eq.symm

section Orders

variable {V H K : Type} (env : Environment V) (unit : RegUnit) (host : Host V H K)
  (order order' : HashOrder)

/-! ## One step -/

/-- The tasks that wake are sorted, so the order of the table is lost. -/
theorem Machine.readyWaiters_order (vm : Machine V) :
    vm.readyWaiters order table = vm.readyWaiters order' table := by
  have htasks := (order.perm (vm.tasks.map Prod.fst)).trans (order'.perm _).symm
  have hready := htasks.filter (vm.canWake table)
  have hsorted := (List.perm_insertionSort (· ≤ ·) _).trans
    (hready.trans (List.perm_insertionSort (· ≤ ·) _).symm)
  exact hsorted.eq_of_pairwise (fun _ _ _ _ => Nat.le_antisymm)
    (List.pairwise_insertionSort _ _) (List.pairwise_insertionSort _ _)

/-- Only the final cleanup depends on the order of a table. -/
theorem perform_order (hop : op ≠ .cleanupAll) :
    perform env unit order op = perform env unit order' op := by
  cases op with
  | cleanupAll => exact absurd rfl hop
  | satisfyWaiters => simp only [perform, Machine.readyWaiters_order order order']
  | joinAll tasks | cancelLosers tasks | resolveWaits tasks | sweep tasks => cases tasks <;> rfl
  | _ => rfl

/-- The final cleanup sweeps the tasks in the order of the table. -/
theorem Config.step_cleanupAll (vm : Machine V) (world : World V H) :
    Config.step env unit order host ⟨vm, world, .cleanupAll :: rest, .next⟩ =
      ⟨vm, world, .sweep (order.arrange (world.resources.scopes.map Prod.fst)) none :: rest, .next⟩ :=
  rfl

/-- If the final cleanup is about to start, at most one task has an entry in the table of scopes. -/
def Config.SweepsOne (config : Config V H K) : Prop :=
  match config.control, config.agenda with
  | .next, .cleanupAll :: _ => (config.world.resources.scopes.map Prod.fst).Pairwise (· = ·)
  | _, _ => True

/-- A step does the same in all orders if and only if it does not sweep two tasks. -/
theorem Config.step_order (config : Config V H K) :
    (∀ order order', config.step env unit order host = config.step env unit order' host) ↔
      config.SweepsOne := by
  obtain ⟨vm, world, agenda, control⟩ := config
  rcases control with _ | _ | _ | _ | _ <;> rcases agenda with _ | ⟨op, rest⟩
  case next.cons =>
    by_cases hop : op = .cleanupAll
    · subst hop
      simp only [step_cleanupAll, mk.injEq, true_and, and_true, List.cons.injEq, Op.sweep.injEq]
      exact ⟨fun h => all_eq_of_sorting (h _ _),
        fun h order order' => (order.arrange_of_all_eq h).trans (order'.arrange_of_all_eq h).symm⟩
    · have hone : SweepsOne (⟨vm, world, op :: rest, .next⟩ : Config V H K) := by
        cases op <;> trivial
      simp only [step, hone, iff_true]
      intro order order'
      rw [perform_order env unit order order' hop]
  all_goals exact iff_of_true (fun _ _ => rfl) trivial

/-! ## Whole runs -/

/-- Two runs agree until one of them sweeps two tasks. -/
theorem Config.run_before_sweep {config : Config V H K}
    (h : ∀ k < n, (config.run env unit host orders k).SweepsOne) :
    config.run env unit host orders' n = config.run env unit host orders n := by
  induction n with
  | zero => rfl
  | succ n ih =>
    rw [run, run, ih fun k hk => h k (hk.trans n.lt_succ_self)]
    exact (step_order env unit host _).2 (h n n.lt_succ_self) _ _

theorem Config.run_order {config : Config V H K}
    (h : ∀ n, (config.run env unit host (fun _ => .byId) n).SweepsOne) (orders : Nat → HashOrder) :
    config.run env unit host orders n = config.run env unit host (fun _ => .byId) n :=
  run_before_sweep env unit host fun k _ => h k

/-- The runs of a program go through the same states in all orders of its tables, with the same
result, output and counters, if and only if its final cleanup never finds the scopes of two tasks. -/
theorem runs_deterministic (state : H) (name : String) (args : List String) :
    (∀ orders orders' n, (Config.start env unit host state name args).run env unit host orders n =
        (Config.start env unit host state name args).run env unit host orders' n) ↔
      ∀ n, ((Config.start env unit host state name args).run env unit host
        (fun _ => .byId) n).SweepsOne := by
  constructor
  · intro h n
    refine (step_order env unit host _).1 fun order order' => ?_
    -- The two orders are used in the next step and nowhere else.
    have hstep (order : HashOrder) := h (fun m => if m = n then order else .byId) (fun _ => .byId) n
    have hnext := h (fun m => if m = n then order else .byId) (fun m => if m = n then order' else .byId)
      (n + 1)
    simpa only [run, hstep, if_true] using hnext
  · intro h orders orders' n
    rw [run_order env unit host h orders, run_order env unit host h orders']

/-- A program that fails before its final cleanup ends with this failure in all orders of its
tables, whatever the drops of the cleanup do. -/
theorem failure_ordered (state : H) (name : String) (args : List String)
    (orders orders' : Nat → HashOrder)
    (hbefore : ∀ k < n, ((Config.start env unit host state name args).run env unit host
      orders k).SweepsOne)
    (hfails : ((Config.start env unit host state name args).run env unit host
      orders n).failure = some error)
    (hhalt : ((Config.start env unit host state name args).run env unit host
      orders' m).control = .halt result) : result = .error error := by
  rw [← run_before_sweep env unit host hbefore] at hfails
  exact run_result (start_at env unit host state name args) hfails hhalt

end Orders

/-- The parent holds one resource and waits for its child, which holds another one and fails. Each
drop writes a line. -/
def failsHoldingTwo : RegUnit := { smallUnit [smallFunction 0 0 2 [
    .plain "MakeStruct" [] none none (some 0) [("layout", .object [("name", .string "Outer")])],
    .resourceAcquire 0,
    .spawnTask 1 1 [],
    .awaitJoin 1 1,
    .ret 1], smallFunction 1 0 1 [
    .plain "MakeStruct" [] none none (some 0) [("layout", .object [("name", .string "Inner")])],
    .resourceAcquire 0,
    .runtimeError "out of order",
    .ret 0], smallFunction 2 0 2 [
    .plain "LoadString" [] none none (some 0) [("value", .string "outer")],
    .callIntrinsic 1 "OutputWrite" [0],
    .ret 1], smallFunction 3 0 2 [
    .plain "LoadString" [] none none (some 0) [("value", .string "inner")],
    .callIntrinsic 1 "OutputWrite" [0],
    .ret 1]] with
  resourceDropFunctions := [("Inner", 3), ("Outer", 2)] }

/-- Both orders end with the same failure, but what the drops wrote stands in a different order. -/
theorem failsHoldingTwo_ordered :
    let run (order : HashOrder) := (start smallEnvironment failsHoldingTwo basicHost "" "main"
      []).run smallEnvironment failsHoldingTwo basicHost (fun _ => order) 50
    (run (.sorting (· ≤ ·))).control = .halt (.error (runtime "out of order")) ∧
    (run (.sorting (· ≤ ·))).world.host = "outer\ninner\n" ∧
    (run (.sorting (· ≥ ·))).control = .halt (.error (runtime "out of order")) ∧
    (run (.sorting (· ≥ ·))).world.host = "inner\nouter\n" :=
  ⟨rfl, rfl, rfl, rfl⟩

/-- The program fails at its nineteenth step, two before it sweeps both tasks. -/
theorem failsHoldingTwo_fails : ∃ result,
    ((start smallEnvironment failsHoldingTwo basicHost "" "main" []).run smallEnvironment
      failsHoldingTwo basicHost (fun _ => .sorting (· ≥ ·)) 44).control = .halt result ∧
    result = .error (runtime "out of order") :=
  ⟨_, rfl, failure_ordered smallEnvironment failsHoldingTwo basicHost "" "main" []
    (fun _ => .sorting (· ≤ ·)) (fun _ => .sorting (· ≥ ·)) (n := 19) (m := 44)
    (by intro k hk; interval_cases k <;> trivial) rfl rfl⟩

end RSScript.Vm
