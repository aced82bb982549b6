import RSScript.Mir.Verify.Definitions
import RSScript.Mir.Verify.Moves

/-!
# Resources and tasks on every path

The lifetime passes join predecessors by union: what is live on some path into a
block counts as live there. That finds every leak at a return. It does not show
that what a block releases or awaits is live on each path into it; a function for
which this holds too has, at every point, a set that is live whichever way the
point is reached.
-/

namespace RSScript.Mir

open FlowGraph Guards Outcome Worklist MirInstruction Finset

/-- The tasks an instruction consumes by name. -/
def MirInstruction.namedTasks : MirInstruction → List TaskId
  | await _ task | cancel task => [task]
  | select tasks _ _ => tasks
  | _ => []

/-- Resources by place: opened by an acquisition, closed by a release. -/
def resourceLifetimes : Lifetimes Site PlaceId PlaceId where
  opens site := {place | ∃ ty source, site.instruction = .acquireResource place ty source}
  closes site := {place | site.instruction = .releaseResource place}
  nameOf place := place
  needs site := {place | site.instruction = .releaseResource place}

/-- Tasks with their groups: opened by a spawn, closed by name or with the group. -/
def taskLifetimes : Lifetimes Site (TaskId × TaskGroupId) TaskId where
  opens site := {entry | ∃ target arguments,
    site.instruction = .spawn entry.1 entry.2 target arguments}
  closes site := {entry | entry.1 ∈ site.instruction.namedTasks ∨ site.instruction = .join entry.2}
  nameOf entry := entry.1
  needs site := {task | task ∈ site.instruction.namedTasks}

/-- A path that returns has balanced lifetimes. -/
structure BalancedLifetimes (trace : List Site) : Prop where
  /-- A release is of a resource acquired on the path and not released since. -/
  releases : resourceLifetimes.NeedsMet trace
  /-- `Await`, `Cancel` and `Select` name tasks spawned on the path that were not
  awaited, cancelled, selected or joined since. -/
  consumes : taskLifetimes.NeedsMet trace
  resourcesClosed : resourceLifetimes.live trace = ∅
  tasksClosed : taskLifetimes.live trace = ∅

def MirFunction.Returns (function : MirFunction) (point : Point) : Prop :=
  ∃ value, function.EndsWith point (.return value)

/-! ## No leaks -/

variable {fuel : Nat} {trace : List Site} {point : Point}

/-- The set has everything that is live on the path. -/
def TracksResources (trace : List Site) (live : Finset PlaceId) : Prop :=
  resourceLifetimes.live trace ⊆ ↑live

theorem TracksResources.step (h : TracksResources trace live)
    (hstep : resourceStep function site.instruction live = .ok after) :
    TracksResources (trace ++ [site]) after := by
  unfold TracksResources
  rw [Lifetimes.live_snoc]
  refine (resourceLifetimes.after_mono site h).trans ?_
  intro place hplace
  unfold resourceStep at hstep
  split at hstep
  · rename_i acquired ty source hinstruction
    obtain ⟨_, -, hafter⟩ := bind_eq_ok.mp hstep
    obtain rfl := pure_eq_ok.mp hafter
    rcases hplace with ⟨_, _, hopens⟩ | ⟨hlive, -⟩
    · obtain rfl : acquired = place := by
        rw [hinstruction] at hopens
        exact (MirInstruction.acquireResource.inj hopens).1
      exact Finset.mem_insert_self _ _
    · exact Finset.mem_insert_of_mem hlive
  · rename_i released hinstruction
    obtain ⟨_, -, hafter⟩ := bind_eq_ok.mp hstep
    obtain rfl := pure_eq_ok.mp hafter
    rcases hplace with ⟨_, _, hopens⟩ | ⟨hlive, hcloses⟩
    · rw [hinstruction] at hopens
      exact absurd hopens (by simp)
    · refine Finset.mem_erase.mpr ⟨?_, hlive⟩
      rintro rfl
      exact hcloses hinstruction
  · rename_i hacquire hrelease
    obtain rfl := pure_eq_ok.mp hstep
    rcases hplace with ⟨ty, source, hopens⟩ | ⟨hlive, -⟩
    · exact absurd hopens (hacquire _ _ _)
    · exact hlive

private theorem analyzed_resources (h : verifyResourceLifetimes fuel function = .ok ()) :
    ∃ entries, Analyzed function (fun _ => resourceStep function)
      (fun body live => checkResourceLeak function body.terminator live = .ok ()) entries
      TracksResources := by
  have hflow : (resourceProblem function).flow =
      blockFlow function (resourceStep function) (checkResourceLeak function) := rfl
  refine analyzed_of_solve hflow (lawfulJoin_of_joinSets rfl fun _ _ => rfl)
    (accounts_of_joinSets fun _ _ => rfl) ?_ ?_ TracksResources.step h
  · exact fun hle htracks => htracks.trans (coe_subset.mpr hle)
  · exact Set.empty_subset _

private theorem resources_closed (h : verifyResourceLifetimes fuel function = .ok ())
    (hpath : function.Path trace point) (hreturn : function.Returns point) :
    resourceLifetimes.live trace = ∅ := by
  obtain ⟨entries, hanalyzed⟩ := analyzed_resources h
  obtain ⟨value, body, hbody, hend, hterminator⟩ := hreturn
  obtain ⟨block, position⟩ := point
  obtain rfl : position = body.instructions.length := hend
  obtain ⟨live, htracks, hleave⟩ := hanalyzed.exit hpath hbody
  rw [hterminator] at hleave
  by_cases hlive : live.Nonempty
  · rw [checkResourceLeak, dif_pos hlive] at hleave
    exact absurd hleave throw_ne_ok
  · rw [not_nonempty_iff_eq_empty.mp hlive] at htracks
    exact Set.subset_empty_iff.mp (by simpa [TracksResources] using htracks)

attribute [local simp] MirInstruction.namedTasks

def TracksTasks (trace : List Site) (live : TaskSet) : Prop := taskLifetimes.live trace ⊆ ↑live

theorem closeTask_keeps (h : closeTask function live task = .ok after) (hentry : entry ∈ live)
    (hne : entry.1 ≠ task) : entry ∈ after := by
  obtain ⟨_, -, hafter⟩ := bind_eq_ok.mp h
  obtain rfl := pure_eq_ok.mp hafter
  exact Finset.mem_filter.mpr ⟨hentry, hne⟩

private theorem closeTasks_keeps {tasks : List TaskId}
    (h : tasks.foldlM (closeTask function) live = .ok after) (hentry : entry ∈ live)
    (hnot : entry.1 ∉ tasks) : entry ∈ after :=
  foldlM_induction (I := fun found => entry ∈ found) hentry
    (fun hmem hbefore hstep => closeTask_keeps hstep hbefore fun heq => hnot (heq ▸ hmem)) h

theorem TracksTasks.step {site : Site} (h : TracksTasks trace live)
    (hstep : taskStep function site.instruction live = .ok after) :
    TracksTasks (trace ++ [site]) after := by
  unfold TracksTasks
  rw [Lifetimes.live_snoc]
  refine (taskLifetimes.after_mono site h).trans ?_
  intro entry hentry
  have hspawn : site.instruction.namedTasks ≠ [] ∨ (∃ group, site.instruction = .join group) →
      entry ∈ live ∧ entry ∉ taskLifetimes.closes site := by
    intro hkind
    rcases hentry with ⟨_, _, hopens⟩ | hrest
    · rw [hopens] at hkind
      exact absurd hkind (by simp)
    · exact hrest
  unfold taskStep at hstep
  split at hstep
  · rename_i task group target arguments hinstruction
    obtain ⟨_, -, hafter⟩ := bind_eq_ok.mp hstep
    obtain rfl := pure_eq_ok.mp hafter
    rcases hentry with ⟨_, _, hopens⟩ | ⟨hlive, -⟩
    · rw [hinstruction] at hopens
      obtain ⟨rfl, rfl, -⟩ := MirInstruction.spawn.inj hopens
      exact Finset.mem_insert_self _ _
    · exact Finset.mem_insert_of_mem hlive
  · rename_i destination task hinstruction
    obtain ⟨hlive, hcloses⟩ := hspawn (by simp [hinstruction])
    refine closeTask_keeps hstep hlive fun heq => hcloses (.inl ?_)
    simp [hinstruction, heq]
  · rename_i task hinstruction
    obtain ⟨hlive, hcloses⟩ := hspawn (by simp [hinstruction])
    refine closeTask_keeps hstep hlive fun heq => hcloses (.inl ?_)
    simp [hinstruction, heq]
  · rename_i tasks winner value hinstruction
    rcases hentry with ⟨_, _, hopens⟩ | ⟨hlive, hcloses⟩
    · rw [hinstruction] at hopens
      exact absurd hopens (by simp)
    · refine closeTasks_keeps hstep hlive fun hmem => hcloses (.inl ?_)
      simpa [hinstruction] using hmem
  · rename_i group hinstruction
    obtain ⟨hlive, hcloses⟩ := hspawn (.inr ⟨group, hinstruction⟩)
    obtain rfl := pure_eq_ok.mp hstep
    refine Finset.mem_filter.mpr ⟨hlive, fun heq => hcloses (.inr ?_)⟩
    rw [heq]
    exact hinstruction
  · rename_i hspawn' _ _ _ _
    obtain rfl := pure_eq_ok.mp hstep
    rcases hentry with ⟨target, arguments, hopens⟩ | ⟨hlive, -⟩
    · exact absurd hopens (hspawn' _ _ _ _)
    · exact hlive

theorem joinTasks_eq_ok (h : joinTasks function existing fact = .ok result) :
    result = (existing ∪ fact, decide ¬fact ⊆ existing) := by
  unfold joinTasks at h
  split at h
  · exact absurd h throw_ne_ok
  · exact (pure_eq_ok.mp h).symm

private theorem taskProblem_lawful : LawfulJoin (taskProblem function) where
  bottom fact := by
    have hnone : ¬(mismatchedTasks ∅ fact).Nonempty := by simp [mismatchedTasks]
    refine ⟨decide ¬fact ⊆ ∅, ?_⟩
    change joinTasks function ∅ fact = _
    rw [joinTasks, dif_neg hnone, empty_union]
    rfl
  unchanged {existing fact entry} h := by
    obtain ⟨rfl, hsub⟩ := Prod.mk.inj (joinTasks_eq_ok h)
    exact union_eq_left.mpr (by simpa using hsub.symm)

private theorem taskProblem_accounts :
    Accounts (taskProblem function).toProblem fun current fact => fact ⊆ current where
  refl _ := Subset.refl _
  trans hab hbc := hbc.trans hab
  same {target existing fact} h := by
    obtain ⟨result, hjoin, hsame⟩ := bind_eq_ok.mp h
    obtain rfl := joinTasks_eq_ok hjoin
    by_contra hsub
    simp [hsub] at hsame
  changed {target existing fact replacement} h := by
    obtain ⟨result, hjoin, hchanged⟩ := bind_eq_ok.mp h
    obtain rfl := joinTasks_eq_ok hjoin
    obtain rfl : existing ∪ fact = replacement :=
      Option.some.inj (Option.ite_none_right_eq_some.mp (pure_eq_ok.mp hchanged)).2
    exact ⟨subset_union_left, subset_union_right⟩

private theorem analyzed_tasks (h : (taskProblem function).solve fuel = .ok ()) :
    ∃ entries, Analyzed function (fun _ => taskStep function)
      (fun body live => checkTaskLeak function body.terminator live = .ok ()) entries
      TracksTasks := by
  have hflow : (taskProblem function).flow =
      blockFlow function (taskStep function) (checkTaskLeak function) := rfl
  refine analyzed_of_solve hflow taskProblem_lawful taskProblem_accounts ?_ ?_ TracksTasks.step h
  · exact fun hle htracks => htracks.trans (coe_subset.mpr hle)
  · exact Set.empty_subset _

private theorem tasks_closed (h : (taskProblem function).solve fuel = .ok ())
    (hpath : function.Path trace point) (hreturn : function.Returns point) :
    taskLifetimes.live trace = ∅ := by
  obtain ⟨entries, hanalyzed⟩ := analyzed_tasks h
  obtain ⟨value, body, hbody, hend, hterminator⟩ := hreturn
  obtain ⟨block, position⟩ := point
  obtain rfl : position = body.instructions.length := hend
  obtain ⟨live, htracks, hleave⟩ := hanalyzed.exit hpath hbody
  rw [hterminator] at hleave
  by_cases hlive : live.ids.Nonempty
  · rw [checkTaskLeak, dif_pos hlive] at hleave
    exact absurd hleave throw_ne_ok
  · have hempty : live = ∅ := image_eq_empty.mp (not_nonempty_iff_eq_empty.mp hlive)
    rw [hempty] at htracks
    exact Set.subset_empty_iff.mp (by simpa [TracksTasks] using htracks)

/-! ## One group per task -/

section Groups

variable {function : MirFunction}

def MirInstruction.spawnedTasks : MirInstruction → List TaskId
  | spawn task _ _ _ => [task]
  | _ => []

attribute [local simp] MirInstruction.spawnedTasks

private theorem introduces_recordSpawn (h : recordSpawn functionId sites instruction = .ok after) :
    Introduces sites instruction.spawnedTasks after := by
  unfold recordSpawn at h
  split at h
  · obtain ⟨_, hfresh, hafter⟩ := bind_eq_ok.mp h
    obtain rfl := pure_eq_ok.mp hafter
    exact ⟨List.nodup_singleton _, by simpa using hfresh,
      by simp⟩
  · rename_i hspawn
    obtain rfl := pure_eq_ok.mp h
    have hnone : instruction.spawnedTasks = [] := by
      unfold MirInstruction.spawnedTasks
      split
      · exact absurd rfl (hspawn _ _ _ _)
      · rfl
    rw [hnone]
    exact .nil _

/-- A live task was spawned, with its group, by an instruction of the path. -/
theorem exists_spawn_of_live (h : entry ∈ taskLifetimes.live trace) :
    ∃ site ∈ trace, ∃ target arguments,
      site.instruction = .spawn entry.1 entry.2 target arguments := by
  induction trace using List.reverseRecOn with
  | nil => exact absurd h (by simp)
  | append_singleton trace site ih =>
    rw [Lifetimes.live_snoc] at h
    rcases h with ⟨target, arguments, hspawn⟩ | ⟨hlive, -⟩
    · exact ⟨site, by simp, target, arguments, hspawn⟩
    · obtain ⟨found, hfound, hspawn⟩ := ih hlive
      exact ⟨found, List.mem_append_left _ hfound, hspawn⟩

theorem mem_instructions_of_path (hpath : function.Path trace point) (hsite : site ∈ trace) :
    site.instruction ∈ function.instructions := by
  obtain ⟨body, hbody, hat⟩ := Option.bind_eq_some_iff.mp (instructionAt_of_path hpath hsite)
  exact List.mem_flatMap.mpr ⟨body, List.mem_of_getElem? hbody, List.mem_of_getElem? hat⟩

/-- A task has one spawn site, so it is live in one group only, on any path. -/
theorem taskNames_distinct (h : verifySpawnSites function = .ok sites) :
    taskLifetimes.NamesDistinct function.graph := by
  intro trace trace' point point' entry entry' hpath hpath' hlive hlive' hname
  have hnodup : (function.instructions.flatMap spawnedTasks).Nodup :=
    (Introduces.foldlM (fun sites => sites) h introduces_recordSpawn).nodup
  obtain ⟨site, hsite, target, arguments, hspawn⟩ := exists_spawn_of_live hlive
  obtain ⟨site', hsite', target', arguments', hspawn'⟩ := exists_spawn_of_live hlive'
  obtain ⟨i, hi⟩ := List.getElem?_of_mem (mem_instructions_of_path hpath hsite)
  obtain ⟨j, hj⟩ := List.getElem?_of_mem (mem_instructions_of_path hpath' hsite')
  have hname : entry.1 = entry'.1 := hname
  have hmem : entry.1 ∈ site.instruction.spawnedTasks := by simp [hspawn]
  have hmem' : entry.1 ∈ site'.instruction.spawnedTasks := by simp [hspawn', hname]
  obtain rfl : i = j := eq_of_mem_flatMap_nodup hnodup hi hj hmem hmem'
  have hsame := Option.some.inj (hi.symm.trans hj)
  rw [hspawn, hspawn'] at hsame
  obtain ⟨htask, hgroup, -⟩ := spawn.inj hsame
  exact Prod.ext htask hgroup

end Groups

/-! ## Balanced paths -/

/-- In an accepted function nothing is live at a return. Beyond that, the paths to
a return are balanced exactly when each point on such a path has resources and
tasks that are live whichever way the point is reached, among them those an
instruction there releases or consumes: when the checks would also pass with
predecessors joined by intersection. -/
theorem MirModule.verify_lifetimes_iff {fuel : Nat} {builtins : BuiltinId → Option String}
    {module : MirModule} (h : module.verify fuel builtins = .ok ()) {function : MirFunction}
    (hfunction : function ∈ module.functions) :
    (∀ trace point, function.Path trace point → function.Returns point → BalancedLifetimes trace) ↔
    (∃ owned, resourceLifetimes.Invariant function.graph function.Returns owned) ∧
      ∃ running, taskLifetimes.Invariant function.graph function.Returns running := by
  have haccepted := functionAccepted_of_verify h hfunction
  obtain ⟨sites, hsites, hsolve⟩ := bind_eq_ok.mp haccepted.tasks
  have hplaces : resourceLifetimes.NamesDistinct function.graph := fun _ _ _ _ hname => hname
  rw [← Lifetimes.needsMet_iff hplaces, ← Lifetimes.needsMet_iff (taskNames_distinct hsites)]
  constructor
  · intro hbalanced
    exact ⟨fun trace point hpath hreturn => (hbalanced trace point hpath hreturn).releases,
      fun trace point hpath hreturn => (hbalanced trace point hpath hreturn).consumes⟩
  · rintro ⟨hreleases, hconsumes⟩ trace point hpath hreturn
    exact ⟨hreleases trace point hpath hreturn, hconsumes trace point hpath hreturn,
      resources_closed haccepted.resources hpath hreturn, tasks_closed hsolve hpath hreturn⟩

/-- Acquires and spawns on one branch only, and releases and awaits after the join. -/
def oneSided : MirFunction where
  id := 0
  signature := ⟨[], [], 0, true⟩
  captures := []
  placeCount := 1
  valueCount := 3
  blocks := [
    ⟨0, [.loadLiteral 0 (.bool true)], .branch 0 1 2⟩,
    ⟨1, [.loadLiteral 1 .unit, .acquireResource 0 1 1, .spawn 0 0 0 []], .jump 3⟩,
    ⟨2, [], .jump 3⟩,
    ⟨3, [.releaseResource 0, .await 2 0], .return none⟩]

def oneSidedModule : MirModule where
  types := [.unit, .resource "File"]
  typeLayouts := []
  variantLayouts := []
  functions := [oneSided]
  functionDebug := [⟨"one_sided", [], none, []⟩]
  externalImports := []

theorem oneSidedModule_accepted : oneSidedModule.verify 9 (fun _ => none) = .ok () := by
  decide +kernel

/-- The path through the branch that acquires nothing. -/
theorem oneSided_path : oneSided.Path
    [⟨0, 0, .loadLiteral 0 (.bool true)⟩, ⟨3, 0, .releaseResource 0⟩, ⟨3, 1, .await 2 0⟩] (3, 2) := by
  have hbranch : oneSided.Path _ (2, 0) := path_edge .entry rfl (by simp [successors])
  have hjoin : oneSided.Path _ (3, 0) := path_edge hbranch rfl List.mem_cons_self
  exact path_block hjoin rfl

/-- On the other branch the release and the await find nothing. -/
theorem MirModule.verify_lifetimes_oneSided :
    oneSidedModule.verify 9 (fun _ => none) = .ok () ∧ oneSided ∈ oneSidedModule.functions ∧
    ∃ trace point, oneSided.Path trace point ∧ oneSided.Returns point ∧
      ¬resourceLifetimes.NeedsMet trace ∧ ¬taskLifetimes.NeedsMet trace := by
  refine ⟨oneSidedModule_accepted, List.mem_cons_self, _, _, oneSided_path,
    ⟨none, _, rfl, rfl, rfl⟩, fun hmet => ?_, fun hmet => ?_⟩
  · obtain ⟨place, hlive, -⟩ := hmet [_] ⟨3, 0, .releaseResource 0⟩ [_] rfl (show 0 ∈ _ from rfl)
    simp [resourceLifetimes, Lifetimes.live, Lifetimes.after] at hlive
  · obtain ⟨task, hlive, -⟩ := hmet [_, _] ⟨3, 1, .await 2 0⟩ [] rfl
      (show 0 ∈ _ from List.mem_singleton.mpr rfl)
    simp [taskLifetimes, Lifetimes.live, Lifetimes.after] at hlive

theorem MirModule.verify_lifetimes_iff_oneSided :
    oneSidedModule.verify 9 (fun _ => none) = .ok () ∧ oneSided ∈ oneSidedModule.functions ∧
    ((∀ trace point, oneSided.Path trace point → oneSided.Returns point → BalancedLifetimes trace) ↔
    (∃ owned, resourceLifetimes.Invariant oneSided.graph oneSided.Returns owned) ∧
      ∃ running, taskLifetimes.Invariant oneSided.graph oneSided.Returns running) :=
  ⟨oneSidedModule_accepted, List.mem_cons_self,
    MirModule.verify_lifetimes_iff oneSidedModule_accepted List.mem_cons_self⟩

end RSScript.Mir
