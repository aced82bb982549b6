import RSScript.Vm.Handles
import RSScript.Vm.Wakeups

/-!
# Passes of the scheduler

A pass finds the tasks it can wake and then resolves waits one after the
other, while each resolution may take other tasks out of the table. With every
handle used at most once a resolution takes away nothing that another one of the
pass needs, unless it cancels a task the pass has yet to wake.

That a parked task is woken in the end is not claimed.
-/

namespace RSScript.Vm

open Program List

variable {V H K : Type}

/-- The tasks of the current pass that are still to be woken. -/
def Phase.woken : Phase V → List Nat
  | .resolving tasks _ => tasks
  | .completing completion tasks _ => completion.task :: tasks
  | _ => []

/-- What resolving a wait needs of the table, in a pass that wakes `woken`. -/
def Machine.Resolvable (vm : Machine V) (woken : List Nat) : Wait V → Prop
  | .channel _ => True
  | .join task => (vm.doneValue task).isSome
  | .joinAll tasks => ∀ task ∈ tasks, task ∉ woken
  | .select handles _ _ => ∃ handle ∈ handles, (vm.doneValue handle).isSome

/-- The task table of a run, with the handles `used` so far. -/
structure Machine.Tidy (vm : Machine V) (inner : List (Op V K)) (used : List Nat) : Prop where
  sorted : SortedMap.Sorted vm.tasks
  fresh : ∀ tid slot, vm.slot tid = some slot → tid < vm.nextTaskId
  held : ∀ handle, vm.handles.count handle + (handlesOf inner).count handle ≤ used.count handle

/-- What a pass relies on until its last task is woken. -/
structure Machine.Waking (vm : Machine V) (inner : List (Op V K)) (phase : Phase V) : Prop where
  nodup : phase.woken.Nodup
  pending : ∀ tid ∈ phase.pending, ∃ slot wait, vm.slot tid = some slot ∧ slot.done = none ∧
    slot.wait = some wait ∧ vm.Resolvable phase.woken wait
  completing : ∀ completion, phase.completion = some completion →
    ∃ slot, vm.slot completion.task = some slot ∧ slot.done = none ∧ slot.saved.isSome
  joins : ∀ tid ∈ joinsOf inner, tid ∉ phase.woken

variable {completion : Completion V} {slot : TaskSlot V} {op : Op V K}

section Waking

variable {vm vm' : Machine V} {inner : List (Op V K)} {phase : Phase V} {wait : Wait V}

theorem Machine.Tidy.mono (h : vm.Tidy inner used) (uses : List Nat) :
    vm.Tidy inner (used ++ uses) :=
  ⟨h.sorted, h.fresh, fun handle => (h.held handle).trans (by simp)⟩

theorem Machine.Tidy.nodup (h : vm.Tidy inner used) (hused : used.Nodup) :
    (vm.handles ++ handlesOf inner).Nodup := by
  rw [nodup_iff_count_le_one] at hused ⊢
  intro handle
  rw [count_append]
  exact (h.held handle).trans (hused handle)

theorem Phase.pending_woken (h : tid ∈ phase.pending) : tid ∈ phase.woken := by
  cases phase with
  | resolving tasks loop => exact h
  | completing completion tasks loop => exact mem_cons_of_mem _ h
  | _ => cases h

theorem Phase.completion_woken (h : phase.completion = some completion) :
    completion.task ∈ phase.woken := by
  cases phase with
  | completing other tasks loop =>
    obtain rfl := Option.some.inj h
    exact mem_cons_self
  | _ => cases h

/-- A phase in which no pass is going on. -/
theorem Machine.waking_of_nil (hwoken : phase.woken = []) : vm.Waking inner phase where
  nodup := by
    rw [hwoken]
    exact nodup_nil
  pending tid htid := by
    have hmem := phase.pending_woken htid
    rw [hwoken] at hmem
    cases hmem
  completing completion hcompletion := by
    have hmem := phase.completion_woken hcompletion
    rw [hwoken] at hmem
    cases hmem
  joins tid _ := by
    rw [hwoken]
    exact not_mem_nil

theorem Machine.Resolvable.mono (h : vm.Resolvable woken wait)
    (hwoken : ∀ tid ∈ woken', tid ∈ woken)
    (hdone : ∀ handle ∈ wait.handles,
      (vm.doneValue handle).isSome → (vm'.doneValue handle).isSome) :
    vm'.Resolvable woken' wait := by
  cases wait with
  | channel => trivial
  | join task => exact hdone task mem_cons_self h
  | joinAll tasks => exact fun task htask hmem => h task htask (hwoken task hmem)
  | select handles =>
    obtain ⟨handle, hhandle, hsome⟩ := h
    exact ⟨handle, hhandle, hdone handle hhandle hsome⟩

theorem Phase.woken_eq_pending (h : phase.completion = none) : phase.woken = phase.pending := by
  cases phase with
  | completing => cases h
  | _ => rfl

theorem Phase.pending_sublist (phase : Phase V) : phase.pending.Sublist phase.woken := by
  cases phase with
  | completing => exact sublist_cons_self _ _
  | _ => exact Sublist.refl _

theorem Fewer.handles (h : Fewer inner inner') : (handlesOf inner').Sublist (handlesOf inner) := by
  obtain ⟨first, rest, rfl, hsuffix, hplain⟩ := h
  rw [handlesOf_append, hplain.handles]
  exact hsuffix.sublist.flatMap _

theorem Fewer.joins (h : Fewer inner inner') : (joinsOf inner').Sublist (joinsOf inner) := by
  obtain ⟨first, rest, rfl, hsuffix, hplain⟩ := h
  rw [joinsOf_append, hplain.joins]
  exact hsuffix.sublist.flatMap _

theorem Machine.slot_of_done (h : (vm.doneValue tid).isSome) :
    ∃ slot, vm.slot tid = some slot ∧ slot.done.isSome := by
  rcases hslot : vm.slot tid with _ | slot
  · simp [doneValue, hslot] at h
  · exact ⟨slot, rfl, by simpa [doneValue, hslot] using h⟩

theorem TaskSlot.handles_of_wait (h : slot.wait = some wait) : slot.handles = wait.handles := by
  rw [TaskSlot.handles, h]
  rfl

theorem Phase.woken_cases (h : tid ∈ phase.woken) : tid ∈ phase.pending ∨
    ∃ completion, phase.completion = some completion ∧ completion.task = tid := by
  cases phase with
  | completing completion tasks loop =>
    rcases mem_cons.mp h with rfl | htid
    · exact .inr ⟨completion, rfl, rfl⟩
    · exact .inl htid
  | _ => exact .inl h

/-- The tasks of a pass are not finished. -/
theorem Machine.Waking.running (h : vm.Waking inner phase) (htid : tid ∈ phase.woken) :
    ∃ slot, vm.slot tid = some slot ∧ slot.done = none := by
  rcases Phase.woken_cases htid with hpending | ⟨completion, hcompletion, rfl⟩
  · obtain ⟨slot, wait, hslot, hdone, -⟩ := h.pending tid hpending
    exact ⟨slot, hslot, hdone⟩
  · obtain ⟨slot, hslot, hdone, -⟩ := h.completing completion hcompletion
    exact ⟨slot, hslot, hdone⟩

/-- What is left of a pass can go on if its tasks stay in the table, and with them the finished
tasks they wait for. -/
theorem Machine.Waking.transfer (h : vm.Waking inner phase) (hnodup : phase'.woken.Nodup)
    (hwoken : ∀ tid ∈ phase'.woken, tid ∈ phase.woken)
    (hpending : ∀ tid ∈ phase'.pending, tid ∈ phase.pending)
    (hslots : ∀ tid slot, tid ∈ phase'.pending → vm.slot tid = some slot → slot.done = none →
      vm'.slot tid = some slot)
    (hdone : ∀ tid slot, tid ∈ phase'.pending → vm.slot tid = some slot →
      ∀ handle ∈ slot.handles, (vm.doneValue handle).isSome → (vm'.doneValue handle).isSome)
    (hcompleting : ∀ completion, phase'.completion = some completion →
      ∃ slot, vm'.slot completion.task = some slot ∧ slot.done = none ∧ slot.saved.isSome)
    (hjoins : ∀ tid ∈ joinsOf inner', tid ∉ phase'.woken) : vm'.Waking inner' phase' where
  nodup := hnodup
  pending tid htid := by
    obtain ⟨slot, wait, hfound, hrunning, hwait, hresolvable⟩ := h.pending tid (hpending tid htid)
    refine ⟨slot, wait, hslots tid slot htid hfound hrunning, hrunning, hwait, ?_⟩
    refine hresolvable.mono hwoken fun handle hhandle => hdone tid slot htid hfound handle ?_
    rwa [TaskSlot.handles_of_wait hwait]
  completing := hcompleting
  joins := hjoins

/-- Nothing happens to the table. -/
theorem Machine.Waking.still (h : vm.Waking inner phase) (htasks : vm'.tasks = vm.tasks)
    (hfewer : Fewer inner inner') (hleads : phase.Leads phase') : vm'.Waking inner' phase' := by
  have hslot (tid : Nat) : vm'.slot tid = vm.slot tid := by rw [Machine.slot, htasks, Machine.slot]
  have hdone (tid : Nat) : vm'.doneValue tid = vm.doneValue tid := by
    rw [Machine.doneValue, hslot, Machine.doneValue]
  have hslots (tid : Nat) (slot : TaskSlot V) (hfound : vm.slot tid = some slot) :
      vm'.slot tid = some slot := by rwa [hslot]
  rcases hleads with rfl | ⟨hnone, hpending⟩
  · refine h.transfer h.nodup (fun _ => id) (fun _ => id) (fun tid slot _ hfound _ => hslots tid slot hfound)
      (fun _ _ _ _ handle _ hsome => by rwa [hdone]) (fun completion hcompletion => ?_)
      fun tid htid => h.joins tid (hfewer.joins.subset htid)
    obtain ⟨slot, hfound, hrest⟩ := h.completing completion hcompletion
    exact ⟨slot, hslots _ slot hfound, hrest⟩
  · have hwoken : phase'.woken = phase'.pending := Phase.woken_eq_pending hnone
    rcases hpending with hnil | hsame
    · exact waking_of_nil (hwoken.trans hnil)
    · rw [hsame] at hwoken
      have hsub : ∀ tid ∈ phase'.woken, tid ∈ phase.woken := fun tid htid =>
        phase.pending_sublist.subset (hwoken ▸ htid)
      refine h.transfer ?_ hsub (fun tid htid => hsame ▸ htid)
        (fun tid slot _ hfound _ => hslots tid slot hfound)
        (fun _ _ _ _ handle _ hsome => by rwa [hdone]) (fun completion hcompletion => ?_)
        fun tid htid hmem => h.joins tid (hfewer.joins.subset htid) (hsub tid hmem)
      · rw [hwoken]
        exact h.nodup.sublist phase.pending_sublist
      · rw [hnone] at hcompletion
        cases hcompletion

/-- An inner operation takes a task away by a handle no one else holds, and not one of the pass
unless it cancels it. -/
theorem Machine.Waking.accounts {uses cancels : List Nat} (h : vm.Waking (op :: inner) phase)
    (htidy : vm.Tidy (op :: inner) used) (haccounts : Accounts uses cancels op vm vm' ops)
    (hused : (used ++ uses).Nodup) (hspares : ∀ tid ∈ cancels, tid ∉ phase.woken) :
    vm'.Waking (ops ++ inner) phase := by
  have hkept (tid : Nat) (slot : TaskSlot V) (hwoken : tid ∈ phase.woken)
      (hfound : vm.slot tid = some slot) (hrunning : slot.done = none) : vm'.slot tid = some slot := by
    rcases haccounts.kept tid slot (htidy.fresh tid slot hfound) hfound with
      hslot | ⟨-, hcancel | hjoin | hdone⟩
    · exact hslot
    · exact absurd hwoken (hspares tid hcancel)
    · exact absurd hwoken (h.joins tid (by simp [hjoin]))
    · simp [hrunning] at hdone
  refine h.transfer h.nodup (fun _ => id) (fun _ => id)
    (fun tid slot htid => hkept tid slot (phase.pending_woken htid)) ?_ ?_ ?_
  · intro tid slot htid hfound handle hhandle hsome
    obtain ⟨finished, hslot, hdone⟩ := Machine.slot_of_done hsome
    rcases haccounts.kept handle finished (htidy.fresh _ _ hslot) hslot with hkept | ⟨hheld, -⟩
    · simpa [Machine.doneValue, hkept] using hdone
    · -- The handle would be used or held twice.
      have hparked : 0 < vm.handles.count handle :=
        count_pos_iff.mpr (Machine.mem_handles hfound hhandle)
      have htwice : 0 < op.handles.count handle + uses.count handle := by
        rcases hheld with hop | huses
        · exact Nat.add_pos_left (count_pos_iff.mpr hop) _
        · exact Nat.add_pos_right _ (count_pos_iff.mpr huses)
      have honce := nodup_iff_count_le_one.mp hused handle
      have hbound := htidy.held handle
      rw [count_append] at honce
      rw [handlesOf_cons, count_append] at hbound
      omega
  · intro completion hcompletion
    obtain ⟨slot, hfound, hrunning, hsaved⟩ := h.completing completion hcompletion
    exact ⟨slot, hkept _ slot (phase.completion_woken hcompletion) hfound hrunning, hrunning, hsaved⟩
  · intro tid htid hmem
    rw [joinsOf_append, mem_append] at htid
    rcases htid with hops | hinner
    · rcases haccounts.joined tid hops with hjoin | hsettled
      · exact h.joins tid (by simp [hjoin]) hmem
      · obtain ⟨slot, hfound, hrunning⟩ := h.running hmem
        simp [Machine.settled, hfound, hrunning] at hsettled
    · exact h.joins tid (by simp [hinner]) hmem

/-! ## The table -/

theorem Machine.Tidy.evolve {uses cancels : List Nat} (h : vm.Tidy (op :: inner) used)
    (haccounts : Accounts uses cancels op vm vm' ops) (hevolves : Evolves vm vm') :
    vm'.Tidy (ops ++ inner) (used ++ uses) where
  sorted := hevolves.sorted h.sorted
  fresh tid slot hslot := by
    rcases hevolves.slots tid slot hslot with hbefore | ⟨⟨-, hnew⟩, -⟩
    · exact (h.fresh tid slot hbefore).trans_le hevolves.nextTaskId
    · exact hnew
  held handle := by
    have hbefore := h.held handle
    have hstep := haccounts.held handle
    simp only [handlesOf_cons, handlesOf_append, count_append] at *
    omega

theorem Machine.Tidy.still (h : vm.Tidy inner used) (htasks : vm'.tasks = vm.tasks)
    (hnext : vm'.nextTaskId = vm.nextTaskId) (hsuspension : vm'.suspension = vm.suspension)
    (hfewer : Fewer inner inner') : vm'.Tidy inner' used where
  sorted := htasks ▸ h.sorted
  fresh tid slot hslot := by
    rw [Machine.slot, htasks] at hslot
    exact hnext ▸ h.fresh tid slot hslot
  held handle := by
    rw [handles_congr htasks (by rw [hsuspension])]
    exact (Nat.add_le_add_left (hfewer.handles.count_le handle) _).trans (h.held handle)

/-- One slot is replaced. -/
theorem Machine.Tidy.insert (h : vm.Tidy inner used) (hslot : vm.slot tid = some slot)
    (slot' : TaskSlot V) (htasks : vm'.tasks = SortedMap.insert tid slot' vm.tasks)
    (hnext : vm'.nextTaskId = vm.nextTaskId)
    (hheld : ∀ handle, vm'.suspendedHandles.count handle + slot'.handles.count handle + (handlesOf
      inner').count handle ≤ vm.suspendedHandles.count handle + slot.handles.count handle +
      (handlesOf inner).count handle) : vm'.Tidy inner' used where
  sorted := htasks ▸ SortedMap.insert_sorted h.sorted
  fresh other found hfound := by
    rw [hnext]
    rw [Machine.slot, htasks, SortedMap.get_insert] at hfound
    split at hfound
    · rename_i heq
      exact heq ▸ h.fresh tid slot hslot
    · exact h.fresh other found hfound
  held handle := by
    have hbefore := h.held handle
    have hcount := Machine.count_insert h.sorted hslot slot' htasks handle
    have hstep := hheld handle
    simp only [Machine.handles, List.count_append] at *
    omega

theorem Machine.Tidy.remove (h : vm.Tidy inner used)
    (htasks : vm'.tasks = vm.tasks.filter fun entry => entry.1 ≠ task)
    (hnext : vm'.nextTaskId = vm.nextTaskId) (hsuspension : vm'.suspension = vm.suspension) :
    vm'.Tidy inner used where
  sorted := htasks ▸ List.Pairwise.filter _ h.sorted
  fresh tid slot hslot := by
    rw [hnext]
    rw [Machine.slot, htasks, SortedMap.get_filter_ne] at hslot
    split at hslot
    · cases hslot
    · exact h.fresh tid slot hslot
  held handle := by
    have hbefore := h.held handle
    have hcount := Machine.count_remove htasks handle
    simp only [Machine.handles, Machine.suspendedHandles, hsuspension, List.count_append] at *
    omega

end Waking

/-! ## Resolutions -/

/-- What resolving the wait of a task does to the table: it passes the handles on, or reaps the
joined task. -/
inductive Resolution (vm vm' : Machine V) (tid : Nat) (slot : TaskSlot V) (ops : List (Op V K)) :
    Wait V → Prop where
  | kept {wait : Wait V} (tasks : vm'.tasks = (vm.unwait tid slot).tasks)
      (handles : ∀ handle, (handlesOf ops).count handle ≤ wait.handles.count handle)
      (joins : ∀ task ∈ joinsOf ops, ∃ tasks, wait = .joinAll tasks ∧ task ∈ tasks) :
      Resolution vm vm' tid slot ops wait
  | reaped {task : Nat} (done : ((vm.unwait tid slot).doneValue task).isSome)
      (tasks : vm'.tasks = (vm.unwait tid slot).tasks.filter fun entry => entry.1 ≠ task)
      (plain : AllPlain ops) : Resolution vm vm' tid slot ops (.join task)

section Resolve

variable {vm vm' : Machine V} {ops : List (Op V K)}

theorem resolveWait_returned (hslot : vm.slot tid = some slot) (hwait : slot.wait = some wait)
    (hrun : (resolveWait env tid).runOn (answer host) vm world =
      .ok (.ok (ops ++ [completion.op]), vm', world')) :
    completion.task = tid ∧ vm'.nextTaskId = vm.nextTaskId ∧ vm'.suspension = vm.suspension ∧
      Resolution vm vm' tid slot ops wait := by
  -- Every kind of wait ends with a completion of the same task.
  have hends (first : List (Op V K)) (last : Completion V)
      (heq : first ++ [last.op] = ops ++ [completion.op]) : first = ops ∧ last = completion := by
    obtain ⟨hfirst, hlast⟩ := append_inj' heq rfl
    exact ⟨hfirst, Completion.op_injective (cons.inj hlast).1⟩
  cases wait with
  | channel blocked =>
    have hkept : ∃ value, [.completeWait tid value] = ops ++ [completion.op] ∧
        vm.unwait tid slot = vm' := by
      cases blocked with
      | recv channel =>
        rw [resolveWait_recv env host world hslot hwait] at hrun
        simp only [Except.ok.injEq, Prod.mk.injEq] at hrun
        exact ⟨_, hrun.1, hrun.2.1⟩
      | send sender value =>
        rw [resolveWait_send env host world hslot hwait] at hrun
        simp only [Except.ok.injEq, Prod.mk.injEq] at hrun
        exact ⟨_, hrun.1, hrun.2.1⟩
    obtain ⟨value, hops, rfl⟩ := hkept
    obtain ⟨rfl, rfl⟩ := hends [] (.wait tid value) hops
    exact ⟨rfl, rfl, rfl, .kept rfl (by simp) (by simp)⟩
  | join task =>
    rw [resolveWait_join env host world hslot hwait] at hrun
    rcases hdone : (vm.unwait tid slot).doneValue task with _ | value
    · simp [hdone] at hrun
    · simp only [hdone, Except.ok.injEq, Prod.mk.injEq] at hrun
      obtain ⟨hops, rfl, -⟩ := hrun
      obtain ⟨rfl, rfl⟩ := hends [.cleanup task none] (.wait tid value) hops
      exact ⟨rfl, rfl, rfl, .reaped (by rw [hdone]; rfl) rfl (by simp [Op.Plain])⟩
  | joinAll tasks =>
    rw [resolveWait_joinAll env host world hslot hwait] at hrun
    simp only [Except.ok.injEq, Prod.mk.injEq] at hrun
    obtain ⟨hops, rfl, -⟩ := hrun
    obtain ⟨rfl, rfl⟩ := hends [.joinAll tasks] (.wait tid env.unit) hops
    exact ⟨rfl, rfl, rfl, .kept rfl (by simp [Op.handles, Wait.handles]) (by simp [Op.joins])⟩
  | select handles winnerDst valueDst =>
    rw [resolveWait_select env host world hslot hwait] at hrun
    rcases hfirst : (vm.unwait tid slot).firstDone handles with _ | ⟨task, index⟩
    · simp [hfirst] at hrun
    rcases hdone : (vm.unwait tid slot).doneValue task with _ | value
    · simp [hfirst, hdone] at hrun
    · simp only [hfirst, hdone, Except.ok.injEq, Prod.mk.injEq] at hrun
      obtain ⟨hops, rfl, -⟩ := hrun
      obtain ⟨rfl, rfl⟩ := hends [.cancelLosers handles task]
        (.select tid winnerDst index valueDst value) hops
      exact ⟨rfl, rfl, rfl, .kept rfl (by simp [Op.handles, Wait.handles]) (by simp [Op.joins])⟩

theorem Machine.unwait_slot : (vm.unwait tid slot).slot other =
    if other = tid then some { slot with wait := none } else vm.slot other :=
  vm.slot_insert tid other { slot with wait := none }

theorem Machine.unwait_doneValue (hslot : vm.slot tid = some slot) :
    (vm.unwait tid slot).doneValue other = vm.doneValue other := by
  rw [doneValue, unwait_slot, doneValue]
  split
  · rename_i heq
    rw [heq, hslot]
    rfl
  · rfl

theorem Machine.Tidy.resolved (h : vm.Tidy ([] : List (Op V K)) used)
    (hslot : vm.slot tid = some slot) (hwait : slot.wait = some wait)
    (hnext : vm'.nextTaskId = vm.nextTaskId) (hsuspension : vm'.suspension = vm.suspension)
    (hresolution : Resolution vm vm' tid slot ops wait) : vm'.Tidy ops used := by
  have hhandles : slot.handles = wait.handles := TaskSlot.handles_of_wait hwait
  have hsuspended : vm'.suspendedHandles = vm.suspendedHandles := by
    rw [suspendedHandles, hsuspension, suspendedHandles]
  cases hresolution with
  | kept tasks handles =>
    refine h.insert hslot { slot with wait := none } tasks hnext fun handle => ?_
    have hpassed := handles handle
    simp only [TaskSlot.handles, Option.map_none, Option.getD_none, count_nil] at *
    simp only [hsuspended, hhandles, handlesOf_nil, count_nil]
    omega
  | @reaped task done tasks plain =>
    have hunwaited : (vm.unwait tid slot).Tidy ops used := by
      refine h.insert hslot { slot with wait := none } rfl rfl fun handle => ?_
      rw [plain.handles]
      simp [TaskSlot.handles, unwait, suspendedHandles]
    exact hunwaited.remove tasks hnext hsuspension

theorem Machine.Waking.resolved {used tasks : List Nat}
    (h : vm.Waking ([] : List (Op V K)) (.resolving (tid :: tasks) loop))
    (htidy : vm.Tidy ([] : List (Op V K)) used) (hused : used.Nodup)
    (hslot : vm.slot tid = some slot) (hwait : slot.wait = some wait) (hsaved : slot.saved.isSome)
    (htask : completion.task = tid) (hresolution : Resolution vm vm' tid slot ops wait) :
    vm'.Waking ops (.completing completion tasks loop) := by
  obtain ⟨_, _, hfound, hrunning, hwaits, hresolvable⟩ := h.pending tid List.mem_cons_self
  obtain rfl := Option.some.inj (hslot.symm.trans hfound)
  obtain rfl := Option.some.inj (hwait.symm.trans hwaits)
  have hnodup : (tid :: tasks).Nodup := h.nodup
  have hwoken : (Phase.completing completion tasks loop).woken = tid :: tasks := by
    rw [← htask]
    rfl
  have hne : ∀ other ∈ tasks, other ≠ tid := fun other hother heq =>
    (List.nodup_cons.mp hnodup).1 (heq ▸ hother)
  have hdisjoint : ∀ other slot', other ≠ tid → vm.slot other = some slot' →
      slot.handles.Disjoint slot'.handles := fun other slot' hother hslot' =>
    Machine.handles_disjoint htidy.sorted (List.nodup_append.mp (htidy.nodup hused)).1 hslot hslot' hother
  have hhandles : slot.handles = wait.handles := TaskSlot.handles_of_wait hwait
  have hafter (other : Nat) (slot' : TaskSlot V)
      (hother : (vm.unwait tid slot).slot other = some slot')
      (hkeep : slot'.done = none ∨ other ∉ wait.handles) : vm'.slot other = some slot' := by
    cases hresolution with
    | kept htasks => rwa [Machine.slot, htasks]
    | @reaped task hdone htasks =>
      rw [Machine.slot, htasks, SortedMap.get_filter_ne, if_neg]
      · exact hother
      · rintro rfl
        rcases hkeep with hnone | hmem
        · simp [Machine.doneValue, hother, hnone] at hdone
        · exact hmem List.mem_cons_self
  refine h.transfer (by rwa [hwoken]) (by rw [hwoken]; exact fun _ => id)
    (fun _ => List.mem_cons_of_mem _) ?_ ?_ ?_ ?_
  · intro other slot' hother hslot' hnone
    refine hafter other slot' ?_ (.inl hnone)
    rwa [Machine.unwait_slot, if_neg (hne other hother)]
  · intro other slot' hother hslot' handle hhandle hsome
    rw [← Machine.unwait_doneValue hslot] at hsome
    obtain ⟨finished, hfinished, hdone⟩ := Machine.slot_of_done hsome
    have hkept : handle ∉ wait.handles := fun hmem =>
      hdisjoint other slot' (hne other hother) hslot' (hhandles ▸ hmem) hhandle
    rw [Machine.doneValue, hafter handle finished hfinished (.inr hkept)]
    exact hdone
  · rintro _ ⟨⟩
    rw [htask]
    refine ⟨{ slot with wait := none }, hafter tid _ ?_ (.inl hrunning), hrunning, hsaved⟩
    rw [Machine.unwait_slot, if_pos rfl]
  · intro task hjoin
    rw [hwoken]
    cases hresolution with
    | kept _ _ joins =>
      obtain ⟨joined, rfl, hmem⟩ := joins task hjoin
      exact hresolvable task hmem
    | reaped _ _ plain =>
      rw [plain.joins] at hjoin
      cases hjoin

theorem Machine.Waking.completed {tasks : List Nat}
    (h : vm.Waking ([] : List (Op V K)) (.completing completion tasks loop))
    (hslot : vm.slot completion.task = some slot)
    (htasks : vm'.tasks =
      SortedMap.insert completion.task { slot with saved := some written } vm.tasks) :
    vm'.Waking ([] : List (Op V K)) (.resolving tasks loop) := by
  obtain ⟨hfresh, hnodup⟩ := List.nodup_cons.mp h.nodup
  have hafter (other : Nat) : vm'.slot other =
      if other = completion.task then some { slot with saved := some written } else vm.slot other := by
    rw [Machine.slot, htasks, SortedMap.get_insert]
    rfl
  refine h.transfer hnodup (fun _ => List.mem_cons_of_mem _) (fun _ => id) ?_ ?_ (by rintro _ ⟨⟩)
    (by rintro _ ⟨⟩)
  · intro tid slot' htid hslot' _
    rw [hafter, if_neg]
    · exact hslot'
    · rintro rfl
      exact hfresh htid
  · intro tid slot' htid hslot' handle _ hsome
    rw [Machine.doneValue, hafter]
    split
    · rename_i heq
      simpa [Machine.doneValue, heq, hslot] using hsome
    · exact hsome

end Resolve

/-! ## The start of a pass -/

variable {vm : Machine V}

attribute [local simp] perform Machine.canWake Completion.op

theorem mem_readyWaiters (h : tid ∈ vm.readyWaiters order table) :
    ∃ slot wait, vm.slot tid = some slot ∧
      slot.done = none ∧ slot.wait = some wait ∧ vm.waitReady table wait := by
  rw [Machine.readyWaiters, mem_insertionSort, mem_filter] at h
  have hwake := h.2
  rcases hslot : vm.slot tid with _ | slot
  · simp [hslot] at hwake
  rcases hwait : slot.wait with _ | wait
  · simp [hslot, hwait] at hwake
  obtain ⟨hdone, hready⟩ := (by simpa [hslot, hwait] using hwake)
  exact ⟨slot, wait, rfl, hdone, hwait, hready⟩

theorem readyWaiters_nodup (h : SortedMap.Sorted vm.tasks) :
    (vm.readyWaiters order table).Nodup := by
  rw [Machine.readyWaiters, (perm_insertionSort _ _).nodup_iff]
  refine Nodup.filter _ ?_
  rw [(order.perm _).nodup_iff]
  exact h.nodup_keys

theorem Machine.waking_ready (h : SortedMap.Sorted vm.tasks) :
    vm.Waking ([] : List (Op V K)) (.resolving (vm.readyWaiters order table) loop) where
  nodup := readyWaiters_nodup h
  pending tid htid := by
    obtain ⟨slot, wait, hslot, hdone, hwait, hready⟩ := mem_readyWaiters htid
    refine ⟨slot, wait, hslot, hdone, hwait, ?_⟩
    cases wait with
    | channel => trivial
    | join task => exact hready
    | joinAll tasks =>
      -- A task to be woken is in the table and not finished.
      intro task htask hwoken
      obtain ⟨other, -, hother, hrunning, -⟩ := mem_readyWaiters hwoken
      have hsettled := all_eq_true.mp hready task htask
      simp [Machine.settled, hother, hrunning] at hsettled
    | select handles => exact any_eq_true.mp hready
  completing := nofun
  joins := nofun

/-! ## Runs -/

/-- The tasks an operation of the scheduler is going to wake. -/
def Op.wakes : Op V K → List Nat
  | .resolveWaits tasks => tasks
  | .completeWait task _ | .completeSelect task _ _ _ _ => [task]
  | _ => []

/-- The tasks the agenda is going to wake. -/
def Config.woken (config : Config V H K) : List Nat := config.agenda.flatMap Op.wakes

/-- The next step cancels no task the scheduler is going to wake. -/
def Config.Spares (env : Environment V) (config : Config V H K) : Prop :=
  ∀ tid ∈ config.cancels env, tid ∉ config.woken

instance (env : Environment V) (config : Config V H K) : Decidable (config.Spares env) :=
  inferInstanceAs (Decidable (∀ tid ∈ config.cancels env, tid ∉ config.woken))

/-- The handles used in the first `n` steps. -/
def Config.used (env : Environment V) (unit : RegUnit) (host : Host V H K)
    (orders : Nat → HashOrder) (config : Config V H K) : Nat → List Nat
  | 0 => []
  | n + 1 => config.used env unit host orders n ++ (config.run env unit host orders n).uses env

/-- What holds between the steps of a run that has used the handles `used`. -/
structure Config.Orderly (config : Config V H K) (used : List Nat) : Prop where
  parked : Parked config.vm config.world.channels.table
  passes : ∃ inner phase, config.At inner phase ∧ config.vm.Tidy inner used ∧
    config.vm.Waking inner phase

section Steps

variable {host : Host V H K} {env : Environment V} {unit : RegUnit} {config next : Config V H K}
  {inner : List (Op V K)} {used : List Nat}

variable {tid : Nat} {vm : Machine V} {rest : List (Op V K)}

theorem Config.At.woken (hat : config.At inner phase) (h : tid ∈ phase.woken) :
    tid ∈ config.woken := by
  rw [Config.woken, hat.agenda, flatMap_append]
  refine mem_append_right _ ?_
  cases phase with
  | resolving tasks loop => exact mem_append_left _ h
  | completing completion tasks loop =>
    rcases mem_cons.mp h with rfl | htid
    · refine mem_append_left _ ?_
      cases completion <;> exact mem_cons_self
    · exact mem_append_right _ (mem_append_left _ htid)
  | _ => cases h

theorem Config.Orderly.moves (hat : config.At inner phase) (htidy : config.vm.Tidy inner used)
    (hwaking : config.vm.Waking inner phase)
    (hparked : Parked config.vm config.world.channels.table) (hspares : config.Spares env)
    (hused : (used ++ config.uses env).Nodup)
    (hmoves : config.Moves env unit order host next inner phase) :
    ∃ inner' phase', next.At inner' phase' ∧ next.vm.Tidy inner' (used ++ config.uses env) ∧
      next.vm.Waking inner' phase' := by
  have hbefore : used.Nodup := (nodup_append.mp hused).1
  have hafter := htidy.mono (config.uses env)
  cases hmoves with
  | idle at_next fewer leads still =>
    exact ⟨_, _, at_next, hafter.still still.tasks still.nextTaskId still.suspension fewer,
      hwaking.still still.tasks fewer leads⟩
  | inner at_next run =>
    have haccounts := hat.accounts htidy.sorted run
    have hevolves := (evolves_program (allInner_cons.mp hat.inner).1).keeps run
    exact ⟨_, _, at_next, htidy.evolve haccounts hevolves, hwaking.accounts htidy haccounts hused
      fun tid htid hmem => hspares tid htid (hat.woken hmem)⟩
  | @dispatched root tid slot saved at_next found _ _ queue vm world =>
    refine ⟨_, _, at_next, hafter.insert found { slot with saved := none } (by rw [vm]) (by rw [vm])
      fun handle => ?_, Machine.waking_of_nil rfl⟩
    rw [vm]
    rfl
  | @finished root tid slot value at_next found tasks nextTaskId suspension world =>
    refine ⟨_, _, at_next, hafter.insert found { slot with done := some value } tasks nextTaskId
      fun handle => ?_, Machine.waking_of_nil rfl⟩
    rw [Machine.suspendedHandles, suspension]
    rfl
  | @suspended root tid slot suspension at_next found waits vm world =>
    refine ⟨_, _, at_next, hafter.insert found _ (by rw [vm]) (by rw [vm]) fun handle => ?_,
      Machine.waking_of_nil rfl⟩
    rw [vm]
    simp [Machine.suspendedHandles, TaskSlot.handles, waits]
  | woken control at_next vm world =>
    refine ⟨_, _, at_next, hafter.still (by rw [vm]) (by rw [vm]) (by rw [vm]) (.refl _), ?_⟩
    rw [vm]
    exact Machine.waking_ready htidy.sorted
  | @resolved tid tasks loop slot wait ops completion control at_next found waits run =>
    obtain ⟨htask, hnext, hsuspension, hresolution⟩ := resolveWait_returned found waits run
    have hsaved : slot.saved.isSome := (hparked.slots tid slot found).saved (by rw [waits]; rfl)
    exact ⟨_, _, at_next, hafter.resolved found waits hnext hsuspension hresolution,
      hwaking.resolved htidy hbefore found waits hsaved htask hresolution⟩
  | @completed completion tasks loop slot saved written at_next found parked writes vm world =>
    refine ⟨_, _, at_next, hafter.insert found { slot with saved := some written } (by rw [vm])
      (by rw [vm]) fun handle => ?_, hwaking.completed found (by rw [vm])⟩
    rw [vm]
    rfl

theorem Config.Orderly.step (h : config.Orderly used) (hspares : config.Spares env)
    (hused : (used ++ config.uses env).Nodup) :
    (config.step env unit order host).Orderly (used ++ config.uses env) := by
  obtain ⟨hparked, inner, phase, hat, htidy, hwaking⟩ := h
  exact ⟨hparked.moves hat hat.moves, moves hat htidy hwaking hparked hspares hused hat.moves⟩

theorem Config.start_orderly : (Config.start env unit host state name args).Orderly [] := by
  have hprovided := start_provided env unit host state name args
  rcases start_cases env unit host state name args with ⟨control, hstart⟩ | ⟨func, values, hstart⟩
  · rw [hstart] at hprovided ⊢
    exact ⟨hprovided.1, [], .ended, ⟨rfl, allInner_nil⟩,
      ⟨List.Pairwise.nil, nofun, fun _ => Nat.le_refl 0⟩, Machine.waking_of_nil rfl⟩
  · rw [hstart] at hprovided ⊢
    refine ⟨hprovided.1, [], .looping (.schedule 0), ⟨rfl, allInner_nil⟩,
      ⟨List.pairwise_singleton _ _, fun tid slot hslot => ?_, fun _ => Nat.le_refl 0⟩,
      Machine.waking_of_nil rfl⟩
    obtain ⟨rfl, -⟩ := (by simpa [Machine.slot, Machine.initial, SortedMap.get] using hslot)
    exact Nat.one_pos

/-- The invariant of a run in which no handle is used twice and no step cancels a task the
scheduler is going to wake. -/
theorem Config.Orderly.run (h : config.Orderly []) (n : Nat)
    (hspares : ∀ m < n, (config.run env unit host orders m).Spares env)
    (hused : (config.used env unit host orders n).Nodup) :
    (config.run env unit host orders n).Orderly (config.used env unit host orders n) := by
  induction n with
  | zero => exact h
  | succ n ih =>
    have hbefore := ih (fun m hm => hspares m (hm.trans n.lt_succ_self)) (nodup_append.mp hused).1
    exact hbefore.step (hspares n n.lt_succ_self) hused

/-! ## The expectations of a pass -/

theorem Machine.firstDone_of_done {handles : List Nat} {handle : Nat} (hmem : handle ∈ handles)
    (hdone : (vm.doneValue handle).isSome) :
    ∃ task index value, vm.firstDone handles = some (task, index) ∧
      vm.doneValue task = some value := by
  rcases hfirst : vm.firstDone handles with _ | ⟨task, index⟩
  · obtain ⟨index, hindex⟩ := getElem?_of_mem hmem
    have hentry : (handle, index) ∈ handles.zipIdx := mem_zipIdx_iff_getElem?.mpr hindex
    exact absurd hdone (find?_eq_none.mp hfirst _ hentry)
  · have hsome : (vm.doneValue task).isSome := by simpa using find?_some hfirst
    obtain ⟨value, hvalue⟩ := Option.isSome_iff_exists.mp hsome
    exact ⟨task, index, value, rfl, hvalue⟩

/-- A wait whose needs are met is resolved. -/
theorem resolveWait_resolves (env : Environment V) (host : Host V H K) (world : World V H)
    (hslot : vm.slot tid = some slot) (hwait : slot.wait = some wait)
    (hresolvable : vm.Resolvable woken wait) :
    ∃ ops vm' world', (resolveWait env tid : VmM V K _).runOn (answer host) vm world =
      .ok (.ok ops, vm', world') := by
  cases wait with
  | channel blocked =>
    cases blocked with
    | recv channel => exact ⟨_, _, _, resolveWait_recv env host world hslot hwait⟩
    | send sender value => exact ⟨_, _, _, resolveWait_send env host world hslot hwait⟩
  | join task =>
    have hrun := resolveWait_join env host world hslot hwait (K := K)
    obtain ⟨value, hvalue⟩ := Option.isSome_iff_exists.mp hresolvable
    rw [Machine.unwait_doneValue hslot, hvalue] at hrun
    exact ⟨_, _, _, hrun⟩
  | joinAll tasks => exact ⟨_, _, _, resolveWait_joinAll env host world hslot hwait⟩
  | select handles winnerDst valueDst =>
    have hrun := resolveWait_select env host world hslot hwait (K := K)
    obtain ⟨handle, hmem, hdone⟩ := hresolvable
    rw [← Machine.unwait_doneValue hslot] at hdone
    obtain ⟨task, index, value, hfirst, hvalue⟩ := Machine.firstDone_of_done hmem hdone
    simp only [hfirst, hvalue] at hrun
    exact ⟨_, _, _, hrun⟩

/-- A completion finds the parked task; its other panic is a missing result register. -/
theorem complete_panics
    (hslot : vm.slot completion.task = some slot) (hsaved : slot.saved.isSome)
    (hrun : (perform env unit order completion.op : VmM V K _).runOn (answer host) vm world =
      .error cause) : cause = .registerIndex (2 ^ 64 - 1) := by
  obtain ⟨saved, hsaved⟩ := Option.isSome_iff_exists.mp hsaved
  cases completion with
  | wait tid value =>
    change vm.slot tid = some slot at hslot
    rcases hdst : slot.resumeDst with _ | dst
    · simpa [completeWait, hslot, hdst] using hrun.symm
    · simp [completeWait, hslot, hdst, runOn_completeWaitAt hslot hsaved] at hrun
  | select tid winnerDst index valueDst value =>
    change vm.slot tid = some slot at hslot
    have hslot' := vm.slot_insert tid tid
      { slot with saved := some (saved.write winnerDst (env.int index) env.unit) }
    rw [if_pos rfl] at hslot'
    simp [runOn_writeSavedReg hslot hsaved, runOn_completeWaitAt hslot' rfl] at hrun

/-- The operations `satisfy_waiters` consists of, up to the drop functions it runs. -/
def Op.OfWaiters : Op V K → Prop
  | .satisfyWaiters | .resolveWaits _ | .completeWait _ _ | .completeSelect _ _ _ _ _ | .joinAll _
  | .cancelLosers _ _ | .cleanup _ _ => True
  | _ => False

theorem Config.Orderly.resolvable (h : config.Orderly used)
    (hagenda : config.agenda = .resolveWaits (tid :: tasks) :: rest) :
    ∃ slot wait, config.vm.slot tid = some slot ∧ slot.wait = some wait ∧
      config.vm.Resolvable (tid :: tasks) wait := by
  obtain ⟨-, inner, phase, hat, -, hwaking⟩ := h
  obtain ⟨-, loop, rfl⟩ := hat.resolving hagenda
  obtain ⟨slot, wait, hslot, -, hwait, hresolvable⟩ := hwaking.pending tid List.mem_cons_self
  exact ⟨slot, wait, hslot, hwait, hresolvable⟩

theorem Config.Orderly.completes (h : config.Orderly used)
    (hagenda : config.agenda = completion.op :: rest) :
    ∃ slot, config.vm.slot completion.task = some slot ∧ slot.saved.isSome := by
  obtain ⟨-, inner, phase, hat, -, hwaking⟩ := h
  obtain ⟨-, tasks, loop, rfl⟩ := hat.completing hagenda
  obtain ⟨slot, hslot, -, hsaved⟩ := hwaking.completing completion rfl
  exact ⟨slot, hslot, hsaved⟩

theorem cancelLoser_total (handle : Nat) :
    (cancelLoser handle winner : VmM V K _).runOn (answer host) vm world ≠ .error cause := by
  by_cases hwinner : handle = winner
  · simp [cancelLoser, hwinner]
  rcases hslot : vm.slot handle with _ | slot
  · simp [cancelLoser, hwinner, hslot]
  rcases hdone : slot.done with _ | value <;>
    simp [cancelLoser, countCancelled, hwinner, hslot, hdone]

theorem Config.Orderly.expects (h : config.Orderly used) (hcontrol : config.control = .next)
    (hagenda : config.agenda = op :: rest) (hop : op.OfWaiters) (what : String) :
    (config.step env unit order host).control ≠ .panic (.expect what) := by
  intro hpanic
  rw [step_next hcontrol hagenda] at hpanic
  have hrun := proceed_panic hpanic
  have hcompletion (completion : Completion V) (heq : op = completion.op) : False := by
    subst heq
    obtain ⟨slot, hslot, hsaved⟩ := h.completes hagenda
    cases complete_panics hslot hsaved hrun
  cases op with
  | satisfyWaiters =>
    rcases hready : config.vm.readyWaiters order config.world.channels.table with _ | ⟨tid, tids⟩ <;>
      simp [channelCall, runOn_call, answer, answerChannel, hready] at hrun
  | resolveWaits tasks =>
    cases tasks with
    | nil => cases hrun
    | cons tid tasks =>
      obtain ⟨slot, wait, hslot, hwait, hresolvable⟩ := h.resolvable hagenda
      obtain ⟨ops, vm', world', hresolves⟩ :=
        resolveWait_resolves env host config.world hslot hwait hresolvable
      simp [hresolves] at hrun
  | completeWait task value => exact hcompletion (.wait task value) rfl
  | completeSelect task winnerDst index valueDst value =>
    exact hcompletion (.select task winnerDst index valueDst value) rfl
  | joinAll tasks => cases tasks <;> simp at hrun
  | cancelLosers handles winner =>
    cases handles with
    | nil => cases hrun
    | cons handle handles =>
      rw [perform, runOn_bind] at hrun
      rcases hloser : (cancelLoser handle winner : VmM V K _).runOn (answer host) config.vm
        config.world with cause | ⟨error | ops, vm', world'⟩
      · exact cancelLoser_total _ hloser
      · simp [hloser] at hrun
      · simp [hloser] at hrun
  | cleanup task firstError =>
    rcases hlive : SortedMap.get task config.world.resources.scopes with _ | _ | ⟨tracked, live⟩ <;>
      rcases firstError with _ | error <;>
      simp [resourceCall, runOn_call, answer, answerResource, hlive]
        at hrun
  | _ => cases hop

/-- What `resolve_wait` expects of the table: the slot of the task, its wait, and the finished tasks
the wait is for. -/
def Machine.Expected (vm : Machine V) (tid : Nat) : Prop :=
  ∃ slot wait, vm.slot tid = some slot ∧ slot.wait = some wait ∧
    (∀ task, wait = .join task → (vm.doneValue task).isSome) ∧
    ∀ handles winnerDst valueDst, wait = .select handles winnerDst valueDst →
      ∃ handle ∈ handles, (vm.doneValue handle).isSome

/-- In a run that uses no handle twice and cancels no task the scheduler is going to wake, whatever
`satisfy_waiters` expects it finds. -/
theorem waiters_expected (orders : Nat → HashOrder) (state : H) (name : String) (args : List String)
    (n : Nat) (op : Op V K) (rest : List (Op V K))
    (hused : ((Config.start env unit host state name args).used env unit host orders n).Nodup)
    (hspares : ∀ m < n,
      ((Config.start env unit host state name args).run env unit host orders m).Spares env)
    (hcontrol : ((Config.start env unit host state name args).run env unit host orders n).control =
      .next)
    (hagenda : ((Config.start env unit host state name args).run env unit host orders n).agenda =
      op :: rest) (hop : op.OfWaiters) :
    (∀ tid tasks, op = .resolveWaits (tid :: tasks) →
      ((Config.start env unit host state name args).run env unit host orders n).vm.Expected tid) ∧
    ∀ what, ((Config.start env unit host state name args).run env unit host orders (n + 1)).control ≠
      .panic (.expect what) := by
  have horderly := (Config.start_orderly).run n hspares hused
  refine ⟨?_, horderly.expects hcontrol hagenda hop⟩
  rintro tid tasks rfl
  obtain ⟨slot, wait, hslot, hwait, hresolvable⟩ := horderly.resolvable hagenda
  refine ⟨slot, wait, hslot, hwait, ?_, ?_⟩
  · rintro task rfl
    exact hresolvable
  · rintro handles winnerDst valueDst rfl
    exact hresolvable

end Steps

/-- A `select` of two tasks that return at once, and a join of a third. -/
def firstOfTwo : RegUnit := smallUnit [smallFunction 0 0 5 [
  .spawnTask 0 1 [],
  .spawnTask 1 1 [],
  .spawnTask 2 1 [],
  .selectWait [0, 1] 3 4,
  .awaitJoin 4 2,
  .ret 4], smallFunction 1 0 1 [loadInt 0 7, .ret 0]]

theorem firstOfTwo_expected :
    ((Config.start smallEnvironment firstOfTwo basicHost "" "main" []).run smallEnvironment firstOfTwo
      basicHost (fun _ => .byId) 19).vm.Expected 0 ∧
    ∀ what, ((Config.start smallEnvironment firstOfTwo basicHost "" "main" []).run smallEnvironment
      firstOfTwo basicHost (fun _ => .byId) 20).control ≠ .panic (.expect what) :=
  have h := waiters_expected (fun _ => .byId) "" "main" [] 19 (.resolveWaits [0])
    [.satisfyWaiters, .schedule 0, .conclude] (by decide +kernel) (by decide +kernel) rfl rfl trivial
  ⟨h.1 0 [] rfl, h.2⟩

/-- A task that receives from its argument. -/
def receivingTask (ordinal : Nat) : RegFunction := smallFunction ordinal 1 2 [
  .callIntrinsic 1 "ReceiverRecv" [0],
  .ret 1]

/-- A `select` of a task that receives and of one that sends and is finished then. -/
def receiveOrSend : RegUnit := smallUnit [smallFunction 0 0 8 [
  loadInt 0 1,
  .callIntrinsic 1 "ChannelBounded" [0],
  unwrapOk 1 1,
  .callIntrinsic 2 "ChannelSender" [1],
  .callIntrinsic 3 "ChannelReceiver" [1],
  unwrapOk 3 3,
  .spawnTask 4 1 [3],
  .spawnTask 5 2 [2, 0],
  .selectWait [4, 5] 6 7,
  .ret 7], receivingTask 1, sendingTask 2]

/-- The finished send wakes the `select` and the receiving task in one pass, and the first of the
two takes the other out of the table. -/
theorem receiveOrSend_panics :
    ((Config.start smallEnvironment receiveOrSend basicHost "" "main" []).used smallEnvironment
      receiveOrSend basicHost (fun _ => .byId) 42).Nodup ∧
    ((Config.start smallEnvironment receiveOrSend basicHost "" "main" []).run smallEnvironment
      receiveOrSend basicHost (fun _ => .byId) 41).agenda =
        [.resolveWaits [1], .satisfyWaiters, .schedule 0, .conclude] ∧
    ((Config.start smallEnvironment receiveOrSend basicHost "" "main" []).run smallEnvironment
      receiveOrSend basicHost (fun _ => .byId) 42).control = .panic (.expect "task slot") :=
  ⟨by decide +kernel, rfl, rfl⟩

end RSScript.Vm
