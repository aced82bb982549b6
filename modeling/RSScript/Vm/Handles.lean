import Mathlib.Data.List.Flatten
import RSScript.Vm.Phases

/-!
# Task handles

An instruction that awaits, cancels, joins or selects tasks uses their handles.
From then on something of the machine holds them: the wait of a parked task, what
the running task is about to wait for, or an operation that has yet to remove the
tasks. Handles are only passed on, so what is held was used, and a handle that is
used once has one holder. A step takes a task out of the table only by a handle
it uses or holds.
-/

namespace RSScript.Vm

open Program SortedMap Machine
open List

variable {V H K : Type}

/-! ## Who holds a handle -/

/-- The tasks a wait is for. -/
def Wait.handles : Wait V → List Nat
  | .channel _ => []
  | .join task => [task]
  | .joinAll tasks => tasks
  | .select handles _ _ => handles

def TaskSlot.handles (slot : TaskSlot V) : List Nat := (slot.wait.map Wait.handles).getD []

/-- The tasks that a join or a select goes over. -/
def Op.handles : Op V K → List Nat
  | .joinAll tasks => tasks
  | .cancelLosers handles _ => handles
  | _ => []

/-- The tasks an operation removes without a look at them. -/
def Op.joins : Op V K → List Nat
  | .joinAll tasks => tasks
  | _ => []

def handlesOf (ops : List (Op V K)) : List Nat := ops.flatMap Op.handles

def joinsOf (ops : List (Op V K)) : List Nat := ops.flatMap Op.joins

/-- What the parked tasks wait for. -/
def Machine.parkedHandles (vm : Machine V) : List Nat := vm.tasks.flatMap fun entry => entry.2.handles

/-- What the running task is about to wait for. -/
def Machine.suspendedHandles (vm : Machine V) : List Nat :=
  (vm.suspension.map fun suspension => suspension.wait.handles).getD []

/-- The handles that the waits of parked tasks and of the running one hold. -/
def Machine.handles (vm : Machine V) : List Nat := vm.parkedHandles ++ vm.suspendedHandles

@[simp] theorem handlesOf_nil : handlesOf ([] : List (Op V K)) = [] := rfl

@[simp] theorem handlesOf_cons : handlesOf (op :: ops) = op.handles ++ handlesOf ops := flatMap_cons

@[simp] theorem handlesOf_append :
    handlesOf (first ++ second) = handlesOf first ++ handlesOf second := flatMap_append

@[simp] theorem joinsOf_nil : joinsOf ([] : List (Op V K)) = [] := rfl

@[simp] theorem joinsOf_cons : joinsOf (op :: ops) = op.joins ++ joinsOf ops := flatMap_cons

@[simp] theorem joinsOf_append :
    joinsOf (first ++ second) = joinsOf first ++ joinsOf second := flatMap_append

variable {op : Op V K}

theorem Op.Plain.handles (h : op.Plain) : op.handles = [] := by cases op <;> first | rfl | cases h

theorem Op.Plain.joins (h : op.Plain) : op.joins = [] := by cases op <;> first | rfl | cases h

variable {ops : List (Op V K)}

theorem AllPlain.handles (h : AllPlain ops) : handlesOf ops = [] :=
  flatMap_eq_nil_iff.mpr fun op hop => (h op hop).handles

theorem AllPlain.joins (h : AllPlain ops) : joinsOf ops = [] :=
  flatMap_eq_nil_iff.mpr fun op hop => (h op hop).joins

section Tables

variable {vm vm' : Machine V} {tid : Nat} {slot : TaskSlot V}

/-- The handles of one parked task, and those of the others. -/
theorem Machine.parkedHandles_perm (hsorted : SortedMap.Sorted vm.tasks)
    (hslot : vm.slot tid = some slot) : vm.parkedHandles.Perm (slot.handles ++
      ((vm.tasks.filter fun entry => entry.1 ≠ tid).flatMap fun entry => entry.2.handles)) :=
  (hsorted.perm_cons_filter hslot).flatMap_right _

theorem Machine.parkedHandles_insert (hsorted : SortedMap.Sorted vm.tasks)
    (htasks : vm'.tasks = SortedMap.insert tid slot' vm.tasks) :
    vm'.parkedHandles.Perm (slot'.handles ++
      ((vm.tasks.filter fun entry => entry.1 ≠ tid).flatMap fun entry => entry.2.handles)) := by
  rw [parkedHandles, htasks]
  exact hsorted.insert_perm_filter.flatMap_right _

/-- A replaced slot passes its handles on, or takes new ones. -/
theorem Machine.count_insert (hsorted : SortedMap.Sorted vm.tasks) (hslot : vm.slot tid = some slot)
    (slot' : TaskSlot V) (htasks : vm'.tasks = SortedMap.insert tid slot' vm.tasks) (handle : Nat) :
    vm'.parkedHandles.count handle + slot.handles.count handle =
      vm.parkedHandles.count handle + slot'.handles.count handle := by
  have hbefore := (parkedHandles_perm hsorted hslot).count_eq handle
  have hafter := (parkedHandles_insert hsorted htasks).count_eq handle
  rw [count_append] at hbefore hafter
  omega

theorem Machine.count_remove (htasks : vm'.tasks = vm.tasks.filter fun entry => entry.1 ≠ tid)
    (handle : Nat) : vm'.parkedHandles.count handle ≤ vm.parkedHandles.count handle := by
  rw [parkedHandles, htasks]
  exact (filter_sublist.flatMap _).count_le handle

theorem Machine.mem_handles {handle : Nat} (hslot : vm.slot tid = some slot)
    (hhandle : handle ∈ slot.handles) : handle ∈ vm.handles := by
  refine mem_append_left _ (mem_flatMap.mpr ⟨(tid, slot), ?_, hhandle⟩)
  exact get_mem hslot

/-- Two parked tasks hold different handles. -/
theorem Machine.handles_disjoint (hsorted : SortedMap.Sorted vm.tasks) (hnodup : vm.handles.Nodup)
    (hslot : vm.slot tid = some slot) (hslot' : vm.slot other = some slot') (hne : other ≠ tid) :
    slot.handles.Disjoint slot'.handles := by
  have hparked : vm.parkedHandles.Nodup := (nodup_append.mp hnodup).1
  have hparts := (parkedHandles_perm hsorted hslot).nodup_iff.mp hparked
  intro handle hleft hright
  refine (disjoint_of_nodup_append hparts) hleft (mem_flatMap.mpr ⟨(other, slot'), ?_, hright⟩)
  have hmem : (other, slot') ∈ vm.tasks := get_mem hslot'
  simpa [hne] using hmem

end Tables

/-! ## Uses -/

section Uses

variable (env : Environment V)

/-- The registers of the handles an instruction uses. -/
def RegInstr.handles : RegInstr → List Nat
  | .awaitJoin _ src | .cancelTask src => [src]
  | .joinTasks handles | .selectWait handles _ _ => handles
  | _ => []

/-- The tasks whose handles are in some registers of a frame. -/
def Machine.handlesIn (vm : Machine V) (base : Nat) (registers : List Nat) : List Nat :=
  registers.filterMap fun register => vm.running.stack[base + register]?.bind env.asTaskHandle

/-- The handles an instruction uses; a group join uses one in two registers once. -/
def Machine.uses (vm : Machine V) (base : Nat) : RegInstr → List Nat
  | .joinTasks handles => (vm.handlesIn env base handles).dedup
  | instr => vm.handlesIn env base instr.handles

/-- The handles the next step uses. -/
def Config.uses (config : Config V H K) : List Nat :=
  match config.instruction, config.vm.running.frames.head? with
  | some instr, some frame => config.vm.uses env frame.base instr
  | _, _ => []

/-- The tasks the next step cancels. -/
def Config.cancels (config : Config V H K) : List Nat :=
  match config.control, config.agenda with
  | .next, .cancelLosers (handle :: _) winner :: _ => if handle = winner then [] else [handle]
  | .next, .drive _ :: _ =>
    match config.instruction with
    | some (.cancelTask _) => config.uses env
    | _ => []
  | _, _ => []

end Uses

/-! ## What a step does with handles -/

/-- What becomes of handles and tasks when `op` is performed with `uses` and puts `ops` in front:
no handle is held that was not held or used, and a task is removed only by its handle. -/
structure Accounts (uses cancels : List Nat) (op : Op V K) (vm vm' : Machine V)
    (ops : List (Op V K)) : Prop where
  held : ∀ handle, vm'.handles.count handle + (handlesOf ops).count handle ≤
    vm.handles.count handle + op.handles.count handle + uses.count handle
  kept : ∀ tid slot, tid < vm.nextTaskId → vm.slot tid = some slot → vm'.slot tid = some slot ∨
    (tid ∈ op.handles ∨ tid ∈ uses) ∧ (tid ∈ cancels ∨ tid ∈ op.joins ∨ slot.done.isSome)
  joined : ∀ tid ∈ joinsOf ops, tid ∈ op.joins ∨ vm.settled tid

section Accounts

variable {uses cancels : List Nat} {op : Op V K} {vm vm' : Machine V} {ops : List (Op V K)}

theorem SameTasks.tasks (h : SameTasks vm vm') : vm'.tasks = vm.tasks := congrArg Prod.fst h

theorem SameTasks.nextTaskId (h : SameTasks vm vm') : vm'.nextTaskId = vm.nextTaskId :=
  congrArg (fun fields => fields.2.2.1) h

theorem SameTasks.slot (h : SameTasks vm vm') (tid : Nat) : vm'.slot tid = vm.slot tid := by
  rw [Machine.slot, h.tasks, Machine.slot]

theorem SameTasks.settled (h : SameTasks vm vm') (tid : Nat) : vm'.settled tid = vm.settled tid := by
  rw [Machine.settled, h.slot, Machine.settled]

theorem handles_congr (htasks : vm'.tasks = vm.tasks)
    (hwait : vm'.suspension.map Suspension.wait = vm.suspension.map Suspension.wait) :
    vm'.handles = vm.handles := by
  have hsuspended : vm'.suspendedHandles = vm.suspendedHandles := by
    have hmap := congrArg (Option.map Wait.handles) hwait
    rw [Option.map_map, Option.map_map] at hmap
    exact congrArg (Option.getD · []) hmap
  rw [handles, parkedHandles, htasks, hsuspended, handles, parkedHandles]

theorem SameSchedule.handles (h : SameSchedule vm vm') : vm'.handles = vm.handles :=
  handles_congr h.tasks.tasks h.wait

theorem MayPark.count_le (h : MayPark vm vm') (handle : Nat) :
    vm'.handles.count handle ≤ vm.handles.count handle := by
  rcases h.wait with hsame | ⟨blocked, resumeDst, hchannel⟩
  · rw [handles_congr h.tasks.tasks hsame]
  · have hnone : vm'.suspendedHandles = [] := by
      rw [suspendedHandles, hchannel]
      rfl
    rw [handles, hnone, append_nil, parkedHandles, h.tasks.tasks, ← parkedHandles, handles]
    exact (sublist_append_left _ _).count_le handle

theorem accounts_of_mayPark (h : MayPark vm vm') (hops : AllPlain ops) :
    Accounts uses cancels op vm vm' ops where
  held handle := by
    have hle := h.count_le handle
    rw [hops.handles, count_nil]
    omega
  kept tid slot _ hslot := .inl (by rwa [h.tasks.slot])
  joined tid htid := by
    rw [hops.joins] at htid
    cases htid

theorem accounts_of_same (h : SameSchedule vm vm') (hops : AllPlain ops) :
    Accounts uses cancels op vm vm' ops :=
  accounts_of_mayPark ⟨h.tasks, .inl h.wait⟩ hops

/-- The machine is not changed, and handles are passed on to the operations. -/
theorem accounts_pass
    (hheld : ∀ handle, (handlesOf ops).count handle ≤ op.handles.count handle + uses.count handle)
    (hjoined : ∀ tid ∈ joinsOf ops, tid ∈ op.joins ∨ vm.settled tid) :
    Accounts uses cancels op vm vm ops :=
  ⟨fun handle => by have := hheld handle; omega, fun _ _ _ => .inl, hjoined⟩

theorem accounts_remove (htasks : vm'.tasks = vm.tasks.filter fun entry => entry.1 ≠ task)
    (hsuspension : vm'.suspension = vm.suspension) (hhandle : task ∈ op.handles ∨ task ∈ uses)
    (hmay : ∀ slot, vm.slot task = some slot → task ∈ cancels ∨ task ∈ op.joins ∨ slot.done.isSome)
    (hheld : ∀ handle, (handlesOf ops).count handle ≤ op.handles.count handle + uses.count handle)
    (hjoined : ∀ tid ∈ joinsOf ops, tid ∈ op.joins) : Accounts uses cancels op vm vm' ops where
  held handle := by
    have hcount := count_remove htasks handle
    have hops := hheld handle
    simp only [handles, suspendedHandles, hsuspension, count_append] at *
    omega
  kept tid slot _ hslot := by
    by_cases htid : tid = task
    · subst htid
      exact .inr ⟨hhandle, hmay slot hslot⟩
    · refine .inl ?_
      rw [Machine.slot, htasks, get_filter_ne, if_neg htid]
      exact hslot
  joined tid htid := .inl (hjoined tid htid)

theorem accounts_park (hops : AllPlain ops)
    (hheld : ∀ handle, wait.handles.count handle ≤ uses.count handle) :
    Accounts uses cancels op vm { vm with suspension := some ⟨wait, resumeDst⟩ } ops where
  held handle := by
    have hwait := hheld handle
    rw [hops.handles]
    simp only [handles, suspendedHandles, count_append, Option.map_some, Option.getD_some]
    change vm.parkedHandles.count handle + _ + 0 ≤ _
    omega
  kept _ _ _ := .inl
  joined tid htid := by
    rw [hops.joins] at htid
    cases htid

theorem Accounts.after (h : Accounts uses cancels op vm' vm'' ops) (hsame : SameSchedule vm vm') :
    Accounts uses cancels op vm vm'' ops where
  held handle := hsame.handles ▸ h.held handle
  kept tid slot htid hslot :=
    h.kept tid slot (by rwa [hsame.tasks.nextTaskId]) (by rwa [hsame.tasks.slot])
  joined tid htid := by
    rw [← hsame.tasks.settled]
    exact h.joined tid htid

theorem Accounts.before (h : Accounts uses cancels op vm vm' ops) (hsame : SameSchedule vm' vm'') :
    Accounts uses cancels op vm vm'' ops where
  held handle := by
    rw [hsame.handles]
    exact h.held handle
  kept tid slot htid hslot := by
    rw [hsame.tasks.slot]
    exact h.kept tid slot htid hslot
  joined := h.joined

end Accounts

/-! ## The instructions on tasks -/

attribute [local simp] Machine.handlesIn Op.handles Op.joins pushed Config.program cancelLoser
  cancelTask perform

section Instructions

variable {host : Host V H K} {env : Environment V} {unit : RegUnit} {vm vm' : Machine V}
  {world world' : World V H}

theorem reg_returned
    (hrun : (reg index : VmM V K V).runOn (answer host) vm world = .ok (result, vm', world')) :
    ∃ value, result = .ok value ∧ vm.running.stack[index]? = some value ∧ vm = vm' ∧
      world = world' := by
  by_cases hwritten : vm.running.written[index]?.getD false
  · cases hvalue : vm.running.stack[index]? with
    | none => simp [reg, hwritten, hvalue] at hrun
    | some value =>
      obtain ⟨rfl, rfl, rfl⟩ := (by simpa [reg, hwritten, hvalue] using hrun)
      exact ⟨value, rfl, rfl, rfl, rfl⟩
  · simp [reg, hwritten] at hrun

/-- Go on with the value of a register. -/
theorem reg_then
    (hrun : (reg index >>= cont).runOn (answer host) vm world = .ok (result, vm', world')) :
    ∃ value, vm.running.stack[index]? = some value ∧
      (cont value).runOn (answer host) vm world = .ok (result, vm', world') := by
  rcases runOn_bind_ok hrun with ⟨error, hfailed, -⟩ | ⟨value, vm₁, world₁, hreturned, hrest⟩
  · obtain ⟨_, hok, -⟩ := reg_returned hfailed
    cases hok
  · obtain ⟨_, ⟨⟩, hvalue, rfl, rfl⟩ := reg_returned hreturned
    exact ⟨value, hvalue, hrest⟩

variable {registers handles uses : List Nat}

theorem regs_then
    (hrun : ((registers.mapM fun register => reg (base + register)) >>= cont).runOn (answer host)
      vm world = .ok (result, vm', world')) :
    ∃ values, vm.handlesIn env base registers = values.filterMap env.asTaskHandle ∧
      (cont values).runOn (answer host) vm world = .ok (result, vm', world') := by
  induction registers generalizing cont with
  | nil => exact ⟨[], rfl, by simpa using hrun⟩
  | cons register registers ih =>
    rw [mapM_cons, LawfulMonad.bind_assoc] at hrun
    obtain ⟨value, hvalue, hrest⟩ := reg_then hrun
    rw [LawfulMonad.bind_assoc] at hrest
    obtain ⟨values, hvalues, hlast⟩ := ih hrest
    refine ⟨value :: values, ?_, hlast⟩
    rw [handlesIn, filterMap_cons, hvalue, filterMap_cons, ← hvalues]
    rfl

/-- A `select` fails at an arm that is no task, or goes on with the tasks of its arms. -/
theorem selectHandles_then
    (hrun : (registers.mapM (selectHandle env base) >>= cont).runOn (answer host) vm world =
      .ok (result, vm', world')) :
    (∃ error, result = .error error ∧ vm = vm') ∨
      (cont (vm.handlesIn env base registers)).runOn (answer host) vm world =
        .ok (result, vm', world') := by
  induction registers generalizing cont with
  | nil => exact .inr (by simpa using hrun)
  | cons register registers ih =>
    rw [mapM_cons, LawfulMonad.bind_assoc, selectHandle, LawfulMonad.bind_assoc] at hrun
    obtain ⟨value, hvalue, hrest⟩ := reg_then hrun
    cases hhandle : env.asTaskHandle value with
    | none =>
      simp only [hhandle, runOn_bind, runOn_throw, andThen_failed] at hrest
      obtain ⟨rfl, rfl, -⟩ := (by simpa using hrest)
      exact .inl ⟨_, rfl, rfl⟩
    | some task =>
      simp only [hhandle, pure_bind, LawfulMonad.bind_assoc] at hrest
      have htasks : vm.handlesIn env base (register :: registers) =
          task :: vm.handlesIn env base registers := by
        simp [hvalue, hhandle]
      rw [htasks]
      exact ih hrest

/-- The operations an instruction returns; none if it fails. -/
def returnedOps : Except EvalError (List (Op V K)) → List (Op V K)
  | .ok ops => ops
  | .error _ => []

variable {base dst src floor : Nat} {result : Except EvalError (List (Op V K))} {cancels : List Nat}

attribute [local simp] returnedOps

theorem accounts_execAwaitJoin
    (hrun : (execAwaitJoin env base dst src).runOn (answer host) vm world =
      .ok (result, vm', world')) :
    Accounts (vm.handlesIn env base [src]) cancels (.drive floor) vm vm' (returnedOps result) := by
  obtain ⟨value, hvalue, hrest⟩ := reg_then hrun
  cases hhandle : env.asTaskHandle value with
  | none =>
    rw [hhandle] at hrest
    have hlocal : LocalTo AllPlain (do setReg (base + dst) value; return [] : VmM V K (List (Op V K))) :=
      .bind (local_setReg ..) fun _ _ => within_pure allPlain_nil
    refine accounts_of_same (run_local hlocal hrest).1 ?_
    cases result with
    | error error => exact allPlain_nil
    | ok ops => exact hlocal.returns hrest
  | some task =>
    have huses : vm.handlesIn env base [src] = [task] := by simp [hvalue, hhandle]
    rw [huses]
    cases hdone : vm.doneValue task with
    | none =>
      obtain ⟨rfl, rfl, -⟩ := (by simpa [hhandle, hdone, park] using hrest)
      exact accounts_park allPlain_nil fun _ => le_rfl
    | some value =>
      obtain ⟨rfl, rfl, -⟩ := (by simpa [hhandle, hdone] using hrest)
      refine accounts_remove (by simp) rfl (.inr mem_cons_self) (fun slot hslot => .inr (.inr ?_))
        (by simp) (by simp)
      simpa [doneValue, hslot] using congrArg Option.isSome hdone

theorem accounts_execCancelTask
    (hrun : (execCancelTask env base src).runOn (answer host) vm world =
      .ok (result, vm', world')) :
    Accounts (vm.handlesIn env base [src]) (vm.handlesIn env base [src]) (.drive floor) vm vm'
      (returnedOps result) := by
  obtain ⟨value, hvalue, hrest⟩ := reg_then hrun
  cases hhandle : env.asTaskHandle value with
  | none =>
    obtain ⟨rfl, rfl, -⟩ := (by simpa [hhandle] using hrest)
    exact accounts_of_same (.refl vm) allPlain_nil
  | some task =>
    have huses : vm.handlesIn env base [src] = [task] := by simp [hvalue, hhandle]
    rw [huses]
    by_cases hcurrent : task = vm.currentTask
    · obtain ⟨rfl, rfl, -⟩ := (by simpa [hhandle, hcurrent] using hrest)
      exact accounts_of_same (.refl vm) allPlain_nil
    · cases hslot : vm.slot task with
      | none =>
        obtain ⟨rfl, rfl, -⟩ := (by simpa [hhandle, hcurrent, hslot] using hrest)
        exact accounts_of_same (.refl vm) allPlain_nil
      | some slot =>
        have hremoved : vm'.tasks = vm.tasks.filter (fun entry => entry.1 ≠ task) ∧
            vm'.suspension = vm.suspension ∧ returnedOps result = [.cleanup task none] := by
          rcases hdone : slot.done with _ | value <;>
          · obtain ⟨rfl, rfl, -⟩ := (by
              simpa [hhandle, countCancelled, hcurrent, hslot, hdone] using hrest)
            exact ⟨by simp, rfl, rfl⟩
        rw [hremoved.2.2]
        exact accounts_remove hremoved.1 hremoved.2.1 (.inr mem_cons_self)
          (fun _ _ => .inl mem_cons_self) (by simp) (by simp)

theorem accounts_execJoinTasks
    (hrun : (execJoinTasks env base handles).runOn (answer host) vm world =
      .ok (result, vm', world')) :
    Accounts (vm.handlesIn env base handles).dedup cancels (.drive floor) vm vm'
      (returnedOps result) := by
  obtain ⟨values, hvalues, hrest⟩ := regs_then hrun
  let tasks := ((values.filterMap env.asTaskHandle).insertionSort (· ≤ ·)).dedup
  have huses : tasks.Perm (vm.handlesIn env base handles).dedup := by
    rw [hvalues]
    exact (perm_insertionSort ..).dedup
  rw [runOn_bind, runOn_get, andThen_returned] at hrest
  split at hrest
  · rename_i hsettled
    obtain ⟨rfl, rfl, -⟩ := (by simpa using hrest)
    refine accounts_pass (fun handle => ?_) fun tid htid => .inr ?_
    · simpa using (huses.count_eq handle).le
    · exact all_eq_true.mp hsettled tid (by simpa [tasks] using htid)
  · obtain ⟨rfl, rfl, -⟩ := (by simpa [park] using hrest)
    exact accounts_park allPlain_nil fun handle => (huses.count_eq handle).le

theorem accounts_execSelectWait
    (hrun : (execSelectWait env base handles winner value).runOn (answer host) vm world =
      .ok (result, vm', world')) :
    Accounts (vm.handlesIn env base handles) cancels (.drive floor) vm vm' (returnedOps result) := by
  rcases selectHandles_then hrun with ⟨error, rfl, rfl⟩ | hrest
  · exact accounts_of_same (.refl vm) allPlain_nil
  rw [runOn_bind, runOn_get, andThen_returned] at hrest
  split at hrest
  · rename_i task index hfirst
    cases hdone : vm.doneValue task with
    | none => simp [hdone] at hrest
    | some won =>
      obtain ⟨rfl, rfl, -⟩ := (by simpa [hdone] using hrest)
      exact accounts_pass (by simp) (by simp)
  · obtain ⟨rfl, rfl, -⟩ := (by simpa [park] using hrest)
    exact accounts_park allPlain_nil fun _ => le_rfl

/-- Go on after a local program. -/
theorem accounts_local_then (hlocal : Local first)
    (hfailed : ∀ error, result = .error error → AllPlain ops)
    (hnext : ∀ value vm₁ world₁, SameSchedule vm vm₁ →
      (cont value).runOn (answer host) vm₁ world₁ = .ok (result, vm', world') →
      Accounts uses cancels op vm₁ vm' ops)
    (hrun : (first >>= cont).runOn (answer host) vm world = .ok (result, vm', world')) :
    Accounts uses cancels op vm vm' ops := by
  rcases runOn_bind_ok hrun with ⟨error, hfirst, hresult⟩ | ⟨value, vm₁, world₁, hfirst, hrest⟩
  · exact accounts_of_same (run_local hlocal hfirst).1 (hfailed error hresult)
  · have hsame := (run_local hlocal hfirst).1
    exact (hnext value vm₁ world₁ hsame hrest).after hsame

/-- A new task waits for nothing. -/
theorem accounts_createTask
    {result : Except EvalError Nat} (hsorted : SortedMap.Sorted vm.tasks)
    (hrun : (createTask env func args : VmM V K Nat).runOn (answer host) vm world =
      .ok (result, vm', world')) : Accounts uses cancels (.drive floor : Op V K) vm vm' [] := by
  let slot : TaskSlot V := { saved := some (initialTask env func args) }
  have hafter : vm'.tasks = insert vm.nextTaskId slot vm.tasks ∧
      vm'.suspension = vm.suspension := by
    obtain ⟨-, rfl, -⟩ := (by simpa [createTask] using hrun)
    exact ⟨rfl, rfl⟩
  obtain ⟨htasks, hsuspension⟩ := hafter
  refine ⟨fun handle => ?_, fun tid found htid hfound => .inl ?_, by rintro _ ⟨⟩⟩
  · have hparked : vm'.parkedHandles.count handle ≤ vm.parkedHandles.count handle := by
      rw [(parkedHandles_insert hsorted htasks).count_eq]
      exact (filter_sublist.flatMap _).count_le handle
    simp only [handles, suspendedHandles, hsuspension, count_append, handlesOf_nil, count_nil] at *
    omega
  · rw [Machine.slot, htasks, get_insert_of_ne htid.ne]
    exact hfound

theorem accounts_execSpawnTask
    (hsorted : SortedMap.Sorted vm.tasks)
    (hrun : (execSpawnTask env unit base dst function args).runOn (answer host) vm world =
      .ok (result, vm', world')) :
    Accounts [] cancels (.drive floor) vm vm' (returnedOps result) := by
  have hfailed : ∀ error, result = .error error → AllPlain (returnedOps result) := by
    rintro error rfl
    exact allPlain_nil
  refine accounts_local_then (local_functionAt ..) hfailed (fun callee vm₁ world₁ hsame₁ hrest => ?_) hrun
  refine accounts_local_then (local_regs ..) hfailed (fun values vm₂ world₂ hsame₂ hrest => ?_) hrest
  have hsorted₂ : Sorted vm₂.tasks := by
    rw [hsame₂.tasks.tasks, hsame₁.tasks.tasks]
    exact hsorted
  rcases runOn_bind_ok hrest with ⟨error, hcreated, rfl⟩ | ⟨tid, vm₃, world₃, hcreated, hrest⟩
  · exact accounts_createTask hsorted₂ hcreated
  · have hlocal : LocalTo (· = []) (do setReg (base + dst) (env.task tid); return [] :
        VmM V K (List (Op V K))) := .bind (local_setReg ..) fun _ _ => within_pure rfl
    have hops : returnedOps result = [] := by
      cases result with
      | error error => rfl
      | ok ops => exact hlocal.returns hrest
    rw [hops]
    exact (accounts_createTask hsorted₂ hcreated).before (run_local hlocal hrest).1

/-! ## Inner operations -/

variable {result : Except EvalError (Progress V K)}

/-- The operations of an instruction, then the poll. -/
theorem accounts_thenPoll
    (h : ∀ result, program.runOn (answer host) vm world = .ok (result, vm', world') →
      Accounts uses cancels op vm vm' (returnedOps result))
    (hrun : (do return .push ((← program) ++ [.poll floor]) : VmM V K (Progress V K)).runOn
      (answer host) vm world = .ok (result, vm', world')) :
    Accounts uses cancels op vm vm' (pushed result) := by
  rcases runOn_bind_ok hrun with ⟨error, hfailed, rfl⟩ | ⟨ops, vm₁, world₁, hreturned, hrest⟩
  · exact h _ hfailed
  · obtain ⟨rfl, rfl, rfl⟩ := (by simpa using hrest)
    obtain ⟨hheld, hkept, hjoined⟩ := h _ hreturned
    refine ⟨fun handle => ?_, hkept, fun tid htid => hjoined tid ?_⟩
    · simpa using hheld handle
    · simpa using htid

theorem plain_pushed {may : {β : Type} → VmCall V K β → Prop} {program : VmM V K (Progress V K)}
    (h : program.Within may kept Progress.Plain)
    (hrun : program.runOn (answer host) vm world = .ok (result, vm', world')) :
    AllPlain (pushed result) := by
  rcases result with error | ops | outcome | halted
  · exact allPlain_nil
  · exact h.returns hrun
  · exact allPlain_nil
  · cases h.returns hrun

theorem accounts_execute (hsorted : SortedMap.Sorted vm.tasks)
    (hcancels : ∀ src, instr = .cancelTask src → cancels = vm.handlesIn env frame.base [src])
    (hrun : (execute env unit floor frame instr).runOn (answer host) vm world =
      .ok (result, vm', world')) :
    Accounts (vm.uses env frame.base instr) cancels (.drive floor) vm vm' (pushed result) := by
  by_cases hchannels : instr.OnChannels
  · have hwithin : ChannelsTo Progress.Plain (execute env unit floor frame instr : VmM V K _) :=
      channels_execute env unit hchannels
    exact accounts_of_mayPark (hwithin.keeps hrun) (plain_pushed hwithin hrun)
  by_cases hresources : instr.OnResources
  · have hwithin : ResourcesTo Progress.Plain (execute env unit floor frame instr : VmM V K _) :=
      resources_execute env unit hresources
    exact accounts_of_same (hwithin.keeps hrun) (plain_pushed hwithin hrun)
  by_cases htasks : instr.OnTasks
  · cases instr with
    | spawnTask => exact accounts_thenPoll (fun _ => accounts_execSpawnTask hsorted) hrun
    | awaitJoin => exact accounts_thenPoll (fun _ => accounts_execAwaitJoin) hrun
    | cancelTask src =>
      rw [hcancels src rfl]
      exact accounts_thenPoll (fun _ => accounts_execCancelTask) hrun
    | joinTasks => exact accounts_thenPoll (fun _ => accounts_execJoinTasks) hrun
    | selectWait => exact accounts_thenPoll (fun _ => accounts_execSelectWait) hrun
    | _ => cases htasks
  · have hwithin : LocalTo Progress.Plain (execute env unit floor frame instr : VmM V K _) :=
      local_execute env unit hchannels htasks hresources
    exact accounts_of_same (run_local hwithin hrun).1 (plain_pushed hwithin hrun)

theorem accounts_advance {frame : Frame} (hsorted : SortedMap.Sorted vm.tasks)
    (hcancels : ∀ src, frame.func.code[frame.ip]? = some (.cancelTask src) →
      cancels = vm.handlesIn env frame.base [src])
    (hrun : (advance env unit floor frame).runOn (answer host) vm world =
      .ok (result, vm', world')) :
    Accounts ((frame.func.code[frame.ip]?.map (vm.uses env frame.base)).getD []) cancels
      (.drive floor) vm vm' (pushed result) := by
  unfold advance at hrun
  split at hrun
  · exact accounts_of_same (run_local (local_leaveFrame ..) hrun).1
      (plain_pushed (local_leaveFrame ..) hrun)
  · rename_i instr hinstr
    rw [hinstr] at hcancels ⊢
    rcases runOn_bind_ok hrun with ⟨error, hfailed, rfl⟩ | ⟨_, vm₁, world₁, hticked, hrest⟩
    · exact accounts_of_same (run_local local_hostCall hfailed).1 allPlain_nil
    · obtain ⟨-, rfl, -⟩ := (by simpa [hostCall, runOn_call] using hticked)
      have hcancels' : ∀ src, instr = .cancelTask src → cancels = vm.handlesIn env frame.base [src] :=
        fun src hsrc => hcancels src (by rw [hsrc])
      have hexecuted := accounts_execute (by exact hsorted) (by exact hcancels') hrest
      exact hexecuted.after ⟨rfl, rfl, id⟩

theorem accounts_cancelLoser {handle winner : Nat} (handles : List Nat)
    {result : Except EvalError (List (Op V K))}
    (hrun : (cancelLoser handle winner).runOn (answer host) vm world = .ok (result, vm', world')) :
    ∃ ops, result = .ok ops ∧ Accounts [] (if handle = winner then [] else [handle])
      (.cancelLosers (handle :: handles) winner) vm vm' (ops ++ [.cancelLosers handles winner]) := by
  have hheld (ops : List (Op V K)) (hops : AllPlain ops) (other : Nat) :
      (handlesOf (ops ++ [.cancelLosers handles winner])).count other ≤
        (handle :: handles).count other + ([] : List Nat).count other := by
    simpa [hops.handles] using (sublist_cons_self handle handles).count_le other
  have hjoined (ops : List (Op V K)) (hops : AllPlain ops) (tid : Nat)
      (htid : tid ∈ joinsOf (ops ++ [.cancelLosers handles winner])) : False := by
    simp [hops.joins] at htid
  by_cases hwinner : handle = winner
  · obtain ⟨rfl, rfl, -⟩ := (by simpa [hwinner] using hrun)
    exact ⟨[], rfl, accounts_pass (hheld [] allPlain_nil)
      fun tid htid => (hjoined [] allPlain_nil tid htid).elim⟩
  rw [if_neg hwinner]
  cases hslot : vm.slot handle with
  | none =>
    obtain ⟨rfl, rfl, -⟩ := (by simpa [hwinner, hslot] using hrun)
    exact ⟨[], rfl, accounts_pass (hheld [] allPlain_nil)
      fun tid htid => (hjoined [] allPlain_nil tid htid).elim⟩
  | some slot =>
    have hremoved : ∃ ops, result = .ok ops ∧ AllPlain ops ∧
        vm'.tasks = vm.tasks.filter (fun entry => entry.1 ≠ handle) ∧
        vm'.suspension = vm.suspension := by
      rcases hdone : slot.done with _ | value <;>
      · obtain ⟨rfl, rfl, -⟩ := (by simpa [countCancelled, hwinner, hslot, hdone] using hrun)
        exact ⟨_, rfl, by simp [Op.Plain], by simp, rfl⟩
    obtain ⟨ops, rfl, hops, htasks, hsuspension⟩ := hremoved
    exact ⟨ops, rfl, accounts_remove htasks hsuspension (.inl mem_cons_self)
      (fun _ _ => .inl mem_cons_self) (hheld ops hops)
      fun tid htid => (hjoined ops hops tid htid).elim⟩

/-- The inner operations other than `drive`. -/
theorem accounts_perform {order : HashOrder} (hop : op.Inner) (hdrive : ∀ floor, op ≠ .drive floor)
    (hcancels : ∀ handle handles winner, op = .cancelLosers (handle :: handles) winner →
      cancels = if handle = winner then [] else [handle])
    (hrun : (perform env unit order op).runOn (answer host) vm world = .ok (result, vm', world')) :
    Accounts [] cancels op vm vm' (pushed result) := by
  by_cases hplain : op.Plain
  · have hwithin := resources_perform env unit order hplain hdrive
    exact accounts_of_same (hwithin.keeps hrun) (plain_pushed hwithin hrun)
  · cases op with
    | joinAll tasks =>
      cases tasks with
      | nil =>
        obtain ⟨rfl, rfl, -⟩ := (by simpa using hrun)
        exact accounts_pass (by simp) (by simp)
      | cons task tasks =>
        obtain ⟨rfl, rfl, -⟩ := (by simpa using hrun)
        refine accounts_remove (by simp) rfl (.inl mem_cons_self)
          (fun _ _ => .inr (.inl mem_cons_self)) (fun handle => ?_) ?_
        · simpa using (sublist_cons_self task tasks).count_le handle
        · simpa using fun tid htid => .inr htid
    | cancelLosers handles winner =>
      cases handles with
      | nil =>
        obtain ⟨rfl, rfl, -⟩ := (by simpa using hrun)
        exact accounts_pass (by simp) (by simp)
      | cons handle handles =>
        rw [hcancels handle handles winner rfl]
        rcases runOn_bind_ok hrun with ⟨error, hfailed, rfl⟩ | ⟨ops, vm₁, world₁, hreturned, hrest⟩
        · obtain ⟨_, hok, -⟩ := accounts_cancelLoser handles hfailed
          cases hok
        · obtain ⟨_, ⟨⟩, haccounts⟩ := accounts_cancelLoser handles hreturned
          obtain ⟨rfl, rfl, rfl⟩ := (by simpa using hrest)
          exact haccounts
    | _ => exact absurd hop hplain

end Instructions

section Steps

variable {host : Host V H K} {env : Environment V} {unit : RegUnit} {order : HashOrder}
  {config next : Config V H K} {op : Op V K} {inner : List (Op V K)} {phase : Phase V}
  {result : Except EvalError (Progress V K)}

theorem Config.instruction_none (hagenda : config.agenda = op :: rest)
    (h : ∀ floor, op ≠ .drive floor) : config.instruction = none := by
  unfold Config.instruction
  split
  · rename_i hdrive
    rw [hagenda] at hdrive
    exact absurd (cons.inj hdrive).1 (h _)
  · rfl

theorem Config.At.accounts (hat : config.At (op :: inner) phase)
    (hsorted : SortedMap.Sorted config.vm.tasks)
    (hrun : (config.program env unit order op).runOn (answer host) config.vm config.world =
      .ok (result, next.vm, next.world)) :
    Accounts (config.uses env) (config.cancels env) op config.vm next.vm (pushed result) := by
  have hop : op.Inner := (allInner_cons.mp hat.inner).1
  have hagenda : config.agenda = op :: (inner ++ phase.ops) := hat.agenda
  rcases hcontrol : config.control with _ | outcome | error | _ | _
  · simp only [Config.program, hcontrol] at hrun
    by_cases hdrive : ∃ floor, op = .drive floor
    · obtain ⟨floor, rfl⟩ := hdrive
      rw [perform, driveStep_run] at hrun
      split at hrun
      · cases hrun
      · rename_i frame hframe
        have hinstr : config.instruction = frame.func.code[frame.ip]? := by
          simp [Config.instruction, hcontrol, hagenda, hframe]
        have huses : config.uses env =
            (frame.func.code[frame.ip]?.map (config.vm.uses env frame.base)).getD [] := by
          rw [Config.uses, hinstr, hframe]
          cases frame.func.code[frame.ip]? <;> rfl
        rw [huses]
        refine accounts_advance hsorted (fun src hsrc => ?_) hrun
        simp only [Config.cancels, hcontrol, hagenda, hinstr, hsrc]
        rw [huses, hsrc]
        rfl
    · have hnone : ∀ floor, op ≠ .drive floor := fun floor hfloor => hdrive ⟨floor, hfloor⟩
      have huses : config.uses env = [] := by
        rw [Config.uses, config.instruction_none hagenda hnone]
      rw [huses]
      refine accounts_perform hop hnone (fun handle handles winner heq => ?_) hrun
      simp [Config.cancels, hcontrol, hagenda, heq]
  · simp only [Config.program, hcontrol] at hrun
    have hlocal := local_receive (K := K) env outcome hop
    exact accounts_of_same (run_local hlocal hrun).1 (plain_pushed hlocal hrun)
  · obtain ⟨rfl, hvm, -⟩ := (by simpa [hcontrol] using hrun)
    rw [← hvm]
    exact accounts_of_same (.refl _) allPlain_nil
  · simp [hcontrol] at hrun
  · simp [hcontrol] at hrun

end Steps

end RSScript.Vm
