import RSScript.Vm.Scheduler

/-!
# Local programs

Most of the interpreter works on the registers, frames and closures of the
running task and asks the host. Such a program is local: it leaves the task
table, the queue and the waits alone, and touches no channel and no resource
scope. The operations it returns are inner ones; the operations of the
scheduler's loop come from the loop itself.
-/

namespace RSScript.Vm

open Program

variable {V K α : Type}

/-! ## Kinds of operations, calls and updates -/

/-- The operations an instruction consists of, other than those that remove tasks. -/
def Op.Plain : Op V K → Prop
  | .drive _ | .poll _ | .leave _ _ | .setReg _ _ | .release _ | .drop _ _ | .dropped _
  | .callClosure _ _ _ | .closureReturn .. | .resume _ _ | .cleanup _ _ => True
  | _ => False

/-- The operations an instruction consists of. -/
def Op.Inner : Op V K → Prop
  | .joinAll _ | .cancelLosers _ _ => True
  | op => op.Plain

/-- Every operation is a plain one. -/
def AllPlain (ops : List (Op V K)) : Prop := ∀ op ∈ ops, op.Plain

/-- Every operation is an inner one. -/
def AllInner (ops : List (Op V K)) : Prop := ∀ op ∈ ops, op.Inner

def Progress.Plain : Progress V K → Prop
  | .push ops => AllPlain ops
  | .yield _ => True
  | .halt _ => False

def Progress.Inner : Progress V K → Prop
  | .push ops => AllInner ops
  | .yield _ => True
  | .halt _ => False

@[simp] theorem allPlain_nil : AllPlain ([] : List (Op V K)) := List.forall_mem_nil _

variable {op : Op V K} {vm vm' : Machine V}

@[simp] theorem allPlain_cons :
    AllPlain (op :: ops) ↔ op.Plain ∧ AllPlain ops := List.forall_mem_cons

@[simp] theorem allPlain_append :
    AllPlain (first ++ second) ↔ AllPlain first ∧ AllPlain second := List.forall_mem_append

@[simp] theorem allInner_nil : AllInner ([] : List (Op V K)) := List.forall_mem_nil _

@[simp] theorem allInner_cons :
    AllInner (op :: ops) ↔ op.Inner ∧ AllInner ops := List.forall_mem_cons

@[simp] theorem allInner_append :
    AllInner (first ++ second) ↔ AllInner first ∧ AllInner second := List.forall_mem_append

theorem Op.Plain.inner (h : op.Plain) : op.Inner := by cases op <;> first | exact h | trivial

theorem AllPlain.inner (h : AllPlain ops) : AllInner ops := fun op hop => (h op hop).inner

theorem Progress.Plain.inner {progress : Progress V K} (h : progress.Plain) : progress.Inner := by
  cases progress with
  | push ops => exact AllPlain.inner h
  | yield => trivial
  | halt => exact h

def VmCall.IsHost {β : Type} : VmCall V K β → Prop
  | .host _ => True
  | _ => False

/-- Any call but one to the resource scopes. -/
def VmCall.OnChannels {β : Type} : VmCall V K β → Prop
  | .resource _ => False
  | _ => True

/-- Any call but one to the channels. -/
def VmCall.OnResources {β : Type} : VmCall V K β → Prop
  | .channel _ => False
  | _ => True

/-- The task table, the queue and the ids are the same. -/
def SameTasks (vm vm' : Machine V) : Prop :=
  (vm'.tasks, vm'.readyQueue, vm'.nextTaskId, vm'.currentTask) =
    (vm.tasks, vm.readyQueue, vm.nextTaskId, vm.currentTask)

/-- The tasks are the same, and the running task waits for the same; a register
for the result may have been added. -/
structure SameSchedule (vm vm' : Machine V) : Prop where
  tasks : SameTasks vm vm'
  wait : vm'.suspension.map Suspension.wait = vm.suspension.map Suspension.wait
  resumes : (vm.suspension.bind Suspension.resumeDst).isSome →
    (vm'.suspension.bind Suspension.resumeDst).isSome

/-- The tasks are the same, and the running task waits for the same or for a channel. -/
structure MayPark (vm vm' : Machine V) : Prop where
  tasks : SameTasks vm vm'
  wait : vm'.suspension.map Suspension.wait = vm.suspension.map Suspension.wait ∨
    ∃ blocked resumeDst, vm'.suspension = some ⟨.channel blocked, resumeDst⟩

/-- Tasks are removed and new ones appear; no slot changes. -/
structure Evolves (vm vm' : Machine V) : Prop where
  slots : ∀ tid slot, vm'.slot tid = some slot → vm.slot tid = some slot ∨
    (vm.nextTaskId ≤ tid ∧ tid < vm'.nextTaskId) ∧ slot.wait = none ∧ slot.done = none
  sorted : SortedMap.Sorted vm.tasks → SortedMap.Sorted vm'.tasks
  nextTaskId : vm.nextTaskId ≤ vm'.nextTaskId
  currentTask : vm'.currentTask = vm.currentTask

/-- What the running task waits for is no channel, or it did so before. -/
def SameChannelWait (vm vm' : Machine V) : Prop :=
  ∀ wait resumeDst, vm'.suspension = some ⟨.channel wait, resumeDst⟩ →
    ∃ before, vm.suspension = some ⟨.channel wait, before⟩ ∧ (before.isSome → resumeDst.isSome)

/-- What the instructions do to the machine that are not on channels. -/
structure Quiet (vm vm' : Machine V) : Prop where
  evolves : Evolves vm vm'
  channelWait : SameChannelWait vm vm'

theorem SameSchedule.refl (vm : Machine V) : SameSchedule vm vm := ⟨rfl, rfl, id⟩

theorem SameSchedule.trans (h : SameSchedule vm vm') (h' : SameSchedule vm' vm'') :
    SameSchedule vm vm'' :=
  ⟨h'.tasks.trans h.tasks, h'.wait.trans h.wait, h'.resumes ∘ h.resumes⟩

theorem MayPark.trans (h : MayPark vm vm') (h' : MayPark vm' vm'') : MayPark vm vm'' := by
  refine ⟨h'.tasks.trans h.tasks, ?_⟩
  rcases h'.wait with hsame | hchannel
  · rcases h.wait with hbefore | ⟨blocked, resumeDst, hwait⟩
    · exact .inl (hsame.trans hbefore)
    · rw [hwait] at hsame
      rcases hafter : vm''.suspension with _ | ⟨wait, after⟩
      · simp [hafter] at hsame
      · obtain rfl : wait = .channel blocked := by simpa [hafter] using hsame
        exact .inr ⟨blocked, after, rfl⟩
  · exact .inr hchannel

theorem Evolves.trans (h : Evolves vm vm') (h' : Evolves vm' vm'') : Evolves vm vm'' where
  slots tid slot hslot := by
    rcases h'.slots tid slot hslot with hslot | ⟨⟨hnew, hbound⟩, hfresh⟩
    · exact (h.slots tid slot hslot).imp_right fun ⟨⟨hnew, hbound⟩, hfresh⟩ =>
        ⟨⟨hnew, hbound.trans_le h'.nextTaskId⟩, hfresh⟩
    · exact .inr ⟨⟨h.nextTaskId.trans hnew, hbound⟩, hfresh⟩
  sorted := h'.sorted ∘ h.sorted
  nextTaskId := h.nextTaskId.trans h'.nextTaskId
  currentTask := h'.currentTask.trans h.currentTask

theorem SameTasks.evolves (h : SameTasks vm vm') : Evolves vm vm' := by
  obtain ⟨htasks, -, hnext, hcurrent⟩ := (by simpa [SameTasks] using h)
  refine ⟨fun tid slot hslot => .inl ?_, by rw [htasks]; exact id, hnext.ge, hcurrent⟩
  rwa [Machine.slot, htasks] at hslot

theorem SameChannelWait.trans (h : SameChannelWait vm vm') (h' : SameChannelWait vm' vm'') :
    SameChannelWait vm vm'' := by
  intro wait resumeDst hwait
  obtain ⟨middle, hmiddle, hresumes'⟩ := h' wait resumeDst hwait
  obtain ⟨before, hbefore, hresumes⟩ := h wait middle hmiddle
  exact ⟨before, hbefore, hresumes' ∘ hresumes⟩

theorem SameSchedule.quiet (h : SameSchedule vm vm') : Quiet vm vm' := by
  refine ⟨h.tasks.evolves, fun wait resumeDst hwait => ?_⟩
  have hmap := h.wait
  have hresumes := h.resumes
  rw [hwait] at hmap hresumes
  rcases hsuspension : vm.suspension with _ | ⟨_, before⟩
  · simp [hsuspension] at hmap
  · obtain rfl : _ = Wait.channel wait := by simpa [hsuspension] using hmap.symm
    exact ⟨before, rfl, by simpa [hsuspension] using hresumes⟩

/-! ## Local programs -/

/-- A local program that returns what `returned` says. -/
abbrev LocalTo (returned : α → Prop) (program : VmM V K α) : Prop :=
  program.Within VmCall.IsHost SameSchedule returned

abbrev Local (program : VmM V K α) : Prop := LocalTo (fun _ => True) program

theorem local_get : Local (get : VmM V K (Machine V)) := within_get SameSchedule.refl

/-- An update of the running task alone. -/
theorem local_modify {update : Machine V → Machine V}
    (h : ∀ vm, SameTasks vm (update vm) ∧ (update vm).suspension = vm.suspension) :
    Local (modify update : VmM V K PUnit) :=
  within_modify fun vm => ⟨(h vm).1, by rw [(h vm).2], by rw [(h vm).2]; exact id⟩

theorem local_hostCall : Local (hostCall request) := within_call trivial

theorem local_liftResult : Local (liftResult result : VmM V K α) := by
  cases result <;> trivial

theorem local_expect : Local (expect value what : VmM V K α) := by
  cases value <;> trivial

/-! ## Registers and frames -/

variable (index : Nat)

theorem local_reg : Local (reg index : VmM V K V) := by
  refine .bind local_get fun vm _ => ?_
  split
  · split <;> trivial
  · trivial

variable (base : Nat)

theorem local_regs (registers : List Nat) :
    Local (registers.mapM fun register => reg (base + register) : VmM V K (List V)) :=
  .mapM fun _ _ => local_reg _

variable (value : V)

theorem local_putReg : Local (putReg index value flag : VmM V K Unit) := by
  refine .bind local_get fun vm _ => ?_
  split
  · exact local_modify fun _ => ⟨rfl, rfl⟩
  · trivial

theorem local_setReg : Local (setReg index value : VmM V K Unit) := local_putReg index value

attribute [local simp] Progress.Plain Op.Plain

section Environment

variable (env : Environment V) (unit : RegUnit)

theorem local_takeReg : Local (takeReg env index : VmM V K V) :=
  .bind (local_reg index) fun _ _ => .bind (local_putReg ..) fun _ _ => trivial

theorem local_ensureRegs : Local (ensureRegs env upto : VmM V K Unit) := by
  refine .bind local_get fun vm _ => ?_
  split
  · exact .bind (local_modify fun _ => ⟨rfl, rfl⟩) fun _ _ => local_hostCall
  · trivial

theorem local_prepareFrame : Local (prepareFrame env base regs : VmM V K Unit) :=
  .bind (local_ensureRegs ..) fun _ _ => .forM fun _ _ => local_putReg ..

variable (args : List Nat)

theorem local_argAt : Local (argAt args position : VmM V K Nat) := by
  unfold argAt
  split <;> trivial

theorem local_functionAt (id : Nat) : Local (functionAt unit id : VmM V K RegFunction) := by
  unfold functionAt
  split <;> trivial

variable (frame : Frame)

theorem local_pushFrame : Local (pushFrame env frame : VmM V K Unit) := by
  refine .bind local_get fun vm _ => ?_
  split
  · trivial
  · exact local_modify fun _ => ⟨rfl, rfl⟩

theorem local_activeFrame : Local (activeFrame : VmM V K Frame) :=
  .bind local_get fun _ _ => local_expect

theorem local_updateFrame (update : Frame → Frame) : Local (updateFrame update : VmM V K Unit) :=
  local_modify fun _ => ⟨rfl, rfl⟩

variable (ip : Nat)

theorem local_setIp : Local (setIp ip : VmM V K Unit) := local_updateFrame _

theorem local_applyMutWriteback : Local (applyMutWriteback frame : VmM V K Unit) :=
  .forM fun _ _ => .bind (local_reg _) fun _ _ => local_setReg ..

theorem local_enterFrame : Local (enterFrame env func base : VmM V K Nat) :=
  .bind (local_ensureRegs ..) fun _ _ => .bind local_get fun _ _ =>
    .bind (local_pushFrame ..) fun _ _ => trivial

/-! ## Closures and calls -/

theorem local_expectClosure : Local (expectClosure env value : VmM V K _) := by
  refine .bind local_get fun vm _ => ?_
  split <;> trivial

theorem local_allocateClosure (closure : VmClosure V) :
    Local (allocateClosure env closure : VmM V K V) :=
  .bind local_get fun _ _ => .bind (local_modify fun _ => ⟨rfl, rfl⟩) fun _ _ => trivial

theorem local_cachedNoncapturingClosure :
    Local (cachedNoncapturingClosure env function : VmM V K V) := by
  refine .bind local_get fun vm _ => ?_
  split
  · trivial
  · exact local_allocateClosure ..

variable (nextBase : Nat)

theorem local_passArgs : Local (passArgs base nextBase args : VmM V K Unit) :=
  .forM fun _ _ => .bind (local_reg _) fun _ _ => local_setReg ..

variable (mutArgs : List Nat)

theorem local_writebackOf : Local (writebackOf base nextBase args mutArgs : VmM V K _) :=
  .mapM fun _ _ => .bind (local_argAt ..) fun _ _ => trivial

variable (dst : Nat)

theorem local_callFunction : Local (callFunction env frame callee dst args mutArgs : VmM V K _) :=
  .bind (local_prepareFrame ..) fun _ _ => .bind (local_passArgs ..) fun _ _ =>
    .bind (local_writebackOf ..) fun _ _ => local_pushFrame ..

theorem local_readArg : Local (readArg arg : VmM V K V) := by
  cases arg with
  | value => trivial
  | register index => exact local_reg index

theorem local_callClosure (args : List (CallArg V)) :
    Local (callClosure env unit value args base : VmM V K Nat) :=
  .bind (local_expectClosure ..) fun _ _ => .bind (local_functionAt ..) fun _ _ =>
    .bind (local_prepareFrame ..) fun _ _ => .bind (.forM fun _ _ => local_setReg ..) fun _ _ =>
      .bind (.forM fun _ _ => .bind local_readArg fun _ _ => local_setReg ..) fun _ _ =>
        local_enterFrame ..

theorem local_leaveFrame : LocalTo Progress.Plain (leaveFrame floor value : VmM V K _) := by
  refine .bind local_activeFrame fun frame _ =>
    .bind (local_modify fun _ => ⟨rfl, rfl⟩) fun _ _ =>
    .bind (local_applyMutWriteback _) fun _ _ => .bind local_get fun vm _ => ?_
  split
  · trivial
  · split
    · trivial
    · exact .bind (local_setReg ..) fun _ _ => by simp [Within, pure]

theorem local_synchronous : Local (synchronous outcome : VmM V K V) := by
  cases outcome <;> trivial

theorem local_finishHost : Local (finishHost target value : VmM V K Unit) := by
  refine .bind local_get fun vm _ => ?_
  split
  · refine within_modify fun vm => ⟨rfl, ?_, ?_⟩
    · rw [Option.map_map]
      rfl
    · cases vm.suspension <;> simp
  · exact local_setReg ..

theorem local_continueHost : LocalTo AllPlain (continueHost step target) := by
  cases step with
  | done value => exact .bind (local_finishHost ..) fun _ _ => within_pure allPlain_nil
  | call => exact within_pure (by simp)

/-! ## Operations of the host -/

theorem local_purePlanFromReg : Local (purePlanFromReg env base register argsLen : VmM V K _) :=
  .bind (local_reg _) fun _ _ => .bind (local_expectClosure ..) fun _ _ => trivial

theorem local_runFusedFold :
    Local (runFusedFold env code ip base pipeline first second : VmM V K _) := by
  unfold runFusedFold
  split
  · trivial
  · split
    · refine .bind (local_reg _) fun _ _ => .bind local_liftResult fun _ _ =>
        .bind (local_reg _) fun _ _ => .bind (local_purePlanFromReg ..) fun folder _ => ?_
      cases folder with
      | none => trivial
      | some folder =>
        refine .bind local_hostCall fun value _ => ?_
        cases value with
        | none => trivial
        | some value => exact .bind (local_setReg ..) fun _ _ => trivial
    · trivial

theorem local_tryFuse : Local (tryFuseIntListPipelineAt env code ip base : VmM V K _) := by
  unfold tryFuseIntListPipelineAt
  split
  · trivial
  · refine .bind (local_purePlanFromReg ..) fun first _ => ?_
    cases first with
    | none => trivial
    | some first =>
      refine .bind (local_purePlanFromReg ..) fun second _ => ?_
      cases second with
      | none => trivial
      | some second =>
        dsimp only
        split
        · exact local_runFusedFold ..
        · trivial

theorem local_checkOperands : Local (checkOperands base args : VmM V K Bool) := by
  refine .bind local_hostCall fun budget _ => ?_
  cases budget with
  | false => trivial
  | true => exact .bind (.forM fun _ _ => .bind (local_reg _) fun _ _ => trivial) fun _ _ => trivial

theorem local_operandsOf : Local (operandsOf base args : VmM V K _) :=
  .bind local_get fun _ _ => trivial

variable (opcode : String) (reads : List Nat)

theorem local_execCallback :
    LocalTo AllPlain (execCallback base nextBase dst opcode reads : VmM V K _) :=
  .bind (local_regs ..) fun _ _ => .bind local_hostCall fun _ _ => local_continueHost

theorem local_execMakeClosure :
    Local (execMakeClosure env unit base function captures : VmM V K V) := by
  unfold execMakeClosure
  split
  · exact local_cachedNoncapturingClosure ..
  · exact .bind (local_regs ..) fun _ _ => local_allocateClosure ..

theorem local_execPipeline :
    LocalTo Progress.Plain (execPipeline env frame floor opcode dst reads : VmM V K _) := by
  refine .bind (local_tryFuse ..) fun fused _ => ?_
  cases fused with
  | some next => exact .bind (local_setIp _) fun _ _ => within_pure (by simp)
  | none =>
    exact .bind (local_execCallback ..) fun ops hops =>
      within_pure (by simpa using hops)

theorem local_execCallDynamic :
    Local (execCallDynamic env unit frame dst dispatch args mutArgs : VmM V K Unit) := by
  refine .bind (local_argAt ..) fun _ _ => .bind (local_reg _) fun receiver _ => ?_
  dsimp only
  split
  · trivial
  · exact .bind (local_functionAt ..) fun _ _ => local_callFunction ..

theorem local_selectHandle : Local (selectHandle env base register : VmM V K Nat) := by
  refine .bind (local_reg _) fun value _ => ?_
  split <;> trivial

theorem local_execPlain (takes updates dst : Option Nat) (data : Bytecode.Fields) :
    Local (execPlain env base opcode reads takes updates dst data : VmM V K Unit) := by
  have htaken : Local (takes.mapM fun register => takeReg env (base + register) :
      VmM V K (Option V)) := by
    cases takes with
    | none => trivial
    | some register => exact .bind (local_takeReg ..) fun _ _ => trivial
  exact .bind (local_regs ..) fun _ _ => .bind htaken fun _ _ =>
    .bind local_hostCall fun _ _ => .bind (.forM fun _ _ => local_setReg ..) fun _ _ =>
      .forM fun _ _ => local_setReg ..

theorem local_execMatchGet (map : Nat) :
    Local (execMatchGet base opcode map key valueDst someIp noneIp : VmM V K Unit) := by
  refine .bind (local_reg _) fun _ _ => .bind (local_reg _) fun _ _ =>
    .bind local_hostCall fun found _ => ?_
  cases found with
  | none => exact local_setIp _
  | some value => exact .bind (local_setReg ..) fun _ _ => local_setIp _

theorem local_execTypedIntrinsic :
    Local (execTypedIntrinsic base dst intrinsic typeArg args : VmM V K Unit) :=
  .bind (local_checkOperands ..) fun _ _ => .bind (local_operandsOf ..) fun _ _ =>
    .bind local_hostCall fun _ _ => local_setReg ..

theorem local_runResourceDrop : LocalTo AllPlain (runResourceDrop env unit value : VmM V K _) := by
  unfold runResourceDrop
  split
  · exact within_pure allPlain_nil
  · split
    · exact within_pure allPlain_nil
    · refine .bind local_get fun _ _ => .bind (local_functionAt ..) fun _ _ =>
        .bind (local_prepareFrame ..) fun _ _ => .bind (.forM fun _ _ => ?_) fun _ _ =>
        .bind (local_enterFrame ..) fun _ _ => within_pure (by simp)
      exact .forM fun _ _ => local_setReg ..

theorem local_returnFromClosure :
    Local (returnFromClosure callerBase calleeBase offset args mutArgs dst result :
      VmM V K Unit) := by
  refine .bind (.forM fun _ _ => ?_) fun _ _ => local_setReg ..
  exact .bind (local_reg _) fun _ _ => .bind (local_argAt ..) fun _ _ => local_setReg ..

end Environment

end RSScript.Vm
