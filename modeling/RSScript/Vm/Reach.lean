import RSScript.Vm.Locality

/-!
# What instructions reach

An instruction that is not local is on channels, on tasks or on resource scopes,
and reaches nothing beyond these.
-/

namespace RSScript.Vm

open Program SortedMap

variable {V K α : Type}

attribute [local simp] Op.Plain Progress.Plain Op.Inner

section Environment

variable (env : Environment V) (unit : RegUnit)

/-! ## Channels -/

/-- A program on channels that does not park. -/
abbrev TalksTo (returned : α → Prop) (program : VmM V K α) : Prop :=
  program.Within VmCall.OnChannels SameSchedule returned

abbrev Talks (program : VmM V K α) : Prop := TalksTo (fun _ => True) program

/-- A program on channels that returns what `returned` says. -/
abbrev ChannelsTo (returned : α → Prop) (program : VmM V K α) : Prop :=
  program.Within VmCall.OnChannels MayPark returned

variable {program : VmM V K α} {returned : α → Prop} {may : {β : Type} → VmCall V K β → Prop}
  {op : Op V K}

theorem VmCall.IsHost.within {request : VmCall V K β} (h : request.IsHost) :
    request.OnChannels ∧ request.OnResources := by
  cases request with
  | host => exact ⟨trivial, trivial⟩
  | channel | resource => cases h

theorem talks_of_local (h : LocalTo returned program) : TalksTo returned program :=
  h.mono (fun _ hhost => hhost.within.1) (fun _ _ => id) fun _ => id

theorem channels_of_talks (h : TalksTo returned program) : ChannelsTo returned program :=
  h.mono (fun _ => id) (fun _ _ h => ⟨h.tasks, .inl h.wait⟩) fun _ => id

theorem channels_of_local (h : LocalTo returned program) : ChannelsTo returned program :=
  channels_of_talks (talks_of_local h)

theorem talks_call : Talks (channelCall request : VmM V K α) := within_call trivial

variable (operands : List (Option V))

theorem local_intrinsicArg : Local (intrinsicArg operands index : VmM V K V) := by
  unfold intrinsicArg
  split <;> trivial

variable (base : Nat) (args : List Nat)

theorem local_receiverRegister : Local (receiverRegister base args missing : VmM V K Nat) := by
  unfold receiverRegister
  split <;> trivial

theorem talks_channelBounded : Talks (channelBounded env operands : VmM V K V) := by
  refine .bind (talks_of_local (local_intrinsicArg ..)) fun _ _ =>
    .bind (talks_of_local local_liftResult) fun capacity _ => ?_
  split
  · trivial
  · exact .bind talks_call fun _ _ => trivial

theorem talks_channelReceiver : Talks (channelReceiver env base args : VmM V K V) := by
  refine .bind (talks_of_local (local_receiverRegister ..)) fun register _ =>
    .bind (talks_of_local (local_reg _)) fun _ _ =>
    .bind (talks_of_local local_liftResult) fun _ _ => .bind talks_call fun table _ => ?_
  dsimp only
  split
  · trivial
  · exact .bind talks_call fun _ _ =>
      .bind (talks_of_local (local_setReg ..)) fun _ _ => trivial

theorem talks_receiverClose : Talks (receiverClose env base args : VmM V K V) :=
  .bind (talks_of_local (local_receiverRegister ..)) fun _ _ =>
    .bind (talks_of_local (local_reg _)) fun _ _ =>
    .bind (talks_of_local local_liftResult) fun _ _ => .bind talks_call fun _ _ =>
      .bind (talks_of_local (local_setReg ..)) fun _ _ => trivial

theorem talks_senderClose : Talks (senderClose env base args : VmM V K V) := by
  refine .bind (talks_of_local (local_receiverRegister ..)) fun _ _ =>
    .bind (talks_of_local (local_reg _)) fun _ _ =>
    .bind (talks_of_local local_liftResult) fun sender _ => ?_
  split
  · exact .bind talks_call fun _ _ =>
      .bind (talks_of_local (local_setReg ..)) fun _ _ => trivial
  · exact .bind (talks_of_local (local_setReg ..)) fun _ _ => trivial

theorem talks_stream : Talks (streamNext env operands : VmM V K V) ∧
    Talks (streamCollectList env operands : VmM V K V) := by
  constructor <;>
  · refine .bind (talks_of_local (local_intrinsicArg ..)) fun _ _ =>
      .bind (talks_of_local local_liftResult) fun stream _ => ?_
    split
    · trivial
    · exact .bind talks_call fun _ _ => trivial
    · exact talks_of_local local_hostCall

/-- A channel intrinsic talks to the channels, and at its end may receive or send
and park. -/
inductive Parking : VmM V K V → Prop where
  | talks {program : VmM V K V} (h : Talks program) : Parking program
  | recv (channel : Int) : Parking (recvOrPark env channel)
  | send (sender : VmSender) (value : V) : Parking (sendOrPark env sender value)
  | after {β : Type} {first : VmM V K β} {next : β → VmM V K V} (hfirst : Talks first)
      (hnext : ∀ value, Parking (next value)) : Parking (first >>= next)

/-- An operation on the first operand, looked into. -/
theorem Parking.viewed {β : Type} {view : V → Except EvalError β} {operands : List (Option V)}
    {next : β → VmM V K V} (h : ∀ viewed, Parking env (next viewed)) :
    Parking env (do next (← liftResult (view (← intrinsicArg operands 0)))) :=
  .after (talks_of_local (local_intrinsicArg ..)) fun _ =>
    .after (talks_of_local local_liftResult) h

theorem Parking.unlessCancelled {token : V} {message : String} {operation : VmM V K V}
    (h : Parking env operation) : Parking env (unlessCancelled env token message operation) := by
  refine .after (talks_of_local local_hostCall) fun cancelled => ?_
  cases cancelled with
  | true => exact .talks trivial
  | false => exact h

theorem parking_execChannelIntrinsic :
    Parking env (execChannelIntrinsic env base intrinsic args operands : VmM V K V) := by
  have harg : ∀ index, Talks (intrinsicArg operands index : VmM V K V) := fun _ =>
    talks_of_local (local_intrinsicArg ..)
  unfold execChannelIntrinsic
  split
  · exact .talks (talks_channelBounded ..)
  · exact .viewed env fun _ => .talks (.bind talks_call fun _ _ => trivial)
  · exact .talks (talks_channelReceiver ..)
  · exact .talks (talks_receiverClose ..)
  · exact .viewed env fun _ => .talks trivial
  · refine .viewed env fun receiver => ?_
    split
    · exact .talks trivial
    · exact .recv _
  · refine .viewed env fun receiver => ?_
    split
    · exact .talks trivial
    · exact .after (harg 1) fun _ => (Parking.recv _).unlessCancelled
  · exact .talks (talks_stream ..).2
  · exact .talks (talks_stream ..).1
  · exact .talks (talks_senderClose ..)
  · exact .viewed env fun _ => .after (harg 1) fun _ => .send ..
  · exact .viewed env fun _ => .after (harg 1) fun _ => .after (harg 2) fun _ =>
      (Parking.send ..).unlessCancelled
  · exact .talks trivial

theorem channels_park :
    ChannelsTo (fun _ => True) (park (.channel blocked) resumeDst : VmM V K Unit) :=
  within_modify fun _ => ⟨rfl, .inr ⟨blocked, resumeDst, rfl⟩⟩

theorem Parking.channels {program : VmM V K V} (h : Parking env program) :
    ChannelsTo (fun _ => True) program := by
  induction h with
  | talks h => exact channels_of_talks h
  | recv channel =>
    refine .bind (channels_of_talks talks_call) fun table _ => ?_
    split
    · exact .bind (channels_of_talks talks_call) fun _ _ => trivial
    · exact .bind (channels_park ..) fun _ _ => trivial
  | send sender value =>
    refine .bind (channels_of_talks talks_call) fun table _ => ?_
    split
    · exact .bind (channels_park ..) fun _ _ => trivial
    · exact .bind (channels_of_talks talks_call) fun _ _ => trivial
  | after hfirst _ ih => exact .bind (channels_of_talks hfirst) fun value _ => ih value

variable (dst : Nat)

theorem channels_execIntrinsic :
    ChannelsTo AllPlain (execIntrinsic env base nextBase dst intrinsic args : VmM V K _) := by
  refine .bind (channels_of_local (local_checkOperands ..)) fun budget _ =>
    .bind (channels_of_local local_hostCall) fun _ _ =>
    .bind (channels_of_local (local_operandsOf ..)) fun operands _ => ?_
  split
  · refine .bind (parking_execChannelIntrinsic ..).channels fun value _ =>
      .bind (channels_of_local local_get) fun vm _ => ?_
    split
    · exact .bind (channels_of_local local_hostCall) fun _ _ =>
        .bind (channels_of_local (local_finishHost ..)) fun _ _ => within_pure allPlain_nil
    · exact .bind (channels_of_local (local_finishHost ..)) fun _ _ => within_pure allPlain_nil
  · exact .bind (channels_of_local local_hostCall) fun _ _ =>
      channels_of_local local_continueHost

/-- The intrinsics that are not on channels. -/
theorem local_execIntrinsic {base nextBase dst : Nat} {intrinsic : String} {args : List Nat}
    (h : intrinsic ∉ channelIntrinsics) :
    LocalTo AllPlain (execIntrinsic env base nextBase dst intrinsic args : VmM V K _) := by
  refine .bind (local_checkOperands ..) fun budget _ => .bind local_hostCall fun _ _ =>
    .bind (local_operandsOf ..) fun operands _ => ?_
  rw [if_neg h]
  exact .bind local_hostCall fun _ _ => local_continueHost

/-! ## Tasks -/

/-- A program on tasks that returns what `returned` says. -/
abbrev TasksTo (returned : α → Prop) (program : VmM V K α) : Prop :=
  program.Within VmCall.IsHost Quiet returned

theorem tasks_of_local (h : LocalTo returned program) : TasksTo returned program :=
  h.mono (fun _ => id) (fun _ _ h => h.quiet) fun _ => id

variable (tid : Nat)

theorem Machine.slot_remove (vm : Machine V) (other : Nat) :
    { vm with tasks := vm.tasks.filter fun entry => entry.1 ≠ tid }.slot other =
      if other = tid then none else vm.slot other :=
  get_filter_ne

theorem Machine.slot_insert (vm : Machine V) (other : Nat) (slot : TaskSlot V) :
    { vm with tasks := SortedMap.insert tid slot vm.tasks }.slot other =
      if other = tid then some slot else vm.slot other :=
  get_insert

theorem tasks_modify {update : Machine V → Machine V} (h : ∀ vm, Evolves vm (update vm))
    (hwait : ∀ vm, (update vm).suspension = vm.suspension) :
    TasksTo (fun _ => True) (modify update : VmM V K PUnit) :=
  within_modify fun vm => ⟨h vm, fun _ _ h => ⟨_, by rwa [hwait] at h, id⟩⟩

theorem tasks_removeTask : TasksTo (fun _ => True) (removeTask tid : VmM V K Unit) := by
  refine tasks_modify (fun vm => ⟨fun other slot hslot => .inl ?_, List.Pairwise.filter _, le_rfl, rfl⟩)
    fun _ => rfl
  rw [Machine.slot_remove] at hslot
  split at hslot
  · cases hslot
  · exact hslot

theorem tasks_countCancelled : TasksTo (fun _ => True) (countCancelled : VmM V K Unit) :=
  tasks_modify (fun _ => ⟨fun _ _ => .inl, id, le_rfl, rfl⟩) fun _ => rfl

theorem tasks_park (h : ∀ blocked, wait ≠ .channel blocked) :
    TasksTo (fun _ => True) (park wait resumeDst : VmM V K Unit) := by
  refine within_modify fun vm => ⟨⟨fun _ _ => .inl, id, le_rfl, rfl⟩, fun blocked _ hwait => ?_⟩
  exact absurd (congrArg Suspension.wait (Option.some.inj hwait)) (h blocked)

theorem tasks_createTask (args : List V) :
    TasksTo (fun _ => True) (createTask env func args : VmM V K Nat) := by
  refine .bind (tasks_of_local local_get) fun _ _ =>
    .bind (tasks_modify (fun vm => ⟨fun other slot hslot => ?_, insert_sorted, by simp, rfl⟩)
      fun _ => rfl) fun _ _ => trivial
  change { vm with tasks := insert _ _ vm.tasks }.slot other = some slot at hslot
  rw [Machine.slot_insert] at hslot
  split at hslot
  · rename_i hnew
    obtain rfl := Option.some.inj hslot
    exact .inr ⟨⟨hnew.ge, by rw [hnew]; exact Nat.lt_succ_self _⟩, rfl, rfl⟩
  · exact .inl hslot

theorem tasks_execSpawnTask :
    TasksTo AllInner (execSpawnTask env unit base dst function args : VmM V K _) :=
  .bind (tasks_of_local (local_functionAt ..)) fun _ _ =>
    .bind (tasks_of_local (local_regs ..)) fun _ _ => .bind (tasks_createTask ..) fun _ _ =>
      .bind (tasks_of_local (local_setReg ..)) fun _ _ => within_pure allInner_nil

theorem tasks_execAwaitJoin : TasksTo AllInner (execAwaitJoin env base dst src : VmM V K _) := by
  refine .bind (tasks_of_local (local_reg _)) fun value _ => ?_
  split
  · exact .bind (tasks_of_local (local_setReg ..)) fun _ _ => within_pure allInner_nil
  · refine .bind (tasks_of_local local_get) fun vm _ => ?_
    split
    · exact .bind (tasks_removeTask _) fun _ _ => within_pure (by simp)
    · exact .bind (tasks_park (by simp)) fun _ _ => within_pure allInner_nil

theorem tasks_cancelTask : TasksTo AllInner (cancelTask task : VmM V K _) := by
  refine .bind (tasks_of_local local_get) fun vm _ => ?_
  split
  · trivial
  · split
    · trivial
    · refine .bind (tasks_removeTask _) fun _ _ => ?_
      split
      · exact .bind tasks_countCancelled fun _ _ => within_pure (by simp)
      · exact within_pure (by simp)

theorem tasks_execCancelTask : TasksTo AllInner (execCancelTask env base src : VmM V K _) := by
  refine .bind (tasks_of_local (local_reg _)) fun value _ => ?_
  split
  · trivial
  · exact tasks_cancelTask

theorem tasks_execJoinTasks : TasksTo AllInner (execJoinTasks env base handles : VmM V K _) := by
  refine .bind (tasks_of_local (local_regs ..)) fun values _ =>
    .bind (tasks_of_local local_get) fun vm _ => ?_
  split
  · exact within_pure (by simp)
  · exact .bind (tasks_park nofun) fun _ _ => within_pure allInner_nil

theorem tasks_execSelectWait :
    TasksTo AllInner (execSelectWait env base handles winner value : VmM V K _) := by
  refine .bind (tasks_of_local (.mapM fun _ _ => local_selectHandle ..)) fun tasks _ =>
    .bind (tasks_of_local local_get) fun vm _ => ?_
  split
  · exact .bind (tasks_of_local local_expect) fun _ _ => within_pure (by simp)
  · exact .bind (tasks_park nofun) fun _ _ => within_pure allInner_nil

theorem tasks_cancelLoser (handle : Nat) :
    TasksTo AllInner (cancelLoser handle winner : VmM V K _) := by
  refine .bind (tasks_of_local local_get) fun vm _ => ?_
  split
  · exact within_pure allInner_nil
  · split
    · exact within_pure allInner_nil
    · refine .bind (tasks_removeTask _) fun _ _ => ?_
      split
      · exact .bind tasks_countCancelled fun _ _ => within_pure (by simp)
      · exact within_pure allInner_nil

/-! ## Resource scopes -/

/-- A program on resource scopes that returns what `returned` says. -/
abbrev ResourcesTo (returned : α → Prop) (program : VmM V K α) : Prop :=
  program.Within VmCall.OnResources SameSchedule returned

theorem resources_of_local (h : LocalTo returned program) : ResourcesTo returned program :=
  h.mono (fun _ hhost => hhost.within.2) (fun _ _ => id) fun _ => id

theorem resources_call :
    ResourcesTo (fun _ => True) (resourceCall request : VmM V K α) := within_call trivial

theorem resources_acquireResourceScope :
    ResourcesTo (fun _ => True) (acquireResourceScope register : VmM V K Unit) :=
  .bind (resources_of_local (local_reg _)) fun _ _ =>
    .bind (resources_of_local local_get) fun _ _ => resources_call

theorem resources_releaseResourceScope :
    ResourcesTo (fun _ => True) (releaseResourceScope register : VmM V K _) := by
  refine .bind (resources_of_local local_get) fun _ _ => .bind resources_call fun tracked _ => ?_
  cases tracked with
  | none => exact .bind (resources_of_local (local_reg _)) fun _ _ => trivial
  | some tracked =>
    dsimp only
    split <;> trivial

/-! ## Instructions -/

/-- The intrinsics on channels. -/
def RegInstr.OnChannels : RegInstr → Prop
  | .callIntrinsic _ intrinsic _ => intrinsic ∈ channelIntrinsics
  | _ => False

def RegInstr.OnTasks : RegInstr → Prop
  | .spawnTask .. | .awaitJoin .. | .cancelTask _ | .joinTasks _ | .selectWait .. => True
  | _ => False

def RegInstr.OnResources : RegInstr → Prop
  | .resourceAcquire _ => True
  | _ => False

/-- Push the operations of an instruction, then poll. -/
theorem within_thenPoll {ops : VmM V K (List (Op V K))} (h : ops.Within may kept AllPlain) :
    (do return .push ((← ops) ++ [.poll floor]) : VmM V K (Progress V K)).Within may kept
      Progress.Plain :=
  .bind h fun _ hops => within_pure (by simpa using hops)

/-- Do something without operations, then poll or drive. -/
theorem within_thenPush {body : VmM V K PUnit} {ops : List (Op V K)}
    (h : body.Within may kept fun _ => True) (hops : AllPlain ops) :
    (do body; return .push ops : VmM V K (Progress V K)).Within may kept Progress.Plain :=
  .bind h fun _ _ => within_pure hops

theorem channels_execute (h : instr.OnChannels) :
    ChannelsTo Progress.Plain (execute env unit floor frame instr : VmM V K _) := by
  cases instr with
  | callIntrinsic => exact within_thenPoll (channels_execIntrinsic ..)
  | _ => cases h

/-- Push the operations of an instruction on tasks, then poll. -/
theorem tasks_thenPoll {ops : VmM V K (List (Op V K))} (h : TasksTo AllInner ops) :
    TasksTo Progress.Inner (do return .push ((← ops) ++ [.poll floor])) :=
  .bind h fun _ hops => within_pure (allInner_append.mpr ⟨hops, by simp⟩)

theorem tasks_execute (h : instr.OnTasks) :
    TasksTo Progress.Inner (execute env unit floor frame instr : VmM V K _) := by
  cases instr with
  | spawnTask => exact tasks_thenPoll (tasks_execSpawnTask ..)
  | awaitJoin => exact tasks_thenPoll (tasks_execAwaitJoin ..)
  | cancelTask => exact tasks_thenPoll (tasks_execCancelTask ..)
  | joinTasks => exact tasks_thenPoll (tasks_execJoinTasks ..)
  | selectWait => exact tasks_thenPoll (tasks_execSelectWait ..)
  | _ => cases h

theorem resources_execute (h : instr.OnResources) :
    ResourcesTo Progress.Plain (execute env unit floor frame instr : VmM V K _) := by
  cases instr with
  | resourceAcquire => exact within_thenPush resources_acquireResourceScope (by simp)
  | _ => cases h

theorem local_execute (hchannels : ¬instr.OnChannels) (htasks : ¬instr.OnTasks)
    (hresources : ¬instr.OnResources) :
    LocalTo Progress.Plain (execute env unit floor frame instr : VmM V K _) := by
  have hpoll : AllPlain [(.poll floor : Op V K)] := by simp
  have hdrive : AllPlain [(.drive floor : Op V K)] := by simp
  cases instr with
  | plain => exact within_thenPush (local_execPlain ..) hpoll
  | deepCopyElided => exact within_pure hpoll
  | tailCallGuard =>
    refine .bind local_get fun vm _ => ?_
    split
    · trivial
    · exact within_thenPush (local_updateFrame _) hpoll
  | runtimeError => trivial
  | jump => exact within_thenPush (local_setIp _) hpoll
  | jumpIf =>
    refine .bind (local_regs ..) fun _ _ => .bind local_hostCall fun taken _ => ?_
    cases taken with
    | false => exact within_pure hpoll
    | true => exact within_thenPush (local_setIp _) hpoll
  | matchCase =>
    exact .bind (local_reg _) fun _ _ => .bind local_hostCall fun _ _ =>
      within_thenPush (local_setIp _) hpoll
  | matchGet => exact within_thenPush (local_execMatchGet ..) hpoll
  | makeClosure =>
    exact .bind (local_execMakeClosure ..) fun _ _ => within_thenPush (local_setReg ..) hpoll
  | callKnown =>
    refine .bind local_get fun vm _ => ?_
    split
    · trivial
    · exact .bind (local_functionAt ..) fun _ _ => within_thenPush (local_callFunction ..) hdrive
  | callDynamic => exact within_thenPush (local_execCallDynamic ..) hdrive
  | spawnTask | awaitJoin | cancelTask | joinTasks | selectWait => exact absurd trivial htasks
  | callExternal => exact .bind local_hostCall fun _ _ => trivial
  | callClosure =>
    exact .bind (local_reg _) fun _ _ => .bind (local_expectClosure ..) fun _ _ =>
      within_pure (by simp)
  | listFilter | listMap => exact local_execPipeline ..
  | listFold | callback => exact within_thenPoll (local_execCallback ..)
  | callIntrinsic => exact within_thenPoll (local_execIntrinsic _ hchannels)
  | callTypedIntrinsic => exact within_thenPush (local_execTypedIntrinsic ..) hpoll
  | tryResult =>
    refine .bind (local_reg _) fun _ _ => .bind local_liftResult fun view _ => ?_
    cases view with
    | payload => exact within_thenPush (local_setReg ..) hpoll
    | shortCircuit =>
      refine within_pure (allPlain_append.mpr ⟨fun op hop => ?_, by simp⟩)
      obtain ⟨register, -, rfl⟩ := List.mem_map.mp hop
      trivial
  | resourceAcquire => exact absurd trivial hresources
  | resourceDrop => exact within_pure (by simp)
  | ret => exact .bind (local_reg _) fun _ _ => local_leaveFrame ..
  | native => trivial

/-! ## Inner operations -/

/-- A program that makes no channel call. -/
abbrev QuietTo (returned : α → Prop) (program : VmM V K α) : Prop :=
  program.Within VmCall.OnResources Quiet returned

/-- Whatever an instruction may do. -/
abbrev EvolvesTo (returned : α → Prop) (program : VmM V K α) : Prop :=
  program.Within (fun _ => True) Evolves returned

theorem quiet_of_local (h : LocalTo returned program) : QuietTo returned program :=
  (resources_of_local h).mono (fun _ => id) (fun _ _ h => h.quiet) fun _ => id

theorem quiet_of_resources (h : ResourcesTo returned program) : QuietTo returned program :=
  h.mono (fun _ => id) (fun _ _ h => h.quiet) fun _ => id

theorem quiet_of_tasks (h : TasksTo returned program) : QuietTo returned program :=
  h.mono (fun _ hhost => hhost.within.2) (fun _ _ => id) fun _ => id

theorem evolves_of_quiet (h : QuietTo returned program) : EvolvesTo returned program :=
  h.mono (fun _ _ => trivial) (fun _ _ h => h.evolves) fun _ => id

theorem evolves_of_channels (h : ChannelsTo returned program) : EvolvesTo returned program :=
  h.mono (fun _ _ => trivial) (fun _ _ h => h.tasks.evolves) fun _ => id

theorem within_inner {program : VmM V K (Progress V K)}
    (h : program.Within may kept Progress.Plain) :
    program.Within may kept Progress.Inner :=
  h.mono (fun _ => id) (fun _ _ => id) fun _ => Progress.Plain.inner

theorem quiet_execute (h : ¬instr.OnChannels) :
    QuietTo Progress.Inner (execute env unit floor frame instr : VmM V K _) := by
  by_cases htasks : instr.OnTasks
  · exact quiet_of_tasks (tasks_execute env unit htasks)
  · by_cases hresources : instr.OnResources
    · exact quiet_of_resources (within_inner (resources_execute env unit hresources))
    · exact quiet_of_local (within_inner (local_execute env unit h htasks hresources))

theorem evolves_execute :
    EvolvesTo Progress.Inner (execute env unit floor frame instr : VmM V K _) := by
  by_cases h : instr.OnChannels
  · exact evolves_of_channels (within_inner (channels_execute env unit h))
  · exact evolves_of_quiet (quiet_execute env unit h)

/-- A round of the top frame stays within what its instruction stays within. -/
theorem within_advance {returned : Progress V K → Prop}
    (hlocal : ∀ {α : Type} {returned : α → Prop} {program : VmM V K α}, LocalTo returned program →
      program.Within may kept returned)
    (hreturned : ∀ progress : Progress V K, progress.Plain → returned progress)
    (hexecute : ∀ instr, frame.func.code[frame.ip]? = some instr →
      (execute env unit floor { frame with ip := frame.ip + 1 } instr).Within may kept returned) :
    (advance env unit floor frame : VmM V K _).Within may kept returned := by
  unfold advance
  split
  · exact (hlocal (local_leaveFrame ..)).mono (fun _ => id) (fun _ _ => id) hreturned
  · rename_i instr hinstr
    exact .bind (hlocal local_hostCall) fun _ _ => .bind (hlocal (local_setIp _)) fun _ _ =>
      hexecute instr hinstr

theorem quiet_advance (h : ∀ instr, frame.func.code[frame.ip]? = some instr → ¬instr.OnChannels) :
    QuietTo Progress.Inner (advance env unit floor frame : VmM V K _) :=
  within_advance env unit quiet_of_local (fun _ => Progress.Plain.inner) fun instr hinstr =>
    quiet_execute env unit (h instr hinstr)

theorem evolves_driveStep : EvolvesTo Progress.Inner (driveStep env unit floor : VmM V K _) :=
  .bind (evolves_of_quiet (quiet_of_local local_activeFrame)) fun _ _ =>
    within_advance env unit (fun h => evolves_of_quiet (quiet_of_local h))
      (fun _ => Progress.Plain.inner) fun _ _ => evolves_execute ..

variable (order : HashOrder)

theorem resources_cleanup :
    ResourcesTo Progress.Plain (perform env unit order (.cleanup task firstError) : VmM V K _) := by
  refine .bind resources_call fun tracked _ => ?_
  cases tracked with
  | some tracked => exact within_pure (by simp)
  | none =>
    refine .bind resources_call fun _ _ => ?_
    cases firstError with
    | none => exact within_pure allPlain_nil
    | some error => trivial

/-- The plain operations other than `drive`. -/
theorem resources_perform (h : op.Plain) (hdrive : ∀ floor, op ≠ .drive floor) :
    ResourcesTo Progress.Plain (perform env unit order op) := by
  cases op with
  | drive floor => exact absurd rfl (hdrive floor)
  | poll floor =>
    refine .bind (resources_of_local local_get) fun vm _ => ?_
    split
    · trivial
    · exact within_pure (by simp)
  | leave => exact resources_of_local (local_leaveFrame ..)
  | setReg => exact within_thenPush (resources_of_local (local_setReg ..)) allPlain_nil
  | release =>
    exact .bind (resources_releaseResourceScope ..) fun _ _ =>
      within_pure (by simp)
  | drop =>
    exact .bind (.forM fun _ _ => resources_call) fun _ _ =>
      .bind (resources_of_local (local_runResourceDrop ..)) fun _ hops => within_pure hops
  | callClosure =>
    exact .bind (resources_of_local (local_callClosure ..)) fun _ _ =>
      within_pure (by simp)
  | cleanup => exact resources_cleanup ..
  | dropped | closureReturn | resume => trivial
  | _ => cases h

/-- The inner operations other than `drive`. -/
theorem quiet_perform (h : op.Inner) (hdrive : ∀ floor, op ≠ .drive floor) :
    QuietTo Progress.Inner (perform env unit order op) := by
  by_cases hplain : op.Plain
  · exact quiet_of_resources (within_inner (resources_perform env unit order hplain hdrive))
  · cases op with
    | joinAll tasks =>
      cases tasks with
      | nil => exact within_pure allInner_nil
      | cons =>
        exact .bind (quiet_of_tasks (tasks_removeTask _)) fun _ _ =>
          within_pure (by simp [Progress.Inner])
    | cancelLosers handles =>
      cases handles with
      | nil => exact within_pure allInner_nil
      | cons =>
        exact .bind (quiet_of_tasks (tasks_cancelLoser ..)) fun _ hops =>
          within_pure (allInner_append.mpr ⟨hops, by simp⟩)
    | _ => exact absurd h hplain

theorem evolves_perform (h : op.Inner) : EvolvesTo Progress.Inner (perform env unit order op) := by
  by_cases hdrive : ∃ floor, op = .drive floor
  · obtain ⟨floor, rfl⟩ := hdrive
    exact evolves_driveStep ..
  · exact evolves_of_quiet (quiet_perform env unit order h fun floor hop => hdrive ⟨floor, hop⟩)

theorem local_receive (outcome : Outcome V) (h : op.Inner) :
    LocalTo Progress.Plain (receive env outcome op) := by
  cases op with
  | dropped =>
    refine .bind local_synchronous fun result _ => ?_
    split
    · exact within_pure allPlain_nil
    · trivial
  | closureReturn =>
    exact .bind local_synchronous fun _ _ =>
      within_thenPush (local_returnFromClosure ..) allPlain_nil
  | resume =>
    exact .bind local_synchronous fun _ _ => .bind local_hostCall fun _ _ =>
      .bind local_continueHost fun _ hops => within_pure hops
  | drive | poll | leave | setReg | release | drop | callClosure | cleanup | joinAll | cancelLosers =>
    trivial
  | _ => cases h

end Environment

/-! ## Runs -/

section Run

variable {H : Type} {program : VmM V K α} {vm : Machine V} {world' : World V H}

/-- What a call does not reach stays as it is. -/
theorem answer_resources (request : VmCall V K β) (world : World V H) (h : request.OnChannels) :
    (answer host β request world).2.resources = world.resources := by
  cases request with
  | host | channel => rfl
  | resource => cases h

theorem answer_channels (request : VmCall V K β) (world : World V H) (h : request.OnResources) :
    (answer host β request world).2.channels = world.channels := by
  cases request with
  | host | resource => rfl
  | channel => cases h

instance : IsPreorder (Machine V) SameSchedule where
  refl := .refl
  trans _ _ _ := .trans

instance : IsPreorder (Machine V) MayPark where
  refl _ := ⟨rfl, .inl rfl⟩
  trans _ _ _ := .trans

instance : IsPreorder (Machine V) Evolves where
  refl vm := (SameSchedule.refl vm).quiet.evolves
  trans _ _ _ := .trans

instance : IsPreorder (Machine V) Quiet where
  refl vm := (SameSchedule.refl vm).quiet
  trans _ _ _ h h' := ⟨h.evolves.trans h'.evolves, h.channelWait.trans h'.channelWait⟩

theorem run_local (h : LocalTo returned program)
    (hrun : program.runOn (answer host) vm world = .ok (result, vm', world')) :
    SameSchedule vm vm' ∧ world'.channels = world.channels ∧ world'.resources = world.resources := by
  have hanswer {β : Type} (request : VmCall V K β) (world : World V H) (h : request.IsHost) :
      Same (fun world => (world.channels, world.resources)) world
        (answer host β request world).2 := by
    cases request with
    | host => rfl
    | channel | resource => cases h
  obtain ⟨hsame, hworld⟩ := h.runOn _ hanswer hrun
  exact ⟨hsame, Prod.mk.inj hworld⟩

theorem run_quiet (h : QuietTo returned program)
    (hrun : program.runOn (answer host) vm world = .ok (result, vm', world')) :
    Quiet vm vm' ∧ world'.channels = world.channels :=
  h.runOn (Same World.channels) answer_channels hrun

end Run

end RSScript.Vm
