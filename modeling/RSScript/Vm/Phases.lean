import RSScript.Vm.Reach

/-!
# The phases of the scheduler

The agenda of a run is the inner operations of the instruction that is being
executed, in front of what is left of the scheduler's loop. The latter is a small
state machine of its own, whatever the program is.
-/

namespace RSScript.Vm

open Program Config

variable {V H K : Type}

/-- Where the scheduler goes on after it has woken tasks. -/
inductive Loop where
  | schedule (root : Nat)
  | dispatch (root : Nat)

/-- The end of a resolved wait: its result is written and the task queued. -/
inductive Completion (V : Type) where
  | wait (task : Nat) (value : V)
  | select (task winnerDst index valueDst : Nat) (value : V)

inductive Phase (V : Type) where
  | looping (loop : Loop)
  | waking (loop : Loop)
  | resolving (tasks : List Nat) (loop : Loop)
  | completing (completion : Completion V) (tasks : List Nat) (loop : Loop)
  | running (root task : Nat)
  | concluding
  | closing (result : Except EvalError V)
  | sweeping (tasks : List Nat) (firstError : Option EvalError) (result : Except EvalError V)
  | delivering (result : Except EvalError V)
  | ended

def Loop.op : Loop → Op V K
  | .schedule root => .schedule root
  | .dispatch root => .dispatch root

def Completion.op : Completion V → Op V K
  | .wait task value => .completeWait task value
  | .select task winnerDst index valueDst value =>
    .completeSelect task winnerDst index valueDst value

/-- The task that is woken. -/
def Completion.task : Completion V → Nat
  | .wait task _ | .select task _ _ _ _ => task

attribute [local simp] Completion.op runOn_call perform settleTask resolveWait answerChannel
  completeWait Config.ofResult channelCall Config.step answer Config.proceed dispatchTask Op.Inner
  Op.Plain functionAt

theorem Completion.op_injective {completion completion' : Completion V}
    (h : (completion.op : Op V K) = completion'.op) : completion = completion' := by
  cases completion <;> cases completion' <;> simp_all

/-- What the agenda holds in a phase. -/
def Phase.ops : Phase V → List (Op V K)
  | .looping loop => [loop.op, .conclude]
  | .waking loop => [.satisfyWaiters, loop.op, .conclude]
  | .resolving tasks loop => [.resolveWaits tasks, .satisfyWaiters, loop.op, .conclude]
  | .completing completion tasks loop =>
    [completion.op, .resolveWaits tasks, .satisfyWaiters, loop.op, .conclude]
  | .running root task => [.settle root task, .conclude]
  | .concluding => [.conclude]
  | .closing result => [.cleanupAll, .deliver result]
  | .sweeping tasks firstError result => [.sweep tasks firstError, .deliver result]
  | .delivering result => [.deliver result]
  | .ended => []

/-- The tasks of the current pass whose waits are still to be resolved. -/
def Phase.pending : Phase V → List Nat
  | .resolving tasks _ | .completing _ tasks _ => tasks
  | _ => []

/-- The resolved wait whose result is still to be written. -/
def Phase.completion : Phase V → Option (Completion V)
  | .completing completion _ _ => some completion
  | _ => none

/-- The agenda is that of the phase, with inner operations in front. -/
structure Config.At (config : Config V H K) (inner : List (Op V K)) (phase : Phase V) : Prop where
  agenda : config.agenda = inner ++ phase.ops
  inner : AllInner inner

/-- The phases a step can lead to that changes no task and resolves no wait. -/
def Phase.Leads (phase after : Phase V) : Prop :=
  after = phase ∨ after.completion = none ∧ (after.pending = [] ∨ after.pending = phase.pending)

/-- Operations are dropped, and plain ones put in front. -/
def Fewer (inner after : List (Op V K)) : Prop :=
  ∃ first rest, after = first ++ rest ∧ rest <:+ inner ∧ AllPlain first

theorem Fewer.nil (inner : List (Op V K)) : Fewer inner [] :=
  ⟨[], [], rfl, List.nil_suffix, allPlain_nil⟩

theorem Fewer.refl (inner : List (Op V K)) : Fewer inner inner :=
  ⟨[], inner, rfl, List.suffix_refl inner, allPlain_nil⟩

/-- The operations an inner operation puts in front. -/
def pushed : Except EvalError (Progress V K) → List (Op V K)
  | .ok (.push ops) => ops
  | _ => []

/-- The tasks, what the running one waits for, the channels and the resources. -/
structure Config.Still (config next : Config V H K) : Prop where
  tasks : next.vm.tasks = config.vm.tasks
  nextTaskId : next.vm.nextTaskId = config.vm.nextTaskId
  suspension : next.vm.suspension = config.vm.suspension
  channels : next.world.channels = config.world.channels
  resources : next.world.resources = config.world.resources

theorem Config.Still.refl (config : Config V H K) : config.Still config := ⟨rfl, rfl, rfl, rfl, rfl⟩

section Moves

variable (env : Environment V) (unit : RegUnit) (order : HashOrder) (host : Host V H K)

/-- The program of the step that has `op` in front. -/
def Config.program (config : Config V H K) (op : Op V K) : VmM V K (Progress V K) :=
  match config.control with
  | .next => perform env unit order op
  | .yield outcome => receive env outcome op
  | .raise error => throw error
  | .halt _ | .panic _ => .panic .unreachable

/-- What a completion writes into the saved registers of its task. -/
def Completion.Writes (slot : TaskSlot V) (saved written : SavedTask V) : Completion V → Prop
  | .wait _ value => ∃ dst, slot.resumeDst = some dst ∧ written = saved.write dst value env.unit
  | .select _ winnerDst index valueDst value =>
    written = (saved.write winnerDst (env.int index) env.unit).write valueDst value env.unit

/-- What a step from `config` to `next` does, in a phase of the scheduler and with
inner operations in front. -/
inductive Config.Moves (config next : Config V H K) : List (Op V K) → Phase V → Prop where
  | idle {inner inner' : List (Op V K)} {phase phase' : Phase V} (at_next : next.At inner' phase')
      (fewer : Fewer inner inner') (leads : phase.Leads phase') (still : config.Still next) :
      Moves config next inner phase
  | inner {op : Op V K} {inner : List (Op V K)} {phase : Phase V}
      {result : Except EvalError (Progress V K)} (at_next : next.At (pushed result ++ inner) phase)
      (run : (config.program env unit order op).runOn (answer host) config.vm config.world =
        .ok (result, next.vm, next.world)) : Moves config next (op :: inner) phase
  | dispatched {root tid : Nat} {slot : TaskSlot V} {saved : SavedTask V}
      (at_next : next.At [.drive 0] (.running root tid)) (found : config.vm.slot tid = some slot)
      (runnable : slot.runnable) (parked : slot.saved = some saved)
      {queue : List Nat} (vm : next.vm = { config.vm with
        readyQueue := queue
        tasks := SortedMap.insert tid { slot with saved := none } config.vm.tasks
        running := saved
        currentTask := tid })
      (world : next.world = config.world) : Moves config next [] (.looping (.dispatch root))
  | finished {root tid : Nat} {slot : TaskSlot V} {value : V}
      (at_next : next.At [] (.waking (.schedule root))) (found : config.vm.slot tid = some slot)
      (tasks : next.vm.tasks =
        SortedMap.insert tid { slot with done := some value } config.vm.tasks)
      (nextTaskId : next.vm.nextTaskId = config.vm.nextTaskId)
      (suspension : next.vm.suspension = config.vm.suspension)
      (world : next.world = config.world) : Moves config next [] (.running root tid)
  | suspended {root tid : Nat} {slot : TaskSlot V} {suspension : Suspension V}
      (at_next : next.At [] (.waking (.schedule root))) (found : config.vm.slot tid = some slot)
      (waits : config.vm.suspension = some suspension)
      (vm : next.vm = { config.vm with
        tasks := SortedMap.insert tid { slot with
          saved := some config.vm.running
          resumeDst := suspension.resumeDst
          wait := some suspension.wait } config.vm.tasks
        suspension := none
        running := ⟨[], [], []⟩ })
      (world : next.world = config.world) : Moves config next [] (.running root tid)
  | woken {loop : Loop} (control : config.control = .next) (at_next : next.At [] (.resolving
        (config.vm.readyWaiters order config.world.channels.table) loop))
      (vm : next.vm = config.vm) (world : next.world = config.world) :
      Moves config next [] (.waking loop)
  | resolved {tid : Nat} {tasks : List Nat} {loop : Loop} {slot : TaskSlot V} {wait : Wait V}
      {ops : List (Op V K)} {completion : Completion V} (control : config.control = .next)
      (at_next : next.At ops (.completing completion tasks loop))
      (found : config.vm.slot tid = some slot) (waits : slot.wait = some wait)
      (run : (resolveWait env tid).runOn (answer host) config.vm config.world =
        .ok (.ok (ops ++ [completion.op]), next.vm, next.world)) :
      Moves config next [] (.resolving (tid :: tasks) loop)
  | completed {completion : Completion V} {tasks : List Nat} {loop : Loop} {slot : TaskSlot V}
      {saved written : SavedTask V} (at_next : next.At [] (.resolving tasks loop))
      (found : config.vm.slot completion.task = some slot) (parked : slot.saved = some saved)
      (writes : completion.Writes env slot saved written)
      (vm : next.vm = { config.vm with
        tasks := SortedMap.insert completion.task { slot with saved := some written } config.vm.tasks
        readyQueue := config.vm.readyQueue ++ [completion.task] })
      (world : next.world = config.world) : Moves config next [] (.completing completion tasks loop)

/-! ## The operations of the phases -/

variable {env unit order host}

variable {α : Type} {tid : Nat} {vm : Machine V} {world : World V H}
  {program : VmM V K (Progress V K)}

@[simp] theorem runOn_expect_some :
    (expect (some value) what : VmM V K α).runOn (answer host) vm world =
      .ok (.ok value, vm, world) :=
  rfl

@[simp] theorem runOn_expect_none :
    (expect none what : VmM V K α).runOn (answer host) vm world = .error (.expect what) :=
  rfl

@[simp] theorem runOn_setSlot : (setSlot tid slot : VmM V K Unit).runOn (answer host) vm world =
      .ok (.ok (), { vm with
        tasks := SortedMap.insert tid slot vm.tasks }, world) :=
  rfl

@[simp] theorem runOn_removeTask : (removeTask tid : VmM V K Unit).runOn (answer host) vm world =
      .ok (.ok (), { vm with tasks := vm.tasks.filter fun entry => entry.1 ≠ tid }, world) :=
  rfl

variable {slot : TaskSlot V} {saved : SavedTask V}

theorem runOn_writeSavedReg (hslot : vm.slot tid = some slot) (hsaved : slot.saved = some saved) :
    (writeSavedReg env tid dst value : VmM V K Unit).runOn (answer host) vm world =
      .ok (.ok (), { vm with
        tasks := SortedMap.insert tid { slot with saved := some (saved.write dst value env.unit) }
          vm.tasks }, world) := by
  simp [writeSavedReg, hslot, hsaved]

theorem runOn_completeWaitAt (hslot : vm.slot tid = some slot) (hsaved : slot.saved = some saved) :
    (completeWaitAt env tid dst value : VmM V K Unit).runOn (answer host) vm world =
      .ok (.ok (), { vm with
        tasks := SortedMap.insert tid { slot with saved := some (saved.write dst value env.unit) }
          vm.tasks
        readyQueue := vm.readyQueue ++ [tid] }, world) := by
  simp [completeWaitAt, runOn_writeSavedReg hslot hsaved]

/-- The machine after the wait of a task is taken. -/
def Machine.unwait (vm : Machine V) (tid : Nat) (slot : TaskSlot V) : Machine V :=
  { vm with
          tasks := SortedMap.insert tid { slot with wait := none } vm.tasks }

variable {tasks : List Nat}

section Resolve

variable (env host) {tid : Nat} {vm : Machine V} (world : World V H) {slot : TaskSlot V}
  (hslot : vm.slot tid = some slot)

include hslot

theorem resolveWait_recv (hwait : slot.wait = some (.channel (.recv channel))) :
    (resolveWait env tid : VmM V K _).runOn (answer host) vm world =
      .ok (.ok [.completeWait tid (recvResult env (channelRecv world.channels.table channel).1)],
        vm.unwait tid slot,
        { world with channels := (answerChannel _ (.recv channel) world.channels).2 }) := by
  simp [hslot, hwait, Machine.unwait]

theorem resolveWait_send (hwait : slot.wait = some (.channel (.send sender value))) :
    (resolveWait env tid : VmM V K _).runOn (answer host) vm world =
      .ok (.ok [.completeWait tid (sendResult env (channelSend world.channels.table sender value).1)],
        vm.unwait tid slot,
        { world with channels := (answerChannel _ (.send sender value) world.channels).2 }) := by
  simp [hslot, hwait, Machine.unwait]

theorem resolveWait_join (hwait : slot.wait = some (.join task)) :
    (resolveWait env tid : VmM V K _).runOn (answer host) vm world =
      match (vm.unwait tid slot).doneValue task with
      | none => .error (.expect "joined task finished")
      | some value => .ok (.ok [.cleanup task none, .completeWait tid value],
          { vm.unwait tid slot with
            tasks := (vm.unwait tid slot).tasks.filter fun entry => entry.1 ≠ task }, world) := by
  simp only [resolveWait, runOn_bind, hslot, hwait, runOn_get, andThen_returned, runOn_expect_some,
    runOn_setSlot]
  rw [← Machine.unwait]
  cases (vm.unwait tid slot).doneValue task <;> simp

theorem resolveWait_joinAll (hwait : slot.wait = some (.joinAll tasks)) :
    (resolveWait env tid : VmM V K _).runOn (answer host) vm world =
      .ok (.ok [.joinAll tasks, .completeWait tid env.unit], vm.unwait tid slot, world) := by
  simp [hslot, hwait, Machine.unwait]

theorem resolveWait_select (hwait : slot.wait = some (.select handles winnerDst valueDst)) :
    (resolveWait env tid : VmM V K _).runOn (answer host) vm world =
      match (vm.unwait tid slot).firstDone handles with
      | none => .error (.expect "a select arm finished")
      | some (task, index) =>
        match (vm.unwait tid slot).doneValue task with
        | none => .error (.expect "winning arm value")
        | some value => .ok (.ok [.cancelLosers handles task,
            .completeSelect tid winnerDst index valueDst value], vm.unwait tid slot, world) := by
  simp only [resolveWait, runOn_bind, hslot, hwait, runOn_get, andThen_returned, runOn_expect_some,
    runOn_setSlot]
  rw [← Machine.unwait]
  rcases (vm.unwait tid slot).firstDone handles with _ | ⟨task, index⟩
  · simp
  · cases hdone : (vm.unwait tid slot).doneValue task <;> simp [hdone]

end Resolve

/-- `resolve_wait` panics, or returns the operations that finish the wait. -/
theorem resolveWait_cases :
    (∃ what, (resolveWait env tid).runOn (answer host) vm world = .error (.expect what)) ∨
    ∃ slot wait ops, ∃ completion : Completion V, ∃ vm' world', vm.slot tid = some slot ∧
      slot.wait = some wait ∧ AllInner ops ∧ (resolveWait env tid).runOn (answer host) vm world =
        .ok (.ok (ops ++ [completion.op]), vm', world') := by
  rcases hslot : vm.slot tid with _ | slot
  · exact .inl ⟨"task slot", by simp [hslot]⟩
  rcases hwait : slot.wait with _ | wait
  · exact .inl ⟨"parked wait", by simp [hslot, hwait]⟩
  cases wait with
  | channel blocked =>
    cases blocked with
    | recv channel =>
      exact .inr ⟨slot, _, [], .wait tid _, _, _, rfl, hwait, allInner_nil, resolveWait_recv env host world hslot hwait⟩
    | send sender value =>
      exact .inr ⟨slot, _, [], .wait tid _, _, _, rfl, hwait, allInner_nil, resolveWait_send env host world hslot hwait⟩
  | join task =>
    have hrun := resolveWait_join env host world hslot hwait
    rcases hdone : (vm.unwait tid slot).doneValue task with _ | value
    · exact .inl ⟨_, by rw [hrun, hdone]⟩
    · refine .inr ⟨slot, _, [.cleanup task none], .wait tid value, _, _, rfl, hwait, ?_,
        by rw [hrun, hdone]; rfl⟩
      simp
  | joinAll tasks =>
    exact .inr ⟨slot, _, [.joinAll tasks], .wait tid _, _, _, rfl, hwait, by simp,
      resolveWait_joinAll env host world hslot hwait⟩
  | select handles winnerDst valueDst =>
    have hrun := resolveWait_select env host world hslot hwait
    rcases hfirst : (vm.unwait tid slot).firstDone handles with _ | ⟨task, index⟩
    · exact .inl ⟨_, by rw [hrun, hfirst]⟩
    · simp only [hfirst] at hrun
      rcases hdone : (vm.unwait tid slot).doneValue task with _ | value
      · exact .inl ⟨_, by rw [hrun, hdone]⟩
      · refine .inr ⟨slot, _, [.cancelLosers handles task],
          .select tid winnerDst index valueDst value, _, _, rfl, hwait, ?_, by rw [hrun, hdone]; rfl⟩
        simp

/-- A completion panics, or writes its results. -/
theorem complete_cases (completion : Completion V) :
    (∃ cause, (perform env unit order completion.op).runOn (answer host) vm world = .error cause) ∨
    ∃ slot saved written, vm.slot completion.task = some slot ∧ slot.saved = some saved ∧
      completion.Writes env slot saved written ∧
      (perform env unit order completion.op).runOn (answer host) vm world = .ok (.ok (.push []),
        { vm with
          tasks := SortedMap.insert completion.task { slot with saved := some written } vm.tasks
          readyQueue := vm.readyQueue ++ [completion.task] }, world) := by
  cases completion with
  | wait tid value =>
    rcases hslot : vm.slot tid with _ | slot
    · exact .inl ⟨.expect "task slot", by simp [hslot]⟩
    rcases hdst : slot.resumeDst with _ | dst
    · exact .inl ⟨.registerIndex (2 ^ 64 - 1),
        by simp [hslot, hdst]⟩
    rcases hsaved : slot.saved with _ | saved
    · exact .inl ⟨.expect "parked task state",
        by simp [completeWaitAt, writeSavedReg, hslot, hdst, hsaved]⟩
    · refine .inr ⟨slot, saved, _, hslot, hsaved, ⟨dst, hdst, rfl⟩, ?_⟩
      simp [Completion.task, hslot, hdst, runOn_completeWaitAt hslot hsaved]
  | select tid winnerDst index valueDst value =>
    rcases hslot : vm.slot tid with _ | slot
    · exact .inl ⟨.expect "task slot",
        by simp [writeSavedReg, hslot]⟩
    rcases hsaved : slot.saved with _ | saved
    · exact .inl ⟨.expect "parked task state",
        by simp [writeSavedReg, hslot, hsaved]⟩
    · refine .inr ⟨slot, saved, _, hslot, hsaved, rfl, ?_⟩
      have hslot' := vm.slot_insert tid tid
        { slot with saved := some (saved.write winnerDst (env.int index) env.unit) }
      rw [if_pos rfl] at hslot'
      simp [Completion.task, runOn_writeSavedReg hslot hsaved, runOn_completeWaitAt hslot' rfl]

variable {error : EvalError}

/-- The machine after a task finished. -/
def Machine.counted (vm : Machine V) : Machine V :=
  { vm with
    tasksCompleted := vm.tasksCompleted + 1
    tasksLive := vm.tasksLive - 1
    running := ⟨[], [], []⟩ }

@[simp] theorem runOn_countCompleted :
    (countCompleted : VmM V K Unit).runOn (answer host) vm world = .ok (.ok (), vm.counted, world) :=
  rfl

/-! ## Steps -/

variable {config : Config V H K} {inner : List (Op V K)}

theorem Config.proceed_returned
    (hrun : program.runOn (answer host) config.vm config.world = .ok (.ok progress, vm, world)) :
    config.proceed host rest program = .after rest vm world progress := by
  rw [proceed, hrun, ofResult]

theorem Config.proceed_failed
    (hrun : program.runOn (answer host) config.vm config.world = .ok (.error error, vm, world)) :
    config.proceed host rest program = ⟨vm, world, rest, .raise error⟩ := by
  rw [proceed, hrun, ofResult]

theorem Config.proceed_panicked
    (hrun : program.runOn (answer host) config.vm config.world = .error cause) :
    config.proceed host rest program = ⟨config.vm, config.world, [], .panic cause⟩ := by
  rw [proceed, hrun, ofResult]

section Then

variable {α : Type} {program : VmM V K α}

variable {next : α → Progress V K}

theorem Config.proceed_then {value : α}
    (hrun : program.runOn (answer host) config.vm config.world = .ok (.ok value, vm, world)) :
    config.proceed host rest (do return next (← program)) = .after rest vm world (next value) :=
  proceed_returned (by rw [runOn_bind, hrun]; rfl)

end Then

theorem Phase.leads_ended (phase : Phase V) : phase.Leads .ended := .inr ⟨rfl, .inl rfl⟩

variable {control : Control V}

/-- A panic ends the run where it was. -/
theorem Config.moves_panicked :
    config.Moves env unit order host ⟨config.vm, config.world, [], control⟩ inner phase :=
  have hat : At ⟨config.vm, config.world, [], control⟩ [] .ended := ⟨rfl, allInner_nil⟩
  .idle hat (.nil inner) phase.leads_ended ⟨rfl, rfl, rfl, rfl, rfl⟩

/-- A program of an inner operation leaves the phase as it is. -/
theorem Config.proceed_inner (hprogram : program = config.program env unit order op)
    (hwithin : EvolvesTo Progress.Inner program) (hinner : AllInner inner) :
    config.Moves env unit order host (config.proceed host (inner ++ phase.ops) program)
      (op :: inner) phase := by
  rcases hrun : program.runOn (answer host) config.vm config.world with
    cause | ⟨error | progress, vm, world⟩
  · rw [proceed_panicked hrun]
    exact moves_panicked
  · rw [proceed_failed hrun]
    rw [hprogram] at hrun
    have hat : At ⟨vm, world, inner ++ phase.ops, .raise error⟩ (pushed (.error error) ++ inner) phase :=
      ⟨rfl, hinner⟩
    exact .inner hat hrun
  · rw [proceed_returned hrun]
    have hreturned : progress.Inner := hwithin.returns hrun
    rw [hprogram] at hrun
    have hat : (after (inner ++ phase.ops) vm world progress).At (pushed (.ok progress) ++ inner)
        phase := by
      cases progress with
      | push ops => exact ⟨(List.append_assoc ..).symm, allInner_append.mpr ⟨hreturned, hinner⟩⟩
      | yield outcome => exact ⟨rfl, hinner⟩
      | halt result => cases hreturned
    exact .inner hat (by rw [hrun]; cases progress <;> rfl)

/-- A step panics with its program. -/
theorem Config.proceed_panic (h : (config.proceed host rest program).control = .panic cause) :
    program.runOn (answer host) config.vm config.world = .error cause := by
  rcases hrun : program.runOn (answer host) config.vm config.world with
    other | ⟨error | progress, vm, world⟩
  · rw [proceed_panicked hrun] at h
    cases h
    rfl
  · rw [proceed_failed hrun] at h
    cases h
  · rw [proceed_returned hrun] at h
    cases progress <;> cases h

theorem Config.moves_still (inner' : List (Op V K)) (phase' : Phase V)
    (hagenda : next.agenda = inner' ++ phase'.ops) (hinner : AllInner inner')
    (hfewer : Fewer inner inner') (hleads : phase.Leads phase') (hstill : config.Still next) :
    config.Moves env unit order host next inner phase :=
  .idle ⟨hagenda, hinner⟩ hfewer hleads hstill

/-- A step that only changes the agenda and the control. -/
theorem Config.moves_idle {agenda : List (Op V K)} (inner' : List (Op V K)) (phase' : Phase V)
    (hagenda : agenda = inner' ++ phase'.ops) (hinner : AllInner inner')
    (hfewer : Fewer inner inner') (hleads : phase.Leads phase') :
    config.Moves env unit order host ⟨config.vm, config.world, agenda, control⟩ inner phase :=
  moves_still inner' phase' hagenda hinner hfewer hleads ⟨rfl, rfl, rfl, rfl, rfl⟩

/-- A step of the scheduler that leaves no wait to resolve. -/
theorem Config.moves_to {agenda : List (Op V K)} (phase' : Phase V) (hagenda : agenda = phase'.ops)
    (hcompletion : phase'.completion = none) (hpending : phase'.pending = []) :
    config.Moves env unit order host ⟨config.vm, config.world, agenda, control⟩ inner phase :=
  moves_idle [] phase' hagenda allInner_nil (.nil inner) (.inr ⟨hcompletion, .inl hpending⟩)

section Next

variable (hcontrol : config.control = .next)

include hcontrol

theorem Config.step_next (hagenda : config.agenda = op :: rest) :
    config.step env unit order host = config.proceed host rest (perform env unit order op) := by
  simp only [step, hcontrol, hagenda]

theorem Config.moves_schedule (hagenda : config.agenda = [.schedule root, .conclude]) :
    config.Moves env unit order host (config.step env unit order host) []
      (.looping (.schedule root)) := by
  rw [step_next hcontrol hagenda, perform, proceed_returned rfl]
  cases config.vm.readyQueue with
  | nil => exact moves_to (.waking (.dispatch root)) rfl rfl rfl
  | cons => exact moves_to (.looping (.dispatch root)) rfl rfl rfl

theorem Config.moves_dispatch (hagenda : config.agenda = [.dispatch root, .conclude]) :
    config.Moves env unit order host (config.step env unit order host) []
      (.looping (.dispatch root)) := by
  rw [step_next hcontrol hagenda, perform]
  cases hqueue : config.vm.readyQueue with
  | nil =>
    simp [hqueue]
    exact moves_to .concluding rfl rfl rfl
  | cons tid queue =>
    by_cases hrunnable : (config.vm.slot tid).any TaskSlot.runnable
    · rcases hslot : config.vm.slot tid with _ | slot
      · simp [hslot] at hrunnable
      · have hslotRunnable : slot.runnable := by simpa [hslot] using hrunnable
        obtain ⟨saved, hsaved⟩ :=
          Option.isSome_iff_exists.mp (Bool.and_eq_true_iff.mp hslotRunnable).2
        have hslot' : { config.vm with readyQueue := queue }.slot tid = some slot := hslot
        simp [swapIn, hqueue, hslot, hslot', hslotRunnable, hsaved]
        exact .dispatched ⟨rfl, by simp⟩ hslot hslotRunnable hsaved rfl rfl
    · simp [hqueue, hrunnable]
      exact moves_still [] (.looping (.schedule root)) rfl allInner_nil (.nil _) (.inr ⟨rfl, .inl rfl⟩)
        ⟨rfl, rfl, rfl, rfl, rfl⟩

theorem Config.moves_satisfy (hagenda : config.agenda = [.satisfyWaiters, loop.op, .conclude]) :
    config.Moves env unit order host (config.step env unit order host) [] (.waking loop) := by
  rw [step_next hcontrol hagenda]
  cases hready : config.vm.readyWaiters order config.world.channels.table with
  | nil =>
    simp [hready]
    exact moves_to (.looping loop) rfl rfl rfl
  | cons tid tids =>
    simp [hready]
    exact .woken hcontrol ⟨by rw [hready]; rfl, allInner_nil⟩ rfl rfl

theorem Config.moves_resolve
    (hagenda : config.agenda = [.resolveWaits (tid :: tids), .satisfyWaiters, loop.op, .conclude]) :
    config.Moves env unit order host (config.step env unit order host) []
      (.resolving (tid :: tids) loop) := by
  rw [step_next hcontrol hagenda, perform]
  rcases resolveWait_cases with ⟨what, hrun⟩ |
    ⟨slot, wait, ops, completion, vm, world, hslot, hwait, hinner, hrun⟩
  · rw [proceed, runOn_bind, hrun]
    exact moves_panicked
  · rw [proceed_then hrun]
    exact .resolved hcontrol ⟨by simp [after, Phase.ops], hinner⟩ hslot hwait hrun

theorem Config.moves_complete
    (hagenda : config.agenda = [completion.op, .resolveWaits tids, .satisfyWaiters, loop.op,
      .conclude]) :
    config.Moves env unit order host (config.step env unit order host) []
      (.completing completion tids loop) := by
  rw [step_next hcontrol hagenda]
  rcases complete_cases completion with ⟨cause, hrun⟩ |
    ⟨slot, saved, written, hslot, hsaved, hwrites, hrun⟩
  · rw [proceed_panicked hrun]
    exact moves_panicked
  · rw [proceed_returned hrun]
    exact .completed ⟨rfl, allInner_nil⟩ hslot hsaved hwrites rfl rfl

/-- The operations after the end of the program. -/
theorem Config.moves_closing (hagenda : config.agenda = [.cleanupAll, .deliver result]) :
    config.Moves env unit order host (config.step env unit order host) [] (.closing result) := by
  rw [step_next hcontrol hagenda]
  simp [resourceCall, answerResource]
  exact moves_to (.sweeping _ none result) rfl rfl rfl

theorem Config.moves_sweeping
    (hagenda : config.agenda = [.sweep tasks firstError, .deliver result]) :
    config.Moves env unit order host (config.step env unit order host) []
      (.sweeping tasks firstError result) := by
  rw [step_next hcontrol hagenda]
  cases tasks with
  | cons task tasks =>
    rw [perform, proceed_returned rfl]
    have hplain : AllPlain [(.cleanup task none : Op V K)] := by simp
    exact moves_idle [.cleanup task none] (.sweeping tasks firstError result) rfl hplain.inner
      ⟨_, [], rfl, List.nil_suffix, hplain⟩ (.inr ⟨rfl, .inl rfl⟩)
  | nil =>
    cases firstError with
    | none =>
      rw [perform, proceed_returned rfl]
      exact moves_to (.delivering result) rfl rfl rfl
    | some error =>
      rw [perform, proceed_failed rfl]
      exact moves_to (.delivering result) rfl rfl rfl

theorem Config.moves_phase (h : config.agenda = phase.ops) :
    config.Moves env unit order host (config.step env unit order host) [] phase := by
  cases phase with
  | looping loop =>
    cases loop with
    | schedule root => exact moves_schedule hcontrol h
    | dispatch root => exact moves_dispatch hcontrol h
  | waking loop => exact moves_satisfy hcontrol h
  | resolving tasks loop =>
    cases tasks with
    | nil =>
      rw [step_next hcontrol h, perform, proceed_returned rfl]
      exact moves_to (.waking loop) rfl rfl rfl
    | cons tid tids => exact moves_resolve hcontrol h
  | completing completion tasks loop => exact moves_complete hcontrol h
  | running root task =>
    rw [step_next hcontrol h, perform, proceed_panicked rfl]
    exact moves_panicked
  | concluding =>
    rw [step_next hcontrol h, perform, proceed_panicked rfl]
    exact moves_panicked
  | closing result => exact moves_closing hcontrol h
  | sweeping tasks firstError result => exact moves_sweeping hcontrol h
  | delivering result =>
    rw [step_next hcontrol h, perform, proceed_returned rfl]
    exact moves_panicked
  | ended =>
    simp [hcontrol, h, Phase.ops]
    exact moves_to .ended rfl rfl rfl

end Next

section Yield

variable {outcome : Outcome V} (hcontrol : config.control = .yield outcome)

include hcontrol

theorem Config.step_yield (hagenda : config.agenda = op :: rest) :
    config.step env unit order host = config.proceed host rest (receive env outcome op) := by
  simp only [step, hcontrol, hagenda]

theorem Config.moves_settle (hagenda : config.agenda = [.settle root tid, .conclude]) :
    config.Moves env unit order host (config.step env unit order host) [] (.running root tid) := by
  rw [step_yield hcontrol hagenda, receive]
  cases outcome with
  | completed value =>
    by_cases hroot : tid = root
    · rcases hhost : host _ (.refreshLiveMemory value) config.world.host with ⟨error | _, state⟩
      · simp [hroot, hostCall, hhost]
        exact moves_still [] .concluding rfl allInner_nil (.nil _) (.inr ⟨rfl, .inl rfl⟩)
          ⟨rfl, rfl, rfl, rfl, rfl⟩
      · simp [hroot, hostCall, hhost]
        exact moves_still [] .concluding rfl allInner_nil (.nil _) (.inr ⟨rfl, .inl rfl⟩)
          ⟨rfl, rfl, rfl, rfl, rfl⟩
    · rcases hslot : config.vm.slot tid with _ | slot
      · have hslot' : config.vm.counted.slot tid = none := hslot
        simp [hroot, hslot']
        exact moves_panicked
      · have hslot' : config.vm.counted.slot tid = some slot := hslot
        simp [hroot, hslot']
        exact .finished ⟨rfl, allInner_nil⟩ hslot rfl rfl rfl rfl
  | suspended =>
    rcases hwait : config.vm.suspension with _ | suspension
    · simp [hwait]
      exact moves_panicked
    · rcases hslot : config.vm.slot tid with _ | slot
      · have hslot' : { config.vm with suspension := none }.slot tid = none := hslot
        simp [hwait, swapOut, hslot']
        exact moves_panicked
      · have hslot' : { config.vm with suspension := none }.slot tid = some slot := hslot
        simp [hwait, swapOut, hslot']
        exact .suspended ⟨rfl, allInner_nil⟩ hslot hwait rfl rfl

theorem Config.moves_yield (h : config.agenda = phase.ops) :
    config.Moves env unit order host (config.step env unit order host) [] phase := by
  cases phase with
  | running root task => exact moves_settle hcontrol h
  | concluding =>
    rw [step_yield hcontrol h]
    cases outcome with
    | completed value =>
      rw [receive, proceed_returned rfl]
      exact moves_to (.closing (.ok value)) rfl rfl rfl
    | suspended =>
      rw [receive, proceed_failed rfl]
      exact moves_panicked
  | looping loop =>
    rw [step_yield hcontrol h]
    cases loop <;> exact moves_panicked
  | completing completion =>
    rw [step_yield hcontrol h]
    cases completion <;> exact moves_panicked
  | waking | resolving | closing | sweeping | delivering =>
    rw [step_yield hcontrol h]
    exact moves_panicked
  | ended =>
    simp [hcontrol, h, Phase.ops]
    exact moves_to .ended rfl rfl rfl

end Yield

section Raise

variable {error : EvalError} (hcontrol : config.control = .raise error)

include hcontrol

theorem Config.step_unhandled (hagenda : config.agenda = op :: rest)
    (hop : handle error op = none) :
    config.step env unit order host = { config with agenda := rest } := by
  simp only [step, hcontrol, hagenda, hop]

theorem Config.step_handled (hagenda : config.agenda = op :: rest)
    (hop : handle error op = some progress) :
    config.step env unit order host = .after rest config.vm config.world progress := by
  simp only [step, hcontrol, hagenda, hop]

theorem Config.moves_raise (h : config.agenda = phase.ops) :
    config.Moves env unit order host (config.step env unit order host) [] phase := by
  cases phase with
  | looping loop =>
    rw [step_unhandled hcontrol h (by cases loop <;> rfl)]
    exact moves_to .concluding rfl rfl rfl
  | waking loop =>
    rw [step_unhandled hcontrol h rfl]
    exact moves_to (.looping loop) rfl rfl rfl
  | resolving tasks loop =>
    rw [step_unhandled hcontrol h rfl]
    exact moves_to (.waking loop) rfl rfl rfl
  | completing completion tasks loop =>
    rw [step_unhandled hcontrol h (by cases completion <;> rfl)]
    exact moves_idle [] (.resolving tasks loop) rfl allInner_nil (.nil _) (.inr ⟨rfl, .inr rfl⟩)
  | running root task =>
    rw [step_unhandled hcontrol h rfl]
    exact moves_to .concluding rfl rfl rfl
  | concluding =>
    rw [step_handled hcontrol h rfl]
    exact moves_to (.closing (.error error)) rfl rfl rfl
  | closing result =>
    rw [step_unhandled hcontrol h rfl]
    exact moves_to (.delivering result) rfl rfl rfl
  | sweeping tasks firstError result =>
    rw [step_handled hcontrol h rfl]
    exact moves_to (.sweeping tasks (firstError.or (some error)) result) rfl rfl rfl
  | delivering result => cases result <;> (rw [step_handled hcontrol h rfl]; exact moves_panicked)
  | ended =>
    simp [hcontrol, h, Phase.ops]
    exact moves_to .ended rfl rfl rfl

/-- A cleanup remembers the first failure; the other inner operations are dropped. -/
theorem Config.moves_raise_inner (hop : op.Inner) (hinner : AllInner inner)
    (h : config.agenda = op :: (inner ++ phase.ops)) :
    config.Moves env unit order host (config.step env unit order host) (op :: inner) phase := by
  cases op with
  | cleanup task firstError =>
    rw [step_handled hcontrol h rfl]
    exact moves_idle (.cleanup task (firstError.or (some error)) :: inner) phase rfl
      (allInner_cons.mpr ⟨trivial, hinner⟩)
      ⟨[.cleanup task _], inner, rfl, List.suffix_cons _ _, by simp⟩ (.inl rfl)
  | drive | poll | leave | setReg | release | drop | dropped | callClosure | closureReturn | resume
  | joinAll | cancelLosers =>
    rw [step_unhandled hcontrol h rfl]
    exact moves_idle inner phase rfl hinner ⟨[], inner, rfl, List.suffix_cons _ _, allPlain_nil⟩
      (.inl rfl)
  | _ => cases hop

end Raise

/-- Every step from a phase is one of the moves. -/
theorem Config.At.moves (h : config.At inner phase) :
    config.Moves env unit order host (config.step env unit order host) inner phase := by
  cases hcontrol : config.control with
  | halt _ | panic _ =>
    simp [hcontrol]
    exact .idle h (.refl inner) (.inl rfl) (.refl config)
  | next =>
    cases inner with
    | nil => exact moves_phase hcontrol h.agenda
    | cons op inner =>
      obtain ⟨hop, hinner⟩ := allInner_cons.mp h.inner
      rw [step_next hcontrol h.agenda]
      exact proceed_inner (by rw [program, hcontrol]) (evolves_perform env unit order hop) hinner
  | yield outcome =>
    cases inner with
    | nil => exact moves_yield hcontrol h.agenda
    | cons op inner =>
      obtain ⟨hop, hinner⟩ := allInner_cons.mp h.inner
      rw [step_yield hcontrol h.agenda]
      exact proceed_inner (by rw [program, hcontrol])
        (evolves_of_quiet (quiet_of_local (within_inner (local_receive env outcome hop)))) hinner
  | raise error =>
    cases inner with
    | nil => exact moves_raise hcontrol h.agenda
    | cons op inner =>
      obtain ⟨hop, hinner⟩ := allInner_cons.mp h.inner
      exact moves_raise_inner hcontrol hop hinner h.agenda

/-! ## Inner steps -/

/-- The instruction the next step executes. -/
def Config.instruction (config : Config V H K) : Option RegInstr :=
  match config.control, config.agenda with
  | .next, .drive _ :: _ => config.vm.running.frames.head?.bind fun frame => frame.func.code[frame.ip]?
  | _, _ => none

variable {next : Config V H K}

theorem driveStep_run : (driveStep env unit floor : VmM V K _).runOn (answer host) vm world =
      match vm.running.frames.head? with
      | none => .error (.expect "active frame")
      | some frame => (advance env unit floor frame).runOn (answer host) vm world := by
  rcases hframe : vm.running.frames.head? with _ | frame <;>
    simp [driveStep, activeFrame, hframe]

theorem evolves_program (hop : op.Inner) : EvolvesTo Progress.Inner (config.program env unit order op) := by
  unfold program
  split
  · exact evolves_perform env unit order hop
  · exact evolves_of_quiet (quiet_of_local (within_inner (local_receive env _ hop)))
  all_goals trivial

/-- A step of an inner operation that is not a channel instruction. -/
theorem Config.At.quiet (hat : config.At (op :: inner) phase)
    (hinstr : ∀ instr, config.instruction = some instr → ¬instr.OnChannels)
    (hrun : (config.program env unit order op).runOn (answer host) config.vm config.world =
      .ok (result, next.vm, next.world)) :
    Quiet config.vm next.vm ∧ next.world.channels = config.world.channels := by
  have hop : op.Inner := (allInner_cons.mp hat.inner).1
  rcases hcontrol : config.control with _ | outcome | error | _ | _
  · simp only [program, hcontrol] at hrun
    by_cases hdrive : ∃ floor, op = .drive floor
    · obtain ⟨floor, rfl⟩ := hdrive
      rw [perform, driveStep_run] at hrun
      split at hrun
      · cases hrun
      · rename_i frame hframe
        refine run_quiet (quiet_advance env unit fun instr hcode => hinstr instr ?_) hrun
        simp [instruction, hcontrol, hat.agenda, hframe, hcode]
    · exact run_quiet (quiet_perform env unit order hop fun floor hfloor => hdrive ⟨floor, hfloor⟩) hrun
  · simp only [program, hcontrol] at hrun
    exact run_quiet (quiet_of_local (within_inner (local_receive env outcome hop))) hrun
  · simp only [program, hcontrol] at hrun
    have hthrow : QuietTo (fun _ => True) (throw error : VmM V K (Progress V K)) := trivial
    exact run_quiet hthrow hrun
  · simp [program, hcontrol] at hrun
  · simp [program, hcontrol] at hrun

/-- The slots and waits a resolution leaves behind. -/
structure Unwaits (vm vm' : Machine V) : Prop where
  slots : ∀ tid slot, vm'.slot tid = some slot → slot.wait = none ∨ vm.slot tid = some slot
  suspension : vm'.suspension = vm.suspension
  nextTaskId : vm'.nextTaskId = vm.nextTaskId

theorem Unwaits.refl (vm : Machine V) : Unwaits vm vm := ⟨fun _ _ => .inr, rfl, rfl⟩

theorem Unwaits.trans (h : Unwaits vm vm') (h' : Unwaits vm' vm'') : Unwaits vm vm'' where
  slots tid slot hslot := by
    rcases h'.slots tid slot hslot with hnone | hslot
    · exact .inl hnone
    · exact h.slots tid slot hslot
  suspension := h'.suspension.trans h.suspension
  nextTaskId := h'.nextTaskId.trans h.nextTaskId

theorem within_expect {may : {β : Type} → VmCall V K β → Prop} :
    (expect value what : VmM V K α).Within may kept fun _ => True := by
  cases value <;> trivial

theorem unwaits_resolveWait :
    (resolveWait env tid : VmM V K _).Within VmCall.OnChannels Unwaits fun _ => True := by
  have hget : (get : VmM V K (Machine V)).Within VmCall.OnChannels Unwaits fun _ => True :=
    within_get Unwaits.refl
  have hunwait (slot : TaskSlot V) : (setSlot tid { slot with wait := none } : VmM V K Unit).Within
      VmCall.OnChannels Unwaits fun _ => True := by
    refine within_modify fun vm => ⟨fun other found hfound => ?_, rfl, rfl⟩
    rw [Machine.slot_insert] at hfound
    split at hfound
    · obtain rfl := Option.some.inj hfound
      exact .inl rfl
    · exact .inr hfound
  have hremove (task : Nat) : (removeTask task : VmM V K Unit).Within VmCall.OnChannels Unwaits
      fun _ => True := by
    refine within_modify fun vm => ⟨fun other found hfound => .inr ?_, rfl, rfl⟩
    rw [Machine.slot_remove] at hfound
    split at hfound
    · cases hfound
    · exact hfound
  refine .bind hget fun _ _ => .bind (within_expect ..) fun slot _ =>
    .bind (within_expect ..) fun wait _ => .bind (hunwait slot) fun _ _ => .bind hget fun vm _ => ?_
  split
  · exact .bind (within_call trivial) fun _ _ => trivial
  · exact .bind (within_call trivial) fun _ _ => trivial
  · exact .bind (within_expect ..) fun _ _ => .bind (hremove _) fun _ _ => trivial
  · trivial
  · exact .bind (within_expect ..) fun _ _ => .bind (within_expect ..) fun _ _ => trivial

theorem resolveWait_unwaits {result : Except EvalError (List (Op V K))}
    (hrun : (resolveWait env tid).runOn (answer host) vm world = .ok (result, vm', world')) :
    Unwaits vm vm' ∧ world'.resources = world.resources := by
  have : IsPreorder (Machine V) Unwaits := { refl := .refl, trans := fun _ _ _ => .trans }
  exact (unwaits_resolveWait).runOn (Same World.resources) answer_resources hrun

/-! ## The start -/

theorem entryArguments_run (env : Environment V) (unit : RegUnit) (host : Host V H K) (name : String)
    (func : RegFunction) (args : List String) (vm : Machine V) (world : World V H) :
    ∃ result, (entryArguments env unit name func args : VmM V K _).runOn (answer host) vm world =
      .ok (result, vm, world) := by
  unfold entryArguments
  split
  · exact ⟨_, rfl⟩
  · split
    · exact ⟨_, rfl⟩
    · split <;> exact ⟨_, rfl⟩
  · exact ⟨_, rfl⟩

/-- The machine of a run that starts. -/
def Machine.initial (env : Environment V) (func : RegFunction) (args : List V) : Machine V :=
  { nextTaskId := 1
    tasks := [(0, { saved := some (initialTask env func args) })]
    tasksCreated := 1
    tasksLive := 1
    tasksPeakLive := 1
    readyQueue := [0] }

/-- A run ends at once, or starts with the root task in the queue. -/
theorem Config.start_cases (env : Environment V) (unit : RegUnit) (host : Host V H K) (state : H)
    (name : String) (args : List String) :
    (∃ control, Config.start env unit host state name args = ⟨{}, { host := state }, [], control⟩) ∨
    ∃ func values, Config.start env unit host state name args =
      ⟨.initial env func values, { host := state }, [.schedule 0, .conclude], .next⟩ := by
  unfold start startProgram
  rcases SortedMap.get name unit.functionIds with _ | id
  · exact .inl ⟨_, rfl⟩
  rcases hfunc : unit.functions[id]? with _ | func
  · refine .inl ⟨.panic (.functionIndex id), ?_⟩
    simp [hfunc]
  obtain ⟨result, hentry⟩ := entryArguments_run env unit host name func args {}
    { host := state }
  cases result with
  | error error =>
    refine .inl ⟨.raise error, ?_⟩
    simp [hfunc, hentry]
  | ok values =>
    refine .inr ⟨func, values, ?_⟩
    simp [createTask, hfunc, hentry, after, Machine.initial, SortedMap.insert]

/-- Where an operation of the scheduler is in front, no inner one is left. -/
theorem Config.At.outer (hat : config.At inner phase) (hagenda : config.agenda = op :: rest)
    (hop : ¬op.Inner) : inner = [] ∧ phase.ops = op :: rest := by
  rw [hat.agenda] at hagenda
  cases inner with
  | nil => exact ⟨rfl, hagenda⟩
  | cons first inner =>
    obtain ⟨rfl, -⟩ := List.cons.inj hagenda
    exact absurd (allInner_cons.mp hat.inner).1 hop

/-- Before the waits of a pass are resolved nothing else is left of an instruction. -/
theorem Config.At.resolving (hat : config.At inner phase)
    (hagenda : config.agenda = .resolveWaits tasks :: rest) :
    inner = [] ∧ ∃ loop, phase = .resolving tasks loop := by
  obtain ⟨rfl, hops⟩ := hat.outer hagenda id
  refine ⟨rfl, ?_⟩
  cases phase with
  | resolving tasks' loop =>
    obtain ⟨rfl⟩ : tasks' = tasks := by simpa using (List.cons.inj hops).1
    exact ⟨loop, rfl⟩
  | looping loop => cases loop <;> cases (List.cons.inj hops).1
  | completing completion => cases completion <;> cases (List.cons.inj hops).1
  | ended => cases hops
  | _ => cases (List.cons.inj hops).1

theorem Config.At.completing {completion : Completion V} (hat : config.At inner phase)
    (hagenda : config.agenda = completion.op :: rest) :
    inner = [] ∧ ∃ tasks loop, phase = .completing completion tasks loop := by
  obtain ⟨rfl, hops⟩ := hat.outer hagenda (by cases completion <;> exact id)
  refine ⟨rfl, ?_⟩
  cases phase with
  | completing other tasks loop =>
    obtain rfl : other = completion := Completion.op_injective (List.cons.inj hops).1
    exact ⟨tasks, loop, rfl⟩
  | looping loop => cases loop <;> cases completion <;> cases (List.cons.inj hops).1
  | ended => cases hops
  | _ => cases completion <;> cases (List.cons.inj hops).1

/-- The result of a run is delivered at the end of the agenda. -/
theorem Config.At.delivering {result : Except EvalError V} (hat : config.At inner phase)
    (hagenda : config.agenda = .deliver result :: rest) : rest = [] := by
  obtain ⟨rfl, hops⟩ := hat.outer hagenda id
  cases phase with
  | delivering => exact (List.cons.inj hops).2.symm
  | looping loop => cases loop <;> cases (List.cons.inj hops).1
  | completing completion => cases completion <;> cases (List.cons.inj hops).1
  | ended => cases hops
  | _ => cases (List.cons.inj hops).1

theorem Config.start_at (env : Environment V) (unit : RegUnit) (host : Host V H K) (state : H)
    (name : String) (args : List String) :
    ∃ inner phase, (Config.start env unit host state name args).At inner phase := by
  rcases start_cases env unit host state name args with ⟨control, hstart⟩ | ⟨func, values, hstart⟩
  · exact ⟨[], .ended, by rw [hstart]; rfl, allInner_nil⟩
  · exact ⟨[], .looping (.schedule 0), by rw [hstart]; rfl, allInner_nil⟩

/-- Every configuration of a run is in a phase. -/
theorem Config.run_at (hat : ∃ inner phase, config.At inner phase) :
    ∃ inner phase, (config.run env unit host orders n).At inner phase := by
  induction n with
  | zero => exact hat
  | succ n ih =>
    obtain ⟨inner, phase, hat⟩ := ih
    have hmoves : (config.run env unit host orders n).Moves env unit (orders n) host
        (config.run env unit host orders (n + 1)) inner phase := hat.moves
    cases hmoves <;> exact ⟨_, _, ‹_›⟩

end Moves

end RSScript.Vm
