import RSScript.Vm.Phases
import RSScript.Vm.Runs

/-!
# The failure of a run

A failure drops operations of the agenda until one takes it: a cleanup, the sweep
over all tasks, or the end of the program. They go on and pass it on when they
are done, and drop what fails in the meantime. So the first failure of a run is
its result.

A panic is no failure: it ends the run where it happens.
-/

namespace RSScript.Vm

open Program

variable {V H K : Type} {config : Config V H K} {error : EvalError} {rest : List (Op V K)}
  {op : Op V K}

/-- The failure an operation has taken. -/
def Op.failure : Op V K → Option EvalError
  | .cleanup _ firstError | .sweep _ firstError => firstError
  | .deliver (.error error) => some error
  | _ => none

/-- The failure an agenda ends with: each operation drops those of the ones before it. -/
def heldFailure : List (Op V K) → Option EvalError
  | [] => none
  | op :: rest => (heldFailure rest).or op.failure

/-- The failure a run ends with, from this configuration on. -/
def Config.failure (config : Config V H K) : Option EvalError :=
  match config.control with
  | .next | .yield _ => heldFailure config.agenda
  | .raise error => (heldFailure config.agenda).or (some error)
  | .halt (.error error) => some error
  | .halt (.ok _) | .panic _ => none

/-- What the result of an operation leaves to the rest of the agenda. -/
def failureOf : Except EvalError (Progress V K) → Option EvalError
  | .error error | .ok (.halt (.error error)) => some error
  | .ok (.push ops) => heldFailure ops
  | .ok (.yield _) | .ok (.halt (.ok _)) => none

theorem Config.Agrees.failure (h : config.Agrees related config') :
    config'.failure = config.failure := by
  simp only [Config.failure, h.control, h.agenda]

theorem heldFailure_append :
    heldFailure (ops ++ rest) = (heldFailure rest).or (heldFailure ops) := by
  induction ops with
  | nil => exact Option.or_none.symm
  | cons op ops ih => simp only [List.cons_append, heldFailure, ih, Option.or_assoc]

theorem Config.failure_after (vm : Machine V) (world : World V H)
    (hhalt : ∀ result, progress = .halt result → rest = []) :
    (Config.after rest vm world progress).failure =
      (heldFailure rest).or (failureOf (.ok progress)) := by
  cases progress with
  | push ops => exact heldFailure_append
  | yield outcome => exact Option.or_none.symm
  | halt result =>
    rw [hhalt result rfl]
    cases result <;> rfl

/-- Only the delivery of the result ends a run. -/
theorem perform_halts : (perform env unit order op).Within (fun _ => True) (fun _ _ => True)
      fun progress => ∀ result, progress = .halt result → op = .deliver result := by
  by_cases hop : op.Inner
  · refine (evolves_perform env unit order hop).mono (fun _ _ => trivial) (fun _ _ _ => trivial) ?_
    rintro progress hprogress result rfl
    exact hprogress.elim
  · cases op with
    | completeWait | schedule | dispatch | cleanupAll =>
      exact .bind (within_anything _) fun _ _ => within_pure nofun
    | completeSelect =>
      exact .bind (within_anything _) fun _ _ => .bind (within_anything _) fun _ _ => within_pure nofun
    | resolveWaits tasks =>
      cases tasks with
      | nil => exact within_pure nofun
      | cons => exact .bind (within_anything _) fun _ _ => within_pure nofun
    | satisfyWaiters =>
      refine .bind (within_anything _) fun vm _ => .bind (within_anything _) fun table _ => ?_
      split <;> exact within_pure nofun
    | sweep tasks firstError =>
      cases tasks with
      | nil =>
        cases firstError with
        | none => exact within_pure nofun
        | some error => trivial
      | cons => exact within_pure nofun
    | deliver result => exact within_pure fun other hother => by cases hother; rfl
    | settle | conclude => trivial
    | _ => exact absurd trivial hop

theorem receive_halts : (receive env outcome op).Within (fun _ => True) (fun _ _ => True)
      fun progress => ∀ result, progress ≠ .halt result := by
  by_cases hop : op.Inner
  · refine (local_receive env outcome hop).mono (fun _ _ => trivial) (fun _ _ _ => trivial) ?_
    rintro progress hprogress result rfl
    exact hprogress.elim
  · cases op with
    | settle root task =>
      cases outcome with
      | completed value =>
        refine .bind (within_anything _) fun _ _ => ?_
        split
        · exact .bind (within_anything _) fun _ _ => within_pure nofun
        · exact .bind (within_anything _) fun _ _ => .bind (within_anything _) fun _ _ =>
            .bind (within_anything _) fun _ _ => within_pure nofun
      | suspended =>
        exact .bind (within_anything _) fun _ _ => .bind (within_anything _) fun _ _ =>
          .bind (within_anything _) fun _ _ => .bind (within_anything _) fun _ _ =>
            within_pure nofun
    | conclude => exact .bind (within_anything _) fun _ _ => within_pure nofun
    | _ => first | trivial | exact absurd trivial hop

/-- An operation that has taken a failure keeps it or passes it on. -/
theorem perform_holds (hop : op.failure = some error)
    (hrun : (perform env unit order op).runOn (answer host) vm world = .ok (result, vm', world')) :
    failureOf result = some error := by
  cases op with
  | cleanup task firstError =>
    obtain rfl : firstError = some error := hop
    simp only [perform, resourceCall, runOn_bind, runOn_call, answer, answerResource] at hrun
    split at hrun
    all_goals
      simp [runOn_call, answer, answerResource] at hrun
      obtain ⟨rfl, -⟩ := hrun
      rfl
  | sweep tasks firstError =>
    obtain rfl : firstError = some error := hop
    cases tasks <;> (obtain ⟨rfl, -⟩ := (by simpa [perform] using hrun); rfl)
  | deliver result =>
    cases result with
    | error first =>
      obtain rfl : first = error := by simpa [Op.failure] using hop
      obtain ⟨rfl, -⟩ := (by simpa [perform] using hrun)
      rfl
    | ok value => cases hop
  | _ => cases hop

theorem failure_handled (h : handle error op = some progress) :
    failureOf (.ok progress) = op.failure.or (some error) := by
  cases op with
  | deliver result => cases result <;> (obtain rfl := Option.some.inj h; rfl)
  | cleanup | sweep | conclude => obtain rfl := Option.some.inj h; rfl
  | _ => cases h

theorem failure_unhandled (h : handle error op = none) : op.failure = none := by
  cases op with
  | deliver result => cases result <;> cases h
  | cleanup | sweep | conclude => cases h
  | _ => rfl

theorem Config.failure_proceed {program : VmM V K (Progress V K)}
    (hheld : (heldFailure rest).or op.failure = some error)
    (hhalt : program.Within (fun _ => True) (fun _ _ => True)
      fun progress => ∀ result, progress = .halt result → rest = [])
    (hresult : ∀ {result vm world}, op.failure = some error →
      program.runOn (answer host) config.vm config.world = .ok (result, vm, world) →
        failureOf result = some error) :
    (config.proceed host rest program).failure = some error ∨
      ∃ cause, (config.proceed host rest program).control = .panic cause := by
  have hkept {result vm world} (hrun : program.runOn (answer host) config.vm config.world =
      .ok (result, vm, world)) : (heldFailure rest).or (failureOf result) = some error := by
    cases hrest : heldFailure rest with
    | some held => simpa [hrest] using hheld
    | none => exact hresult (by simpa [hrest] using hheld) hrun
  unfold Config.proceed
  rcases hrun : program.runOn (answer host) config.vm config.world with
    cause | ⟨failed | progress, vm, world⟩
  · exact .inr ⟨cause, rfl⟩
  · exact .inl (hkept hrun)
  · exact .inl ((failure_after vm world (hhalt.returns hrun)).trans (hkept hrun))

attribute [local simp] Config.failure Config.step

/-- A step keeps the failure a run will end with, unless it panics. -/
theorem Config.step_failure {inner : List (Op V K)} (hat : config.At inner phase)
    (h : config.failure = some error) : (config.step env unit order host).failure = some error ∨
      ∃ cause, (config.step env unit order host).control = .panic cause := by
  rcases hcontrol : config.control with _ | outcome | raised | result | cause
  · rcases hagenda : config.agenda with _ | ⟨op, rest⟩
    · exact .inr ⟨.unreachable, by simp only [Config.step, hcontrol, hagenda]⟩
    rw [step_next hcontrol hagenda]
    refine failure_proceed (by simpa [hcontrol, hagenda, heldFailure] using h) ?_ perform_holds
    refine (perform_halts).mono (fun _ => id) (fun _ _ => id) ?_
    intro progress hprogress result hhalt
    rw [hprogress result hhalt] at hagenda
    exact hat.delivering hagenda
  · rcases hagenda : config.agenda with _ | ⟨op, rest⟩
    · exact .inr ⟨.unreachable, by simp only [Config.step, hcontrol, hagenda]⟩
    rw [step_yield hcontrol hagenda]
    refine failure_proceed (by simpa [hcontrol, hagenda, heldFailure] using h) ?_ fun hop hrun => ?_
    · refine (receive_halts).mono (fun _ => id) (fun _ _ => id) ?_
      intro progress hprogress result hhalt
      exact absurd hhalt (hprogress result)
    · -- An operation that has taken a failure expects no outcome.
      cases op with
      | cleanup | sweep | deliver => cases hrun
      | _ => cases hop
  · rcases hagenda : config.agenda with _ | ⟨op, rest⟩
    · obtain rfl : raised = error := by simpa [hcontrol, hagenda, heldFailure] using h
      exact .inl (by simp only [Config.step, hcontrol, hagenda, Config.failure])
    have hheld : ((heldFailure rest).or op.failure).or (some raised) = some error := by
      simpa only [Config.failure, hcontrol, hagenda, heldFailure] using h
    rcases hhandle : handle raised op with _ | progress
    · rw [step_unhandled hcontrol hagenda hhandle]
      rw [failure_unhandled hhandle, Option.or_none] at hheld
      exact .inl (by simpa only [Config.failure, hcontrol] using hheld)
    · rw [step_handled hcontrol hagenda hhandle, failure_after, failure_handled hhandle,
        ← Option.or_assoc]
      · exact .inl hheld
      · rintro result rfl
        cases op with
        | deliver => exact hat.delivering hagenda
        | cleanup | sweep | conclude => cases hhandle
        | _ => cases hhandle
  · exact .inl (by simpa only [Config.step, hcontrol] using h)
  · exact .inr ⟨cause, by simp only [Config.step, hcontrol]⟩

theorem Config.proceed_raises {program : VmM V K (Progress V K)}
    (hraise : (config.proceed host rest program).control = .raise error) :
    (config.proceed host rest program).agenda = rest := by
  unfold Config.proceed at hraise ⊢
  generalize program.runOn (answer host) config.vm config.world = run at hraise ⊢
  rcases run with cause | ⟨failed | progress, vm, world⟩
  · cases hraise
  · rfl
  · cases progress <;> cases hraise

/-- The first failure is the one a run will end with. -/
theorem Config.step_fails (h : config.failure = none)
    (hraise : (config.step env unit order host).control = .raise error) :
    (config.step env unit order host).failure = some error := by
  have hfirst (op : Op V K) (rest : List (Op V K)) (program : VmM V K (Progress V K))
      (hheld : heldFailure (op :: rest) = none)
      (hraise : (config.proceed host rest program).control = .raise error) :
      (config.proceed host rest program).failure = some error := by
    obtain ⟨hrest, -⟩ := Option.or_eq_none_iff.mp hheld
    simp only [Config.failure, hraise, proceed_raises hraise, hrest, Option.none_or]
  rcases hcontrol : config.control with _ | outcome | raised | result | cause
  · rcases hagenda : config.agenda with _ | ⟨op, rest⟩
    · simp [hcontrol, hagenda] at hraise
    rw [step_next hcontrol hagenda] at hraise ⊢
    exact hfirst op rest _ (by simpa only [Config.failure, hcontrol, hagenda] using h) hraise
  · rcases hagenda : config.agenda with _ | ⟨op, rest⟩
    · simp [hcontrol, hagenda] at hraise
    rw [step_yield hcontrol hagenda] at hraise ⊢
    exact hfirst op rest _ (by simpa only [Config.failure, hcontrol, hagenda] using h) hraise
  · simp [hcontrol] at h
  · simp [hcontrol] at hraise
  · simp [hcontrol] at hraise

/-- A run ends with its first failure, unless it panics. -/
theorem Config.run_failure (hat : ∃ inner phase, config.At inner phase) (hnm : n ≤ m)
    (h : (config.run env unit host orders n).failure = some error) :
    (config.run env unit host orders m).failure = some error ∨
      ∃ cause, (config.run env unit host orders m).control = .panic cause := by
  induction m, hnm using Nat.le_induction with
  | base => exact .inl h
  | succ m _ ih =>
    rcases ih with hfailure | ⟨cause, hpanic⟩
    · obtain ⟨inner, phase, hat⟩ := run_at hat
      exact step_failure hat hfailure
    · exact .inr ⟨cause, by simp only [Config.run, Config.step, hpanic]⟩

/-- A run that has ended stays as it is. -/
theorem Config.run_halted (hnm : n ≤ m)
    (h : (config.run env unit host orders n).control = .halt result) :
    (config.run env unit host orders m).control = .halt result := by
  induction m, hnm using Nat.le_induction with
  | base => exact h
  | succ m _ ih => simp only [Config.run, Config.step, ih]

/-- A run that has failed ends with this failure or not at all. -/
theorem Config.run_result (hat : ∃ inner phase, config.At inner phase)
    (h : (config.run env unit host orders n).failure = some error)
    (hhalt : (config.run env unit host orders m).control = .halt result) :
    result = .error error := by
  have hend := run_halted (le_max_right n m) hhalt
  rcases run_failure hat (le_max_left n m) h with hfailure | ⟨cause, hpanic⟩
  · cases result with
    | ok value => simp [hend] at hfailure
    | error other =>
      obtain rfl : other = error := by simpa [hend] using hfailure
      rfl
  · cases hend.symm.trans hpanic

end RSScript.Vm
