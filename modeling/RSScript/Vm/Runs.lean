import RSScript.Vm.Scheduler

/-!
# Invariants of runs

A configuration changes by a program of the machine, or by an operation that
takes or lets go of a failure. So what programs keep of the world, every run
keeps.
-/

namespace RSScript.Vm

variable {V H K : Type} {host : Host V H K} {config : Config V H K}

@[simp] theorem Config.after_vm (vm : Machine V) (world : World V H) :
    (Config.after rest vm world progress).vm = vm := by
  cases progress <;> rfl

@[simp] theorem Config.after_world (vm : Machine V) (world : World V H) :
    (Config.after rest vm world progress).world = world := by
  cases progress <;> rfl

/-- What a program did to the two states; nothing if it panicked. -/
theorem Config.proceed_states {program : VmM V K (Progress V K)}
    (kept : Machine V → World V H → Prop) (hstart : kept config.vm config.world)
    (hrun : ∀ {result vm world}, program.runOn (answer host) config.vm config.world =
      .ok (result, vm, world) → kept vm world) :
    kept (config.proceed host rest program).vm (config.proceed host rest program).world := by
  unfold Config.proceed
  rcases hresult : program.runOn (answer host) config.vm config.world with
    cause | ⟨error | progress, vm, world⟩
  · exact hstart
  · exact hrun hresult
  · simpa [Config.ofResult] using hrun hresult

/-- The world of a step is that of the configuration, or that after a program. -/
theorem Config.step_states (kept : Machine V → World V H → Prop)
    (hstart : kept config.vm config.world)
    (hrun : ∀ (program : VmM V K (Progress V K)) {result vm world},
      program.runOn (answer host) config.vm config.world = .ok (result, vm, world) →
      kept vm world) :
    kept (config.step env unit order host).vm (config.step env unit order host).world := by
  unfold Config.step
  split
  · exact proceed_states kept hstart (hrun _)
  · exact proceed_states kept hstart (hrun _)
  · split
    · simpa using hstart
    · exact hstart
  all_goals exact hstart

/-- A run keeps of the world what every answer keeps. -/
theorem Config.run_between (between : World V H → World V H → Prop) [IsPreorder _ between]
    (hanswer : ∀ {β : Type} (request : VmCall V K β) world,
      between world (answer host β request world).2) :
    between config.world (config.run env unit host orders n).world := by
  induction n with
  | zero => exact refl_of between _
  | succ n ih =>
    refine trans_of between ih ?_
    exact step_states (fun _ world => between _ world) (refl_of between _)
      fun _ _ _ _ hrun => Program.runOn_between between hanswer hrun

/-- An invariant of the world that every answer keeps holds along every run of a
program. -/
theorem Config.world_invariant (invariant : World V H → Prop)
    (hstart : invariant { host := state })
    (hanswer : ∀ {β : Type} (request : VmCall V K β) world, invariant world →
      invariant (answer host β request world).2)
    (orders : Nat → HashOrder) (name : String) (args : List String) (n : Nat) :
    invariant ((Config.start env unit host state name args).run env unit host orders n).world := by
  let between : World V H → World V H → Prop := fun world world' =>
    invariant world → invariant world'
  have : IsPreorder _ between := { refl := fun _ h => h, trans := fun _ _ _ h h' => h' ∘ h }
  refine Config.run_between between hanswer ?_
  exact proceed_states (fun _ => invariant) hstart fun hrun =>
    Program.runOn_between between hanswer hrun hstart

/-! ## Two runs -/

section Agrees

variable {H' : Type} {host' : Host V H' K} {config' : Config V H' K}
  {related : World V H → World V H' → Prop} {stopped : EvalError → World V H → Prop}

/-- Two configurations that differ in their worlds at most. -/
structure Config.Agrees (related : World V H → World V H' → Prop) (config : Config V H K)
    (config' : Config V H' K) : Prop where
  vm : config'.vm = config.vm
  world : related config.world config'.world
  agenda : config'.agenda = config.agenda
  control : config'.control = config.control

/-- The run was stopped, by a failure the other run need not have. -/
def Config.Stopped (stopped : EvalError → World V H → Prop) (config : Config V H K) : Prop :=
  ∃ error, config.control = .raise error ∧ stopped error config.world

theorem Config.proceed_agrees {program : VmM V K (Progress V K)} (rest : List (Op V K))
    (hvm : config'.vm = config.vm) (hworld : related config.world config'.world)
    (hcompared : Program.Compared related stopped
      (program.runOn (answer host) config.vm config.world)
      (program.runOn (answer host') config.vm config'.world)) :
    (config.proceed host rest program).Stopped stopped ∨
      (config.proceed host rest program).Agrees related (config'.proceed host' rest program) := by
  unfold Config.proceed
  rw [hvm]
  generalize program.runOn (answer host) config.vm config.world = run at hcompared
  generalize program.runOn (answer host') config.vm config'.world = run' at hcompared
  cases hcompared with
  | stopped h => exact .inl ⟨_, rfl, h⟩
  | panicked cause => exact .inr ⟨rfl, hworld, rfl, rfl⟩
  | @returned result vm world world' h =>
    refine .inr ?_
    cases result with
    | error error => exact ⟨rfl, h, rfl, rfl⟩
    | ok progress => cases progress <;> exact ⟨rfl, h, rfl, rfl⟩

/-- What calls are answered alike, or the run is stopped. -/
def AnswersAlike (host : Host V H K) (host' : Host V H' K)
    (related : World V H → World V H' → Prop) (stopped : EvalError → World V H → Prop) : Prop :=
  ∀ {β : Type} (request : VmCall V K β) world world', related world world' →
    (∃ error world₁, answer host β request world = (.error error, world₁) ∧ stopped error world₁) ∨
    (answer host β request world).1 = (answer host' β request world').1 ∧
      related (answer host β request world).2 (answer host' β request world').2

theorem Config.step_agrees (halike : AnswersAlike host host' related stopped)
    (h : config.Agrees related config') : (config.step env unit order host).Stopped stopped ∨
      (config.step env unit order host).Agrees related (config'.step env unit order host') := by
  have hproceed (rest : List (Op V K)) (program : VmM V K (Progress V K)) :=
    proceed_agrees rest h.vm h.world
      ((Program.within_anything program).compared (fun request world world' _ => halike request world world')
        config.vm h.world)
  obtain ⟨vm, world, agenda, control⟩ := config
  obtain ⟨vm', world', agenda', control'⟩ := config'
  obtain ⟨rfl, hworld, rfl, rfl⟩ := h
  cases control' with
  | next | yield _ =>
    cases agenda' with
    | nil => exact .inr ⟨rfl, hworld, rfl, rfl⟩
    | cons op rest => exact hproceed rest _
  | raise error =>
    refine .inr ?_
    cases agenda' with
    | nil => exact ⟨rfl, hworld, rfl, rfl⟩
    | cons op rest =>
      simp only [Config.step]
      cases handle error op with
      | none => exact ⟨rfl, hworld, rfl, rfl⟩
      | some progress => cases progress <;> exact ⟨rfl, hworld, rfl, rfl⟩
  | halt _ | panic _ => exact .inr ⟨rfl, hworld, rfl, rfl⟩

/-- Two runs of a program agree until the first is stopped. -/
theorem Config.run_agrees (halike : AnswersAlike host host' related stopped)
    (h : config.Agrees related config') :
    (∃ m < n, (config.run env unit host orders m).Agrees related
        (config'.run env unit host' orders m) ∧
      (config.run env unit host orders (m + 1)).Stopped stopped) ∨
    (config.run env unit host orders n).Agrees related (config'.run env unit host' orders n) := by
  induction n with
  | zero => exact .inr h
  | succ n ih =>
    rcases ih with ⟨m, hm, hstopped⟩ | hagrees
    · exact .inl ⟨m, hm.trans n.lt_succ_self, hstopped⟩
    · rcases step_agrees halike hagrees with hstopped | hnext
      · exact .inl ⟨n, n.lt_succ_self, hagrees, hstopped⟩
      · exact .inr hnext

theorem Config.start_agrees (halike : AnswersAlike host host' related stopped)
    (h : related { host := state } { host := state' }) :
    (Config.start env unit host state name args).Stopped stopped ∨
      (Config.start env unit host state name args).Agrees related
        (Config.start env unit host' state' name args) := by
  let fresh : Config V H K := ⟨{}, { host := state }, [], .next⟩
  let fresh' : Config V H' K := ⟨{}, { host := state' }, [], .next⟩
  have hvm : fresh'.vm = fresh.vm := rfl
  exact proceed_agrees [] hvm h ((Program.within_anything _).compared
    (fun request world world' _ => halike request world world') _ h)

end Agrees

end RSScript.Vm
