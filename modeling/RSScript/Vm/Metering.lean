import RSScript.Vm.Failures
import RSScript.Vm.Values

/-!
# Step metering

The host counts steps: one for every instruction, and the work hidden in an
operation on map keys. With a budget the count is compared with it after each
increase. A smaller budget changes nothing of a run until the count exceeds it,
and from then on no instruction is executed. Hidden work is counted only if a
budget, a cancellation token or a deadline is armed.
-/

namespace RSScript.Vm

open Program Config

variable {V H K : Type}

/-! ## The meter -/

/-- The limits that `tick` and `charge_work` look at. The token and the clock are
read from the state of the host. -/
structure StepLimits (H : Type) where
  stepBudget : Option Nat
  cancel : Option (H → Bool)
  deadline : Option (H → Bool)

def cancelPollInterval : Nat := 1024

/-- Some limit is set. -/
def StepLimits.armed (limits : StepLimits H) : Bool :=
  limits.stepBudget.isSome || limits.cancel.isSome || limits.deadline.isSome

def StepLimits.interrupted (limits : StepLimits H) (polls : Bool) (state : H) :
    Except EvalError Unit :=
  if polls && limits.cancel.any (· state) then
    .error (.execution "Cancelled" "evaluation cancelled")
  else if limits.deadline.any (· state) then
    .error (.execution "DeadlineExceeded" "execution deadline exceeded")
  else .ok ()

def stepBudgetExceeded (limit : Nat) (what : String) : EvalError :=
  .execution "StepBudgetExceeded" s!"step budget exceeded ({limit} {what})"

/-- The checks after the count has increased to `steps`. -/
def StepLimits.check (limits : StepLimits H) (what : String) (polls : Bool) (steps : Nat)
    (state : H) : Except EvalError Unit :=
  match limits.stepBudget with
  | some limit =>
    if limit < steps then .error (stepBudgetExceeded limit what)
    else limits.interrupted polls state
  | none => limits.interrupted polls state

/-- `tick`, after it has refreshed the live memory. -/
def StepLimits.tick (limits : StepLimits H) (steps : Nat) (state : H) : Except EvalError Unit × Nat :=
  let polls := steps + 1 == 1 || (steps + 1) % cancelPollInterval == 0
  (limits.check "instructions" polls (steps + 1) state, steps + 1)

/-- `charge_work`: nothing is counted while no limit is set. -/
def StepLimits.chargeWork (limits : StepLimits H) (units steps : Nat) (state : H) :
    Except EvalError Unit × Nat :=
  if limits.armed then (limits.check "steps" true (steps + units) state, steps + units)
  else (.ok (), steps)

/-! ## The metered host -/

/-- The one call an operation of the host makes: `charge_work`, in its present state. -/
inductive WorkCall (H : Type) : Type → Type where
  | charge (units : Nat) (state : H) : WorkCall H Unit

/-- An operation of the host, which may charge work at any point. -/
abbrev WorkM (H α : Type) : Type 1 := Program (WorkCall H) Empty EvalError H α

/-- A host up to its meter. -/
structure WorkHost (V H K : Type) where
  refreshLiveMemory : H → Except EvalError Unit × H
  operation : (β : Type) → HostCall V K β → WorkM H β

/-- A host state with the steps counted so far. -/
structure Metered (H : Type) where
  steps : Nat := 0
  state : H

def answerWork (limits : StepLimits H) : Handler (WorkCall H) EvalError Nat
  | _, .charge units state, steps => limits.chargeWork units steps state

/-- Run an operation of the host, whose only panics are none. -/
def meterOperation {β : Type} (limits : StepLimits H) (operation : WorkM H β) (metered : Metered H) :
    Except EvalError β × Metered H :=
  match operation.runOn (answerWork limits) metered.state metered.steps with
  | .error cause => nomatch cause
  | .ok (result, state, steps) => (result, ⟨steps, state⟩)

def meterTick (limits : StepLimits H) (refresh : H → Except EvalError Unit × H)
    (metered : Metered H) : Except EvalError Unit × Metered H :=
  match refresh metered.state with
  | (.error error, state) => (.error error, { metered with state := state })
  | (.ok _, state) =>
    ((limits.tick metered.steps state).1, ⟨(limits.tick metered.steps state).2, state⟩)

/-- An operation of a host that hides no work. -/
def hostWork (host : Host V H K) (β : Type) (request : HostCall V K β) : WorkM H β := do
  let (result, state) := host β request (← get)
  set state
  match result with
  | .ok value => return value
  | .error error => throw error

/-- A host that counts steps and charged work. -/
def meteredHost (limits : StepLimits H) (base : WorkHost V H K) : Host V (Metered H) K
  | _, .tick, metered => meterTick limits base.refreshLiveMemory metered
  | β, request, metered => meterOperation limits (base.operation β request) metered

/-! ## Two budgets -/

section Budgets

variable {limits limits' : StepLimits H} {budget : Nat}

/-- The limits differ in the budget only, and the second is not smaller. -/
structure Looser (budget : Nat) (limits limits' : StepLimits H) : Prop where
  stepBudget : limits.stepBudget = some budget
  larger : ∀ other, limits'.stepBudget = some other → budget ≤ other
  cancel : limits'.cancel = limits.cancel
  deadline : limits'.deadline = limits.deadline

/-- The counts of two runs, neither of which has exceeded the smaller budget. -/
def SameSteps (budget : Nat) (limits' : StepLimits H) (steps steps' : Nat) : Prop :=
  steps ≤ budget ∧ steps' ≤ steps ∧ (limits'.armed → steps' = steps)

/-- The failure of a run that exceeds its budget. -/
structure Exceeded (budget : Nat) (error : EvalError) (steps : Nat) : Prop where
  steps : budget < steps
  error : ∃ what, error = stepBudgetExceeded budget what

theorem StepLimits.check_exceeded (hbudget : limits.stepBudget = some budget) (h : budget < steps) :
    limits.check what polls steps state = .error (stepBudgetExceeded budget what) := by
  simp only [check, hbudget, if_pos h]

theorem StepLimits.check_kept (h : ∀ limit, limits.stepBudget = some limit → steps ≤ limit)
    (what : String) (polls : Bool) (state : H) :
    limits.check what polls steps state = limits.interrupted polls state := by
  rcases hbudget : limits.stepBudget with _ | limit
  · simp only [check, hbudget]
  · simp only [check, hbudget, if_neg (h limit hbudget).not_gt]

/-- Without limits nothing interrupts. -/
theorem StepLimits.interrupted_unarmed (h : ¬limits.armed) :
    limits.interrupted polls state = .ok () := by
  rcases hcancel : limits.cancel with _ | token
  · rcases hdeadline : limits.deadline with _ | expired
    · simp [interrupted, hcancel, hdeadline]
    · simp [armed, hdeadline] at h
  · simp [armed, hcancel] at h

section Looser

variable (h : Looser budget limits limits')

include h

theorem Looser.interrupted (polls : Bool) (state : H) :
    limits.interrupted polls state = limits'.interrupted polls state := by
  rw [StepLimits.interrupted, StepLimits.interrupted, h.cancel, h.deadline]

theorem Looser.check_kept (hsteps : steps ≤ budget) (what : String) (polls : Bool) (state : H) :
    limits.check what polls steps state = limits'.interrupted polls state := by
  rw [← h.interrupted]
  refine StepLimits.check_kept (fun limit hlimit => ?_) what polls state
  obtain rfl : budget = limit := Option.some.inj (h.stepBudget.symm.trans hlimit)
  exact hsteps

/-- Both budgets are kept, so what is left are the token and the deadline. -/
theorem Looser.check (hsteps : steps ≤ budget) (hsteps' : steps' ≤ steps) (what : String)
    (hpolls : limits'.armed → polls' = polls) (state : H) :
    limits.check what polls steps state = limits'.check what polls' steps' state := by
  have hkept' : ∀ limit, limits'.stepBudget = some limit → steps' ≤ limit := fun limit hlimit =>
    (hsteps'.trans hsteps).trans (h.larger limit hlimit)
  rw [h.check_kept hsteps, StepLimits.check_kept hkept']
  by_cases harmed : limits'.armed
  · rw [hpolls harmed]
  · rw [StepLimits.interrupted_unarmed harmed, StepLimits.interrupted_unarmed harmed]

theorem Looser.armed : limits.armed := by simp [StepLimits.armed, h.stepBudget]

/-- Charged work is charged alike, or exceeds the smaller budget, or is not charged by the second. -/
theorem Looser.chargeWork (hsame : SameSteps budget limits' steps steps') (units : Nat)
    (state : H) :
    Alike (SameSteps budget limits') (Exceeded budget) (limits.chargeWork units steps state)
      (limits'.chargeWork units steps' state) := by
  obtain ⟨-, hle, hsteps⟩ := hsame
  rw [StepLimits.chargeWork, if_pos h.armed]
  by_cases hexceeded : budget < steps + units
  · exact .inl ⟨_, _, by rw [StepLimits.check_exceeded h.stepBudget hexceeded], hexceeded, _, rfl⟩
  · have hkept : steps + units ≤ budget := by omega
    refine .inr ?_
    by_cases harmed : limits'.armed
    · rw [StepLimits.chargeWork, if_pos harmed, hsteps harmed]
      exact ⟨h.check hkept le_rfl "steps" (fun _ => rfl) state, hkept, le_rfl, fun _ => rfl⟩
    · rw [StepLimits.chargeWork, if_neg harmed]
      refine ⟨?_, hkept, by omega, fun h => absurd h harmed⟩
      exact (h.check_kept hkept "steps" true state).trans (StepLimits.interrupted_unarmed harmed ..)

theorem Looser.tick (hsame : SameSteps budget limits' steps steps') (state : H) :
    Alike (SameSteps budget limits') (Exceeded budget) (limits.tick steps state)
      (limits'.tick steps' state) := by
  obtain ⟨-, hle, hsteps⟩ := hsame
  by_cases hexceeded : budget < steps + 1
  · exact .inl ⟨_, _, by rw [StepLimits.tick, StepLimits.check_exceeded h.stepBudget hexceeded],
      hexceeded, _, rfl⟩
  · have hkept : steps + 1 ≤ budget := by omega
    refine .inr ⟨h.check hkept (by omega) "instructions" (fun harmed => ?_) state, hkept, ?_, fun harmed => ?_⟩
    · rw [hsteps harmed]
    · exact Nat.succ_le_succ hle
    · exact congrArg (· + 1) (hsteps harmed)

end Looser

/-- The hosts' states of two runs. -/
structure SameMetered (budget : Nat) (limits' : StepLimits H) (metered metered' : Metered H) : Prop where
  steps : SameSteps budget limits' metered.steps metered'.steps
  state : metered'.state = metered.state

theorem meterTick_alike (h : Looser budget limits limits')
    (hsame : SameMetered budget limits' metered metered') :
    Alike (SameMetered budget limits') (Exceeded budget · ·.steps) (meterTick limits refresh metered)
      (meterTick limits' refresh metered') := by
  obtain ⟨hsteps, hstate⟩ := hsame
  simp only [meterTick, hstate]
  rcases refresh metered.state with ⟨error | _, state⟩
  · exact .inr ⟨rfl, hsteps, rfl⟩
  · rcases h.tick hsteps state with ⟨error, steps₁, htick, hexceeded⟩ | ⟨hresult, hafter⟩
    · exact .inl ⟨error, ⟨steps₁, state⟩, by simp only [htick], hexceeded⟩
    · exact .inr ⟨hresult, hafter, rfl⟩

theorem meterOperation_alike (h : Looser budget limits limits')
    (hsame : SameMetered budget limits' metered metered') :
    Alike (SameMetered budget limits') (Exceeded budget · ·.steps)
      (meterOperation limits operation metered) (meterOperation limits' operation metered') := by
  obtain ⟨hsteps, hstate⟩ := hsame
  have hcompared : Compared (SameSteps budget limits') (Exceeded budget)
      (operation.runOn (answerWork limits) metered.state metered.steps)
      (operation.runOn (answerWork limits') metered.state metered'.steps) := by
    refine (within_anything operation).compared (fun request steps steps' _ hsteps => ?_) _ hsteps
    cases request with
    | charge units state => exact h.chargeWork hsteps units state
  simp only [meterOperation, hstate]
  generalize operation.runOn (answerWork limits) metered.state metered.steps = run at hcompared
  generalize operation.runOn (answerWork limits') metered.state metered'.steps = run' at hcompared
  cases hcompared with
  | @stopped error state steps _ hexceeded => exact .inl ⟨error, ⟨steps, state⟩, rfl, hexceeded⟩
  | panicked cause => exact nomatch cause
  | returned hafter => exact .inr ⟨rfl, hafter, rfl⟩

/-- What a host answers under two budgets. -/
theorem meteredHost_alike (h : Looser budget limits limits') (base : WorkHost V H K)
    (request : HostCall V K β) (hsame : SameMetered budget limits' metered metered') :
    Alike (SameMetered budget limits') (Exceeded budget · ·.steps)
      (meteredHost limits base β request metered) (meteredHost limits' base β request metered') := by
  cases request with
  | tick => exact meterTick_alike h hsame
  | _ => exact meterOperation_alike h hsame

/-- The count never decreases. -/
theorem meteredHost_steps :
    metered.steps ≤ (meteredHost limits base β request metered).2.steps := by
  have hoperation (operation : WorkM H β) :
      metered.steps ≤ (meterOperation limits operation metered).2.steps := by
    unfold meterOperation
    rcases hrun : operation.runOn (answerWork limits) metered.state metered.steps with
      cause | ⟨result, state, steps⟩
    · exact nomatch cause
    · refine runOn_between (· ≤ ·) (fun request steps => ?_) hrun
      cases request with
      | charge units state =>
        simp only [answerWork, StepLimits.chargeWork]
        split
        · exact Nat.le_add_right _ _
        · exact le_rfl
  cases request with
  | tick =>
    simp only [meteredHost, meterTick]
    rcases base.refreshLiveMemory metered.state with ⟨error | _, state⟩
    · exact le_rfl
    · exact Nat.le_succ _
  | _ => exact hoperation _

/-- A run that has exceeded its budget executes no further instruction. -/
theorem meteredHost_tick (hbudget : limits.stepBudget = some budget) (h : budget < metered.steps) :
    (meteredHost limits base Unit .tick metered).1 ≠ .ok () := by
  simp only [meteredHost, meterTick]
  rcases base.refreshLiveMemory metered.state with ⟨error | _, state⟩
  · exact nofun
  · simp only [StepLimits.tick, StepLimits.check_exceeded hbudget (h.trans (Nat.lt_succ_self _))]
    exact nofun

end Budgets

/-! ## Runs -/

/-- The instruction the next step executes: the tick before it succeeds. -/
def Config.executes (host : Host V H K) (config : Config V H K) : Option RegInstr :=
  match config.instruction, (host Unit .tick config.world.host).1 with
  | some instr, .ok _ => some instr
  | _, _ => none

/-- The instructions executed in the first `n` steps. -/
def Config.executed (env : Environment V) (unit : RegUnit) (host : Host V H K)
    (orders : Nat → HashOrder) (config : Config V H K) : Nat → List RegInstr
  | 0 => []
  | n + 1 => config.executed env unit host orders n ++
      ((config.run env unit host orders n).executes host).toList

/-- The worlds of two runs under different budgets. -/
structure SameWorld (budget : Nat) (limits' : StepLimits H) (world world' : World V (Metered H)) :
    Prop where
  host : SameMetered budget limits' world.host world'.host
  channels : world'.channels = world.channels
  resources : world'.resources = world.resources

/-- The failure of a program whose run exceeds its budget. -/
def ExceededIn (budget : Nat) (error : EvalError) (world : World V (Metered H)) : Prop :=
  Exceeded budget error world.host.steps

section Runs

variable {limits limits' : StepLimits H} {budget : Nat} {base : WorkHost V H K}
  {env : Environment V} {unit : RegUnit}

theorem metered_alike (h : Looser budget limits limits') :
    AnswersAlike (meteredHost limits base) (meteredHost limits' base) (SameWorld (V := V) budget limits')
      (ExceededIn budget) := by
  intro β request world world' hsame
  cases request with
  | host call =>
    rcases meteredHost_alike h base call hsame.host with ⟨error, metered₁, hcall, hexceeded⟩ |
      ⟨hresult, hafter⟩
    · exact .inl ⟨error, { world with host := metered₁ }, by simp only [answer, hcall], hexceeded⟩
    · exact .inr ⟨hresult, hafter, hsame.channels, hsame.resources⟩
  | channel call =>
    refine .inr ?_
    simp only [answer, hsame.channels]
    exact ⟨trivial, hsame.host, rfl, hsame.resources⟩
  | resource call =>
    refine .inr ?_
    simp only [answer, hsame.resources]
    exact ⟨trivial, hsame.host, hsame.channels, rfl⟩

theorem steps_answer (request : VmCall V K β) (world : World V (Metered H)) :
    world.host.steps ≤ (answer (meteredHost limits base) β request world).2.host.steps := by
  cases request with
  | host call => exact meteredHost_steps
  | channel | resource => exact le_rfl

theorem steps_step (config : Config V (Metered H) K) : config.world.host.steps ≤
      (config.step env unit order (meteredHost limits base)).world.host.steps := by
  let between (world world' : World V (Metered H)) : Prop := world.host.steps ≤ world'.host.steps
  refine step_states (fun _ world => between config.world world) le_rfl ?_
  intro program result vm world hrun
  have : IsPreorder _ between := { refl := fun _ => le_rfl, trans := fun _ _ _ => le_trans }
  exact runOn_between between (steps_answer) hrun

/-- A step whose tick fails does nothing else. -/
theorem Config.step_ticked {config : Config V H K} (hinstr : config.instruction = some instr)
    (htick : host Unit .tick config.world.host = (.error error, state)) :
    (config.step env unit order host).world = { config.world with host := state } := by
  unfold instruction at hinstr
  split at hinstr
  · rename_i floor rest hcontrol hagenda
    obtain ⟨frame, hframe, hcode⟩ := Option.bind_eq_some_iff.mp hinstr
    rw [step_next hcontrol hagenda, perform, proceed, driveStep_run, hframe]
    simp only [advance, hcode, runOn_bind, hostCall, runOn_call, answer, htick, andThen_failed,
      ofResult]
  · cases hinstr

section Agrees

variable {config : Config V (Metered H) K}

/-- Two runs execute the same instruction next, or the first exceeds its budget. -/
theorem Config.executes_alike (h : Looser budget limits limits')
    (hagrees : config.Agrees (SameWorld budget limits') config') :
    config.executes (meteredHost limits base) = config'.executes (meteredHost limits' base) ∨
      config.executes (meteredHost limits base) = none ∧
        budget < (config.step env unit order (meteredHost limits base)).world.host.steps := by
  have hinstr : config'.instruction = config.instruction := by
    simp only [instruction, hagrees.control, hagrees.agenda, hagrees.vm]
  simp only [executes, hinstr]
  rcases hnext : config.instruction with _ | instr
  · exact .inl rfl
  · rcases meteredHost_alike h base .tick hagrees.world.host with
      ⟨error, metered, htick, hexceeded⟩ | ⟨hresult, -⟩
    · refine .inr ⟨by simp only [htick], ?_⟩
      rw [step_ticked hnext htick]
      exact hexceeded.steps
    · exact .inl (by simp only [hresult])

theorem Config.executes_exceeded (hbudget : limits.stepBudget = some budget)
    (h : budget < config.world.host.steps) : config.executes (meteredHost limits base) = none := by
  unfold executes
  split
  · rename_i htick
    exact absurd htick (meteredHost_tick hbudget h)
  · rfl

/-- Until the first run exceeds its budget the two agree and execute the same instructions. From
then on the first executes none. -/
theorem Config.run_metered (h : Looser budget limits limits') (base : WorkHost V H K)
    (orders : Nat → HashOrder) (n : Nat)
    (hstart : config.Agrees (SameWorld budget limits') config' ∨ budget < config.world.host.steps) :
    (config.run env unit (meteredHost limits base) orders n).Agrees (SameWorld budget limits')
        (config'.run env unit (meteredHost limits' base) orders n) ∧
      config.executed env unit (meteredHost limits base) orders n =
        config'.executed env unit (meteredHost limits' base) orders n ∨
    budget < (config.run env unit (meteredHost limits base) orders n).world.host.steps ∧
      config.executed env unit (meteredHost limits base) orders n <+:
        config'.executed env unit (meteredHost limits' base) orders n := by
  induction n with
  | zero => exact hstart.imp (⟨·, rfl⟩) (⟨·, List.prefix_rfl⟩)
  | succ n ih =>
    rcases ih with ⟨hagrees, hexecuted⟩ | ⟨hexceeded, hinit⟩
    · simp only [run, executed, hexecuted]
      rcases executes_alike h hagrees with hsame | ⟨hnone, hexceeded⟩
      · rw [hsame]
        rcases step_agrees (metered_alike h) hagrees with ⟨error, -, hexceeded⟩ | hnext
        · exact .inr ⟨hexceeded.steps, List.prefix_rfl⟩
        · exact .inl ⟨hnext, rfl⟩
      · rw [hnone]
        exact .inr ⟨hexceeded, by simp⟩
    · refine .inr ⟨hexceeded.trans_le (steps_step _), ?_⟩
      simp only [executed, executes_exceeded h.stepBudget hexceeded, Option.toList_none,
        List.append_nil]
      exact hinit.trans (List.prefix_append _ _)

end Agrees

/-- The run of a program under limits. -/
def meteredRun (limits : StepLimits H) (base : WorkHost V H K) (env : Environment V) (unit : RegUnit)
    (orders : Nat → HashOrder) (state : H) (name : String) (args : List String) :
    Nat → Config V (Metered H) K :=
  (Config.start env unit (meteredHost limits base) { state := state } name args).run env unit
    (meteredHost limits base) orders

def meteredExecuted (limits : StepLimits H) (base : WorkHost V H K) (env : Environment V)
    (unit : RegUnit) (orders : Nat → HashOrder) (state : H) (name : String) (args : List String) :
    Nat → List RegInstr :=
  (Config.start env unit (meteredHost limits base) { state := state } name args).executed env unit
    (meteredHost limits base) orders

section Programs

variable (h : Looser budget limits limits') (base : WorkHost V H K) (env : Environment V)
  (unit : RegUnit) (orders : Nat → HashOrder) (state : H) (name : String) (args : List String)

include h

theorem metered_start :
    (meteredRun limits base env unit orders state name args 0).Agrees (SameWorld budget limits')
      (meteredRun limits' base env unit orders state name args 0) := by
  have hzero : SameMetered budget limits' { state := state } { state := state } :=
    ⟨⟨Nat.zero_le _, le_rfl, fun _ => rfl⟩, rfl⟩
  rcases start_agrees (metered_alike h) ⟨hzero, rfl, rfl⟩ with
    ⟨error, -, hexceeded⟩ | hagrees
  · have hsteps := hexceeded.steps
    rcases start_cases env unit (meteredHost limits base) { state := state } name args with
      ⟨control, hstart⟩ | ⟨func, values, hstart⟩ <;>
    · rw [hstart] at hsteps
      cases hsteps
  · exact hagrees

/-- A run that ends after it has exceeded its budget says so, unless it had failed before: then the
other run ends with the same failure. -/
theorem metered_result
    (hhalt : (meteredRun limits base env unit orders state name args n).control = .halt result) :
    (meteredRun limits base env unit orders state name args n).world.host.steps ≤ budget ∨
    (∃ what, result = .error (stepBudgetExceeded budget what)) ∨
    ∃ error, result = .error error ∧ ∀ m result',
      (meteredRun limits' base env unit orders state name args m).control = .halt result' →
        result' = .error error := by
  have hat := start_at env unit (meteredHost limits base) { state := state } name args
  have hat' := start_at env unit (meteredHost limits' base) { state := state } name args
  rcases run_agrees (metered_alike h)
      (metered_start h base env unit orders state name args) with
    ⟨m, -, hagrees, error, hraise, hexceeded⟩ | hagrees
  · refine .inr ?_
    rcases hfailure : (meteredRun limits base env unit orders state name args m).failure with
      _ | first
    · obtain ⟨what, rfl⟩ := hexceeded.error
      have hfails : (meteredRun limits base env unit orders state name args (m + 1)).failure =
          some (stepBudgetExceeded budget what) := step_fails hfailure hraise
      exact .inl ⟨what, run_result hat hfails hhalt⟩
    · refine .inr ⟨first, run_result hat hfailure hhalt, fun m' result' hhalt' => ?_⟩
      exact run_result hat' (hagrees.failure.trans hfailure) hhalt'
  · exact .inl hagrees.world.host.steps.1

/-- The same program under a budget and under a larger one or none. The run under the smaller budget
executes a prefix of the other's instructions. As long as it has not exceeded the budget the two are
in the same state, with the same output, and have counted the same steps if the other has a limit.
If it ends after that, it says so, unless it had failed before: then the other run, if it ends, ends
with the same failure. -/
theorem metering_observational (n : Nat) :
    (meteredExecuted limits base env unit orders state name args n <+:
      meteredExecuted limits' base env unit orders state name args n) ∧
    ((meteredRun limits base env unit orders state name args n).world.host.steps ≤ budget →
      (meteredRun limits base env unit orders state name args n).Agrees (SameWorld budget limits')
        (meteredRun limits' base env unit orders state name args n)) ∧
    ∀ result, (meteredRun limits base env unit orders state name args n).control = .halt result →
      (meteredRun limits base env unit orders state name args n).world.host.steps ≤ budget ∨
      (∃ what, result = .error (stepBudgetExceeded budget what)) ∨
      ∃ error, result = .error error ∧ ∀ m result',
        (meteredRun limits' base env unit orders state name args m).control = .halt result' →
          result' = .error error := by
  rcases run_metered h base orders n
      (.inl (metered_start h base env unit orders state name args)) with
    ⟨hagrees, hexecuted⟩ | ⟨hexceeded, hinit⟩
  · exact ⟨⟨[], (List.append_nil _).trans hexecuted⟩, fun _ => hagrees,
      fun _ => metered_result h base env unit orders state name args⟩
  · exact ⟨hinit, fun hkept => absurd hkept hexceeded.not_ge,
      fun _ => metered_result h base env unit orders state name args⟩

end Programs

end Runs

/-- A program that fails while it holds a resource, whose drop writes a line. -/
def failsHolding : RegUnit := { smallUnit [smallFunction 0 0 1 [
    .plain "MakeStruct" [] none none (some 0) [("layout", .object [("name", .string "Lock")])],
    .resourceAcquire 0,
    .runtimeError "out of order",
    .ret 0], smallFunction 1 0 2 [
    .plain "LoadString" [] none none (some 0) [("value", .string "released")],
    .callIntrinsic 1 "OutputWrite" [0],
    .ret 1]] with
  resourceDropFunctions := [("Lock", 1)] }

/-- A budget and nothing else. -/
def budgetOnly (stepBudget : Option Nat) : StepLimits String := ⟨stepBudget, none, none⟩

/-- The basic host, without limits on its memory and without hidden work. -/
def basicWork : WorkHost VmValue String Empty := ⟨fun output => (.ok (), output), hostWork basicHost⟩

/-- Ten steps are enough for the whole program, so no budget makes a difference. -/
theorem failsHolding_observed :
    (meteredExecuted (budgetOnly (some 10)) basicWork smallEnvironment failsHolding (fun _ => .byId) ""
      "main" [] 22).length = 6 ∧
    (meteredRun (budgetOnly (some 10)) basicWork smallEnvironment failsHolding (fun _ => .byId) ""
      "main" [] 22).Agrees (SameWorld 10 (budgetOnly none))
        (meteredRun (budgetOnly none) basicWork smallEnvironment failsHolding (fun _ => .byId) ""
          "main" [] 22) :=
  have hlooser : Looser 10 (budgetOnly (some 10)) (budgetOnly none) := ⟨rfl, nofun, rfl, rfl⟩
  have h := metering_observational hlooser basicWork smallEnvironment failsHolding (fun _ => .byId) ""
    "main" [] 22
  ⟨by decide +kernel, h.2.1 (by decide +kernel)⟩

/-- Three steps are enough for the failure but not for the drop: the result is the same, the output
is not. -/
theorem failsHolding_cut :
    (meteredRun (budgetOnly (some 3)) basicWork smallEnvironment failsHolding (fun _ => .byId) ""
      "main" [] 20).control = .halt (.error (runtime "out of order")) ∧
    (meteredRun (budgetOnly (some 3)) basicWork smallEnvironment failsHolding (fun _ => .byId) ""
      "main" [] 20).world.host.state = "" ∧
    (meteredRun (budgetOnly (some 10)) basicWork smallEnvironment failsHolding (fun _ => .byId) ""
      "main" [] 22).control = .halt (.error (runtime "out of order")) ∧
    (meteredRun (budgetOnly (some 10)) basicWork smallEnvironment failsHolding (fun _ => .byId) ""
      "main" [] 22).world.host.state = "released\n" :=
  ⟨rfl, rfl, rfl, rfl⟩

end RSScript.Vm
