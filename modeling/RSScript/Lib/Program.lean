import Mathlib.Data.List.Basic
import Mathlib.Order.Defs.Unbundled

/-!
# Programs as trees of their effects

A program reads and updates a state `σ`, makes calls `Q` to what is outside of
it, fails with an `ε` or panics with a `π`. It is a tree: an update or a call is
a node, and what follows is a subtree for each answer. A handler answers the
calls over a state `η` that the program cannot reach in any other way. So what
every answer keeps of `η`, every program keeps, whatever its text.
-/

inductive Program (Q : Type → Type) (π ε σ α : Type) : Type 1 where
  | ret (value : α)
  | fail (error : ε)
  | panic (cause : π)
  | update {β : Type} (change : σ → β × σ) (next : β → Program Q π ε σ α)
  | ask {β : Type} (call : Q β) (next : β → Program Q π ε σ α)

namespace Program

variable {Q : Type → Type} {π ε σ η α β : Type}

/-! ## The monad -/

def bind : Program Q π ε σ α → (α → Program Q π ε σ β) → Program Q π ε σ β
  | .ret value, after => after value
  | .fail error, _ => .fail error
  | .panic cause, _ => .panic cause
  | .update change next, after => .update change fun answer => (next answer).bind after
  | .ask call next, after => .ask call fun answer => (next answer).bind after

def tryCatch : Program Q π ε σ α → (ε → Program Q π ε σ α) → Program Q π ε σ α
  | .ret value, _ => .ret value
  | .fail error, handle => handle error
  | .panic cause, _ => .panic cause
  | .update change next, handle => .update change fun answer => (next answer).tryCatch handle
  | .ask call next, handle => .ask call fun answer => (next answer).tryCatch handle

instance : Monad (Program Q π ε σ) where
  pure := .ret
  bind := bind

instance : MonadStateOf σ (Program Q π ε σ) where
  get := .update (fun state => (state, state)) .ret
  set state := .update (fun _ => (⟨⟩, state)) .ret
  modifyGet change := .update change .ret

instance : MonadExceptOf ε (Program Q π ε σ) where
  throw := .fail
  tryCatch := tryCatch

/-- Make one call. -/
def call (request : Q α) : Program Q π ε σ α := .ask request .ret

theorem bind_ret (program : Program Q π ε σ α) : program.bind .ret = program := by
  induction program with
  | ret | fail | panic => rfl
  | update change _ ih => exact congrArg (Program.update change) (funext ih)
  | ask request _ ih => exact congrArg (Program.ask request) (funext ih)

theorem bind_assoc (program : Program Q π ε σ α) (next : α → Program Q π ε σ β)
    (last : β → Program Q π ε σ γ) :
    (program.bind next).bind last = program.bind fun value => (next value).bind last := by
  induction program with
  | ret | fail | panic => rfl
  | update change _ ih => exact congrArg (Program.update change) (funext ih)
  | ask request _ ih => exact congrArg (Program.ask request) (funext ih)

instance : LawfulMonad (Program Q π ε σ) :=
  LawfulMonad.mk' _ bind_ret (fun _ _ => rfl) bind_assoc

/-! ## Runs -/

/-- What answers the calls of a program, over a state of its own. -/
abbrev Handler (Q : Type → Type) (ε η : Type) : Type 1 :=
  (β : Type) → Q β → η → Except ε β × η

/-- Run a program; a panic leaves no state behind, a failure does. -/
def runOn (handler : Handler Q ε η) :
    Program Q π ε σ α → σ → η → Except π (Except ε α × σ × η)
  | .ret value, state, world => .ok (.ok value, state, world)
  | .fail error, state, world => .ok (.error error, state, world)
  | .panic cause, _, _ => .error cause
  | .update change next, state, world =>
    runOn handler (next (change state).1) (change state).2 world
  | .ask request next, state, world =>
    match handler _ request world with
    | (.ok answer, world') => runOn handler (next answer) state world'
    | (.error error, world') => .ok (.error error, state, world')

/-- Go on with `next` after a run. -/
def andThen (handler : Handler Q ε η) (next : α → Program Q π ε σ β) :
    Except π (Except ε α × σ × η) → Except π (Except ε β × σ × η)
  | .error cause => .error cause
  | .ok (.ok value, state, world) => (next value).runOn handler state world
  | .ok (.error error, state, world) => .ok (.error error, state, world)

section Runs

variable (handler : Handler Q ε η) (state : σ) (world : η)

@[simp] theorem runOn_bind (next : α → Program Q π ε σ β) :
    (program >>= next).runOn handler state world =
      andThen handler next (program.runOn handler state world) := by
  change (program.bind next).runOn handler state world = _
  induction program generalizing state world with
  | ret | fail | panic => rfl
  | update change _ ih => exact ih _ _ _
  | ask request _ ih =>
    simp only [bind, runOn]
    rcases handler _ request world with ⟨_ | answer, world'⟩
    · rfl
    · exact ih answer state world'

@[simp] theorem runOn_map (program : Program Q π ε σ α) :
    (f <$> program).runOn handler state world =
      andThen handler (fun value => pure (f value)) (program.runOn handler state world) := by
  rw [map_eq_pure_bind, runOn_bind]

@[simp] theorem runOn_pure :
    (pure value : Program Q π ε σ α).runOn handler state world = .ok (.ok value, state, world) :=
  rfl

@[simp] theorem runOn_throw : (throw error : Program Q π ε σ α).runOn handler state world =
      .ok (.error error, state, world) :=
  rfl

@[simp] theorem runOn_panic :
    (.panic cause : Program Q π ε σ α).runOn handler state world = .error cause :=
  rfl

@[simp] theorem runOn_get :
    (get : Program Q π ε σ σ).runOn handler state world = .ok (.ok state, state, world) :=
  rfl

@[simp] theorem runOn_modify (update : σ → σ) :
    (modify update : Program Q π ε σ PUnit).runOn handler state world =
      .ok (.ok ⟨⟩, update state, world) :=
  rfl

theorem runOn_call (request : Q α) : (call request : Program Q π ε σ α).runOn handler state world =
      .ok ((handler _ request world).1, state, (handler _ request world).2) := by
  simp only [call, runOn]
  rcases handler _ request world with ⟨_ | _, _⟩ <;> rfl

@[simp] theorem andThen_returned (next : α → Program Q π ε σ β) (value : α) :
    andThen handler next (.ok (.ok value, state, world)) = (next value).runOn handler state world :=
  rfl

@[simp] theorem andThen_failed (next : α → Program Q π ε σ β) (error : ε) :
    andThen handler next (.ok (.error error, state, world)) = .ok (.error error, state, world) :=
  rfl

@[simp] theorem andThen_panicked : andThen handler next (.error cause) = .error cause := rfl

end Runs

variable {program : Program Q π ε σ α} {state : σ} {world : η}

/-- A run of two programs that does not panic fails in the first, or goes on with
the second. -/
theorem runOn_bind_ok
    (hrun : (program >>= next).runOn handler state world = .ok (result, state'', world'')) :
    (∃ error, program.runOn handler state world = .ok (.error error, state'', world'') ∧
      result = .error error) ∨
    ∃ value state' world', program.runOn handler state world = .ok (.ok value, state', world') ∧
      (next value).runOn handler state' world' = .ok (result, state'', world'') := by
  rw [runOn_bind] at hrun
  rcases hfirst : program.runOn handler state world with cause | ⟨error | value, state', world'⟩
  · simp [hfirst] at hrun
  · obtain ⟨rfl, rfl, rfl⟩ := (by simpa [hfirst] using hrun)
    exact .inl ⟨error, rfl, rfl⟩
  · rw [hfirst] at hrun
    exact .inr ⟨value, state', world', rfl, hrun⟩

/-! ## What a program stays within -/

/-- Every call of the program is one it `may` make, every update keeps `kept`, and
every value it can return is one of those `returned`, whatever the answers are. -/
def Within (may : {β : Type} → Q β → Prop) (kept : σ → σ → Prop) (returned : α → Prop) :
    Program Q π ε σ α → Prop
  | .ret value => returned value
  | .fail _ | .panic _ => True
  | .update change next =>
    (∀ state, kept state (change state).2) ∧ ∀ answer, (next answer).Within may kept returned
  | .ask request next => may request ∧ ∀ answer, (next answer).Within may kept returned

section Within

variable {may may' : {β : Type} → Q β → Prop} {returned : α → Prop} {after : β → Prop}

theorem within_pure (h : returned value) :
    (pure value : Program Q π ε σ α).Within may kept returned :=
  h

variable {program : Program Q π ε σ α}

theorem Within.bind (h : program.Within may kept returned)
    (hnext : ∀ value, returned value → (next value).Within may kept after) :
    (program >>= next).Within may kept after := by
  change (program.bind next).Within may kept after
  induction program with
  | ret value => exact hnext value h
  | fail | panic => trivial
  | update _ _ ih => exact ⟨h.1, fun answer => ih answer (h.2 answer)⟩
  | ask _ _ ih => exact ⟨h.1, fun answer => ih answer (h.2 answer)⟩

theorem Within.mono (h : program.Within may kept returned)
    (hmay : ∀ {β : Type} (request : Q β), may request → may' request)
    (hkept : ∀ state state', kept state state' → kept' state state')
    (hreturned : ∀ value, returned value → returned' value) :
    program.Within may' kept' returned' := by
  induction program with
  | ret value => exact hreturned value h
  | fail | panic => trivial
  | update _ _ ih => exact ⟨fun state => hkept _ _ (h.1 state), fun answer => ih answer (h.2 answer)⟩
  | ask _ _ ih => exact ⟨hmay _ h.1, fun answer => ih answer (h.2 answer)⟩

theorem within_anything (program : Program Q π ε σ α) :
    program.Within (fun _ => True) (fun _ _ => True) fun _ => True := by
  induction program with
  | ret | fail | panic => trivial
  | update _ _ ih => exact ⟨fun _ => trivial, ih⟩
  | ask _ _ ih => exact ⟨trivial, ih⟩

theorem within_modify {update : σ → σ} (h : ∀ state, kept state (update state)) :
    (modify update : Program Q π ε σ PUnit).Within may kept fun _ => True :=
  ⟨h, fun _ => trivial⟩

theorem within_get (h : ∀ state, kept state state) :
    (get : Program Q π ε σ σ).Within may kept fun _ => True :=
  ⟨h, fun _ => trivial⟩

theorem within_call (h : may request) :
    (call request : Program Q π ε σ α).Within may kept fun _ => True :=
  ⟨h, fun _ => trivial⟩

theorem Within.forM {body : α → Program Q π ε σ PUnit} {values : List α}
    (h : ∀ value ∈ values, (body value).Within may kept fun _ => True) :
    (values.forM body).Within may kept fun _ => True := by
  induction values with
  | nil => trivial
  | cons value values ih =>
    change (body value >>= fun _ => values.forM body).Within may kept fun _ => True
    exact .bind (h value List.mem_cons_self) fun _ _ =>
      ih fun other hmem => h other (List.mem_cons_of_mem _ hmem)

theorem Within.mapM {body : α → Program Q π ε σ β} {values : List α}
    (h : ∀ value ∈ values, (body value).Within may kept fun _ => True) :
    (values.mapM body).Within may kept fun _ => True := by
  induction values with
  | nil => trivial
  | cons value values ih =>
    rw [List.mapM_cons]
    have hrest := ih fun other hmem => h other (List.mem_cons_of_mem _ hmem)
    exact .bind (h value List.mem_cons_self) fun _ _ => .bind hrest fun _ _ => trivial

variable {world world' : η}

theorem Within.returns (h : program.Within may kept returned)
    (hrun : program.runOn handler state world = .ok (.ok value, state', world')) :
    returned value := by
  induction program generalizing state world with
  | ret other =>
    obtain ⟨rfl, -⟩ := (by simpa [Program.runOn] using hrun)
    exact h
  | fail | panic => cases hrun
  | update change next ih => exact ih _ (h.2 _) hrun
  | ask request next ih =>
    simp only [Program.runOn] at hrun
    split at hrun
    · exact ih _ (h.2 _) hrun
    · cases hrun

/-- What is read of the world stays as it is. -/
def Same {β : Type} (read : η → β) (world world' : η) : Prop := read world' = read world

instance {β : Type} (read : η → β) : IsPreorder η (Same read) where
  refl _ := rfl
  trans _ _ _ h h' := Eq.trans h' h

/-- A run of a program within bounds keeps what they keep, of both states. -/
theorem Within.runOn (between : η → η → Prop) [IsPreorder σ kept] [IsPreorder η between]
    (h : program.Within may kept returned) (hmay : ∀ {β : Type} (request : Q β) world, may request →
      between world (handler β request world).2)
    (hrun : program.runOn handler state world = .ok (result, state', world')) :
    kept state state' ∧ between world world' := by
  induction program generalizing state world with
  | ret | fail =>
    obtain ⟨_, rfl, rfl⟩ := (by simpa [Program.runOn] using hrun)
    exact ⟨refl_of kept _, refl_of between _⟩
  | panic => cases hrun
  | update change next ih =>
    obtain ⟨hstate, hworld⟩ := ih _ (h.2 _) hrun
    exact ⟨trans_of kept (h.1 state) hstate, hworld⟩
  | ask request next ih =>
    have hstep := hmay request world h.1
    simp only [Program.runOn] at hrun
    generalize handler _ request world = answered at hrun hstep
    obtain ⟨_ | answer, world₁⟩ := answered
    · obtain ⟨_, rfl, rfl⟩ := (by simpa using hrun)
      exact ⟨refl_of kept _, hstep⟩
    · obtain ⟨hstate, hworld⟩ := ih answer (h.2 answer) hrun
      exact ⟨hstate, trans_of between hstep hworld⟩

theorem Within.keeps [IsPreorder σ kept] (h : program.Within may kept returned)
    (hrun : program.runOn handler state world = .ok (result, state', world')) : kept state state' :=
  (h.runOn (Same fun _ => ()) (fun _ _ _ => rfl) hrun).1

/-- What every answer keeps, a run keeps. -/
theorem runOn_between (between : η → η → Prop) [IsPreorder η between]
    (hanswer : ∀ {β : Type} (request : Q β) world, between world (handler β request world).2)
    (hrun : program.runOn handler state world = .ok (result, state', world')) :
    between world world' :=
  have hany : program.Within (fun _ => True) (Same fun _ => ()) fun _ => True :=
    (within_anything program).mono (fun _ => id) (fun _ _ _ => rfl) fun _ => id
  (hany.runOn between (fun request world _ => hanswer request world) hrun).2

end Within

/-! ## Two handlers -/

/-- How two answers to a call compare: the first stops the run, or they are the same and leave
related worlds. -/
def Alike {η' : Type} (related : η → η' → Prop) (stopped : ε → η → Prop) (answer : Except ε α × η)
    (answer' : Except ε α × η') : Prop :=
  (∃ error world, answer = (.error error, world) ∧ stopped error world) ∨
    answer.1 = answer'.1 ∧ related answer.2 answer'.2

/-- How a run compares with one of the same program under another handler: it was stopped, or the
two panic alike, or return alike with related worlds. -/
inductive Compared {η' : Type} (related : η → η' → Prop) (stopped : ε → η → Prop) :
    Except π (Except ε α × σ × η) → Except π (Except ε α × σ × η') → Prop where
  | stopped {error : ε} {state : σ} {world : η} {other : Except π (Except ε α × σ × η')}
      (h : stopped error world) : Compared related stopped (.ok (.error error, state, world)) other
  | panicked (cause : π) : Compared related stopped (.error cause) (.error cause)
  | returned {result : Except ε α} {state : σ} {world : η} {world' : η'} (h : related world world') :
      Compared related stopped (.ok (result, state, world)) (.ok (result, state, world'))

/-- If every call is answered alike or stopped, so is every run. -/
theorem Within.compared {may : {β : Type} → Q β → Prop} {related : η → η' → Prop}
    (hcall : ∀ {β : Type} (request : Q β) world world', may request → related world world' →
      Alike related stopped (handler β request world) (handler' β request world'))
    (h : program.Within may kept returned) (state : σ)
    (hrelated : related world world') :
    Compared related stopped (program.runOn handler state world)
      (program.runOn handler' state world') := by
  induction program generalizing state world world' with
  | ret value => exact .returned hrelated
  | fail error => exact .returned hrelated
  | panic cause => exact .panicked cause
  | update change next ih => exact ih _ (h.2 _) _ hrelated
  | ask request next ih =>
    rcases hcall request world world' h.1 hrelated with ⟨error, world₁, hstopped, herror⟩ | ⟨hsame, hafter⟩
    · simp only [Program.runOn, hstopped]
      exact .stopped herror
    · simp only [Program.runOn]
      generalize handler _ request world = answered at hsame hafter
      generalize handler' _ request world' = answered' at hsame hafter
      obtain ⟨result, world₁⟩ := answered
      obtain ⟨result', world₁'⟩ := answered'
      obtain rfl : result = result' := hsame
      cases result with
      | error error => exact .returned hafter
      | ok answer => exact ih answer (h.2 answer) state hafter

end Program
