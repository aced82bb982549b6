import RSScript.Bytecode.Verify.ControlFlow

/-!
# Lexical resource scopes

A body with a `ResourceAcquire` marker opts into exact scope checking. The pass
gives each instruction one stack of open scopes, the same on every edge into it,
and compares releases, early exits and returns with that stack. Bodies without a
marker keep the older path and are not checked.
-/

namespace RSScript.Bytecode

open Guards Outcome Worklist List Option Graceful

/-! ## The pass -/

/-- The stack after one instruction; the innermost scope is last. -/
def scopeStep (functionId ip : Nat) (opcode : String) (fields : Fields) (state : List Nat) :
    Checked (List Nat) :=
  let place := s!"function {functionId} instruction {ip}"
  if opcode = "ResourceAcquire" then do
    return state ++ [← requiredIndex fields "resource"]
  else if opcode = "ResourceDrop" then do
    let resource ← requiredIndex fields "resource"
    ensure (state.getLast? = some resource) <| invalidPayload
      s!"{place} releases a resource outside lexical LIFO order"
    return state.dropLast
  else if opcode = "TryResult" then do
    let cleanup ← index fields "cleanup"
    let cleanup ← orInvalid cleanup.asArray "TryResult cleanup is not an array"
    let cleanup ← cleanup.mapM fun value => jsonUsize value "cleanup"
    ensure (cleanup = state.reverse) <| invalidPayload
      s!"{place} TryResult cleanup does not cover its live resource scopes"
    return state
  else if opcode = "Return" then do
    ensure (state = []) <| invalidPayload s!"{place} returns with live resource scopes"
    return state
  -- A `RuntimeError` has no cleanup operand; the VM finalizes its run.
  else return state

/-- Where the pass ends at the end of a body: an error if a scope is still open. -/
def fallOff (functionId : Nat) (after : List Nat) : List (Checked (Nat × List Nat)) :=
  if after.isEmpty then []
  else [.error (invalidPayload
    s!"function {functionId} falls off its body with live resource scopes")]

def scopeFlow (functionId : Nat) (code : List Value) (ip : Nat) (state : List Nat) :
    Checked (List (Checked (Nat × List Nat))) := do
  let instruction ← at_ code ip
  let (opcode, fields) ← instructionParts functionId ip instruction
  let after ← scopeStep functionId ip opcode fields state
  return edges code.length ip fields (.ok after) after (fallOff functionId after) (control opcode)

def scopeProblem (functionId : Nat) (code : List Value) : Worklist.Problem (List Nat) Fault where
  size := code.length
  flow := scopeFlow functionId code
  merge _ existing state :=
    if existing = state then .ok none
    else .error <| invalidPayload
      s!"function {functionId} merges incompatible lexical resource scopes"
  outside target := invalidPayload
    s!"function {functionId} resource scope branch target {target} is outside its body"
  -- The `expect` on a queued state.
  stale _ := .panic
  dedup := false

/-- The instruction opts its body into scope checking. -/
def hasMarker (instruction : Value) : Bool :=
  ((instruction.get "ResourceAcquire").bind Value.asObject).isSome

def verifyResourceScopeLifetimes (fuel functionId : Nat) (code : List Value) : Checked Unit :=
  if code.isEmpty then return ()
  else if !code.any hasMarker then return ()
  else solve (scopeProblem functionId code) fuel []

/-! ## Paths -/

/-- The live resources after one instruction, most recent first: an acquisition
adds its register, a release takes its register out wherever it stands. -/
def liveAfter (opcode : String) (fields : Fields) (live : List Nat) : List Nat :=
  match index? fields "resource" with
  | some resource =>
    if opcode = "ResourceAcquire" then resource :: live
    else if opcode = "ResourceDrop" then live.erase resource
    else live
  | none => live

/-- A control-flow path from the entry of a body to an instruction, with the
resources acquired and not yet dropped on the way. -/
inductive ScopePath (code : List Value) : Nat → List Nat → Prop
  | entry (nonempty : 0 < code.length) : ScopePath code 0 []
  | step {ip target : Nat} {live : List Nat} {opcode : String} {fields : Fields} {found : Bool}
      (path : ScopePath code ip live) (instruction : instructionAt code ip = some (opcode, fields))
      (edge : Edge code.length ip opcode fields target found) :
      ScopePath code target (liveAfter opcode fields live)

/-- The registers a `TryResult` closes when it leaves the function early. -/
def cleanup? (fields : Fields) : Option (List Nat) := do
  let cleanup ← SortedMap.get "cleanup" fields
  (← cleanup.asArray).mapM Value.asU64

/-- What an instruction may do when it is reached with some resources live. -/
structure Balanced (code : List Value) (ip : Nat) (live : List Nat) (opcode : String)
    (fields : Fields) : Prop where
  /-- A release drops the most recently acquired live register. -/
  drop : opcode = "ResourceDrop" → ∃ resource, index? fields "resource" = some resource ∧
    live.head? = some resource
  /-- An early exit lists the live registers, innermost first. -/
  tryResult : opcode = "TryResult" → cleanup? fields = some live
  ret : opcode = "Return" → live = []
  fallOff : (control opcode).fallsThrough → ip + 1 = code.length → liveAfter opcode fields live = []

/-! ## One instruction -/

section Step

variable {opcode : String} {fields : Fields} {state after : List Nat}

theorem mapM_jsonUsize_eq_ok {values : List Value} :
    (values.mapM fun value => jsonUsize value field) = .ok indices ↔
      values.mapM Value.asU64 = some indices := by
  induction values generalizing indices with
  | nil => simp
  | cons value values ih => simp [mapM_cons, ih, bind_eq_some_iff]

/-- What the checks at an instruction establish about the stack before it, and
the stack they leave. -/
structure ScopeChecked (opcode : String) (fields : Fields) (state after : List Nat) : Prop where
  after : after.reverse = liveAfter opcode fields state.reverse
  drop : opcode = "ResourceDrop" → ∃ resource, index? fields "resource" = some resource ∧
    state.reverse.head? = some resource
  tryResult : opcode = "TryResult" → cleanup? fields = some state.reverse
  ret : opcode = "Return" → state = []

theorem liveAfter_of_ne (hacquire : opcode ≠ "ResourceAcquire") (hdrop : opcode ≠ "ResourceDrop") :
    liveAfter opcode fields live = live := by
  unfold liveAfter
  split
  · rw [if_neg hacquire, if_neg hdrop]
  · rfl

theorem scopeChecked_of_scopeStep (h : scopeStep functionId ip opcode fields state = .ok after) :
    ScopeChecked opcode fields state after := by
  unfold scopeStep at h
  split at h
  case isTrue hopcode =>
    subst hopcode
    obtain ⟨resource, hresource, hafter⟩ := bind_eq_ok.mp h
    obtain rfl := pure_eq_ok.mp hafter
    refine ⟨?_, by simp, by simp, by simp⟩
    simp [liveAfter, requiredIndex_eq_ok.mp hresource]
  case isFalse hacquire =>
  split at h
  case isTrue hopcode =>
    subst hopcode
    obtain ⟨resource, hresource, hrest⟩ := bind_eq_ok.mp h
    obtain ⟨_, hguard, hafter⟩ := bind_eq_ok.mp hrest
    obtain rfl := pure_eq_ok.mp hafter
    have hlast : state.getLast? = some resource := ensure_eq_ok.mp hguard
    have hhead : state.reverse.head? = some resource := by rw [head?_reverse, hlast]
    refine ⟨?_, fun _ => ⟨resource, requiredIndex_eq_ok.mp hresource, hhead⟩, by simp, by simp⟩
    obtain ⟨rest, rfl⟩ := getLast?_eq_some_iff.mp hlast
    simp [liveAfter, requiredIndex_eq_ok.mp hresource]
  case isFalse hdrop =>
  split at h
  case isTrue hopcode =>
    subst hopcode
    obtain ⟨value, hvalue, h⟩ := bind_eq_ok.mp h
    obtain ⟨values, hvalues, h⟩ := bind_eq_ok.mp h
    obtain ⟨cleanup, hcleanup, h⟩ := bind_eq_ok.mp h
    obtain ⟨_, hguard, hafter⟩ := bind_eq_ok.mp h
    obtain rfl := pure_eq_ok.mp hafter
    obtain rfl : cleanup = state.reverse := ensure_eq_ok.mp hguard
    refine ⟨(liveAfter_of_ne hacquire hdrop).symm, by simp, fun _ => ?_, by simp⟩
    simp [cleanup?, index_eq_ok.mp hvalue, orInvalid_eq_ok.mp hvalues,
      mapM_jsonUsize_eq_ok.mp hcleanup]
  case isFalse htry =>
  split at h
  case isTrue hopcode =>
    subst hopcode
    obtain ⟨_, hguard, hafter⟩ := bind_eq_ok.mp h
    obtain rfl := pure_eq_ok.mp hafter
    exact ⟨(liveAfter_of_ne hacquire hdrop).symm, by simp, by simp,
      fun _ => ensure_eq_ok.mp hguard⟩
  case isFalse hreturn =>
    obtain rfl := pure_eq_ok.mp h
    exact ⟨(liveAfter_of_ne hacquire hdrop).symm, fun hopcode => absurd hopcode hdrop,
      fun hopcode => absurd hopcode htry, fun hopcode => absurd hopcode hreturn⟩

theorem exists_mem_fallOff (h : after ≠ []) : ∃ fault, .error fault ∈ fallOff functionId after := by
  rw [fallOff, if_neg (by simpa using h)]
  exact ⟨_, mem_singleton.mpr rfl⟩

theorem scopeFlow_eq_ok : scopeFlow functionId code ip state = .ok es ↔
      ∃ opcode fields after, instructionAt code ip = some (opcode, fields) ∧
        scopeStep functionId ip opcode fields state = .ok after ∧
        edges code.length ip fields (.ok after) after (fallOff functionId after)
          (control opcode) = es := by
  simp only [scopeFlow, bind_eq_ok, at_eq_ok, pure_eq_ok, instructionParts, orInvalid_eq_ok,
    instructionAt, bind_eq_some_iff, Prod.exists]
  constructor
  · rintro ⟨instruction, hat, opcode, fields, hparts, after, hstep, hes⟩
    exact ⟨opcode, fields, after, ⟨instruction, hat, hparts⟩, hstep, hes⟩
  · rintro ⟨opcode, fields, after, ⟨instruction, hat, hparts⟩, hstep, hes⟩
    exact ⟨instruction, hat, opcode, fields, hparts, after, hstep, hes⟩

end Step

/-! ## The whole pass -/

section Pass

variable {functionId : Nat} {code : List Value}

theorem scopeProblem_accounts : Worklist.Accounts (scopeProblem functionId code) (· = ·) where
  refl _ := rfl
  trans := Eq.trans
  same {target existing state} hmerge := by
    by_contra hne
    simp [scopeProblem, hne] at hmerge
  changed {target existing state replacement} hmerge := by
    by_cases heq : existing = state <;> simp [scopeProblem, heq] at hmerge

variable {ip : Nat}

/-- Along every path, an accepting run holds the live resources of the path. -/
theorem incoming_of_scopePath
    (hclosed : Worklist.Closed (scopeProblem functionId code) (· = ·) incoming)
    (hentry : incoming 0 = some []) (hpath : ScopePath code ip live) :
    incoming ip = some live.reverse := by
  induction hpath with
  | entry => exact hentry
  | @step ip target live opcode fields found hpath hinstruction hedge ih =>
    obtain ⟨es, hflow, hdelivered⟩ := hclosed ip _ ih
    obtain ⟨opcode', fields', after, hinstruction', hstep, rfl⟩ := scopeFlow_eq_ok.mp hflow
    obtain ⟨rfl, rfl⟩ := Prod.mk.inj (some.inj (hinstruction.symm.trans hinstruction'))
    have hmem : .ok (target, if found then after else after) ∈ edges code.length ip fields
        (.ok after) after (fallOff functionId after) (control opcode) :=
      mem_edges_of_edge (fun _ => rfl) hedge
    obtain ⟨target', out, current, heq, -, hcurrent, rfl⟩ := hdelivered _ hmem
    obtain ⟨rfl, rfl⟩ := Prod.mk.inj (Except.ok.inj heq)
    have hafter := (scopeChecked_of_scopeStep hstep).after
    rw [reverse_reverse] at hafter
    rw [hcurrent, ite_self, ← hafter, reverse_reverse]

theorem balanced_of_closed
    (hclosed : Worklist.Closed (scopeProblem functionId code) (· = ·) incoming)
    (hincoming : incoming ip = some live.reverse) :
    ∃ opcode fields, instructionAt code ip = some (opcode, fields) ∧
      Balanced code ip live opcode fields := by
  obtain ⟨es, hflow, hdelivered⟩ := hclosed ip _ hincoming
  obtain ⟨opcode, fields, after, hinstruction, hstep, rfl⟩ := scopeFlow_eq_ok.mp hflow
  have hchecked := scopeChecked_of_scopeStep hstep
  have hdrop := hchecked.drop
  have htry := hchecked.tryResult
  have hafter := hchecked.after
  rw [reverse_reverse] at hdrop htry hafter
  refine ⟨opcode, fields, hinstruction, hdrop, htry, fun h => ?_, fun hfalls hend => ?_⟩
  · exact reverse_eq_nil_iff.mp (hchecked.ret h)
  · -- An open scope would have put an error among the edges, and none was delivered.
    by_contra hopen
    have hne : after ≠ [] := by
      rintro rfl
      exact hopen hafter.symm
    obtain ⟨fault, hfault⟩ := exists_mem_fallOff hne
    have hmem : .error fault ∈ edges code.length ip fields (.ok after) after
        (fallOff functionId after) (control opcode) :=
      mem_edges_of_exit hfalls (by omega) hfault
    obtain ⟨_, _, _, heq, -⟩ := hdelivered _ hmem
    exact absurd heq (by simp)

theorem hasMarker_of_parts (h : parts? instruction = some ("ResourceAcquire", fields)) :
    hasMarker instruction := by
  unfold parts? at h
  split at h
  · split at h
    case isTrue hopcode => exact absurd (some.inj h) (by simp [hopcode])
    case isFalse => exact absurd h (by simp)
  · obtain ⟨rfl, rfl⟩ := Prod.mk.inj (some.inj h)
    rfl
  · exact absurd h (by simp)

/-- The run behind an accepted body with a marker. -/
theorem exists_run_of_accepted
    (hmarker : ∃ ip fields, instructionAt code ip = some ("ResourceAcquire", fields))
    (h : verifyResourceScopeLifetimes fuel functionId code = .ok ()) :
    ∃ final, (scopeProblem functionId code).run fuel (Worklist.start 0 []) = some (.ok final) := by
  obtain ⟨ip, fields, hinstruction⟩ := hmarker
  obtain ⟨instruction, hat, hparts⟩ := bind_eq_some_iff.mp hinstruction
  have hmem : instruction ∈ code := mem_of_getElem? hat
  have hany : code.any hasMarker := any_eq_true.mpr ⟨instruction, hmem, hasMarker_of_parts hparts⟩
  have hnonempty : ¬code.isEmpty := by
    rw [List.isEmpty_iff]
    exact ne_nil_of_mem hmem
  unfold verifyResourceScopeLifetimes at h
  rw [if_neg hnonempty, if_neg (by simp [hany])] at h
  exact solve_eq_ok.mp h

/-- In an accepted body with a marker, the live resources at an instruction do
not depend on the path to it, and every release, early exit, return and end of
the body agrees with them. -/
theorem verifyResourceScopeLifetimes_sound {fuel functionId : Nat} {code : List Value}
    (hmarker : ∃ ip fields, instructionAt code ip = some ("ResourceAcquire", fields))
    (h : verifyResourceScopeLifetimes fuel functionId code = .ok ()) :
    (∀ ip live live', ScopePath code ip live → ScopePath code ip live' → live = live') ∧
    ∀ ip live, ScopePath code ip live → ∃ opcode fields,
      instructionAt code ip = some (opcode, fields) ∧ Balanced code ip live opcode fields := by
  obtain ⟨final, hrun⟩ := exists_run_of_accepted hmarker h
  obtain ⟨hclosed, _, hentry, rfl⟩ := Worklist.run_sound scopeProblem_accounts hrun
  refine ⟨fun ip live live' hpath hpath' => ?_, fun ip live hpath => ?_⟩
  · have hincoming := incoming_of_scopePath hclosed hentry hpath
    rw [incoming_of_scopePath hclosed hentry hpath'] at hincoming
    exact (reverse_injective (some.inj hincoming)).symm
  · exact balanced_of_closed hclosed (incoming_of_scopePath hclosed hentry hpath)

/-- A body with a scope around a loop that may leave early. -/
def scopedLoop : List Value :=
  [.object [("ResourceAcquire", .object [("resource", .number (.posInt 0))])],
   .object [("TryResult", .object [("cleanup", .array [.number (.posInt 0)]),
      ("dst", .number (.posInt 1)), ("src", .number (.posInt 2))])],
   .object [("JumpIfBool", .object [("cond", .number (.posInt 3)), ("expected", .bool true),
      ("target", .number (.posInt 1))])],
   .object [("ResourceDrop", .object [("resource", .number (.posInt 0))])],
   .object [("Return", .object [("src", .number (.posInt 1))])]]

theorem scopedLoop_accepted : verifyResourceScopeLifetimes 9 0 scopedLoop = .ok () := by
  decide +kernel

theorem verifyResourceScopeLifetimes_sound_scopedLoop :
    (∃ ip fields, instructionAt scopedLoop ip = some ("ResourceAcquire", fields)) ∧
    verifyResourceScopeLifetimes 9 0 scopedLoop = .ok () ∧
    (∀ ip live live', ScopePath scopedLoop ip live → ScopePath scopedLoop ip live' → live = live') ∧
    ∀ ip live, ScopePath scopedLoop ip live → ∃ opcode fields,
      instructionAt scopedLoop ip = some (opcode, fields) ∧
        Balanced scopedLoop ip live opcode fields :=
  ⟨⟨0, _, rfl⟩, scopedLoop_accepted,
    verifyResourceScopeLifetimes_sound ⟨0, _, rfl⟩ scopedLoop_accepted⟩

/-! ## The pass always answers -/

theorem scopeStep_graceful (hverified : WireVerified codeLen opcode fields) :
    Graceful (scopeStep functionId ip opcode fields state) := by
  unfold scopeStep
  split
  · exact (Graceful.requiredIndex _ _).bind fun _ _ => Graceful.pure _
  split
  · exact (Graceful.requiredIndex _ _).bind fun _ _ =>
      ensured fun _ _ => pure _
  split
  case isTrue htry =>
    -- `fields["cleanup"]` is there because the field set was checked.
    subst htry
    obtain ⟨cleanup, hcleanup⟩ := hverified.field "cleanup" (by decide +kernel)
    refine (Graceful.index hcleanup).bind fun value _ => ?_
    refine Graceful.valid fun values _ => ?_
    refine (Graceful.mapM fun _ _ => Graceful.jsonUsize _ _).bind fun _ _ => ?_
    exact ensured fun _ _ => pure _
  split
  · exact ensured fun _ _ => pure _
  · exact pure _

theorem scopeFlow_graceful (hbody : BodyVerified code) (hlt : ip < code.length) :
    Graceful (scopeFlow functionId code ip state) := by
  obtain ⟨opcode, fields, hinstruction, hverified⟩ := hbody ip hlt
  obtain ⟨instruction, hat, hparts⟩ := instructionParts_of_instructionAt hinstruction
  unfold scopeFlow
  rw [hat]
  change Graceful (instructionParts functionId ip instruction >>= _)
  rw [hparts]
  exact (scopeStep_graceful hverified).bind fun _ _ => pure _

theorem scopeProblem_blame (hbody : BodyVerified code)
    (h : Worklist.Blame (scopeProblem functionId code) (fun _ _ => True) fault) :
    ∃ error, fault = .error error := by
  cases h with
  | node hlt _ hflow => exact scopeFlow_graceful hbody hlt _ hflow
  | @edge ip _ _ hlt _ hflow hmem =>
    obtain ⟨opcode, fields, after, hinstruction, -, rfl⟩ := scopeFlow_eq_ok.mp hflow
    obtain ⟨opcode', fields', hinstruction', hverified⟩ := hbody ip hlt
    obtain ⟨rfl, rfl⟩ := Prod.mk.inj (some.inj (hinstruction.symm.trans hinstruction'))
    rcases (mem_edges hverified fun _ => rfl).mp hmem with ⟨_, _, _, heq⟩ | ⟨_, _, hexit⟩
    · cases heq
    · unfold fallOff at hexit
      split at hexit
      · exact absurd hexit (by simp)
      · exact ⟨_, Except.error.inj (mem_singleton.mp hexit)⟩
  | outside _ _ _ _ _ herror => exact ⟨_, herror⟩
  | @merge _ target _ out existing _ _ _ _ _ _ _ hmerge =>
    change (if existing = out then _ else _) = _ at hmerge
    split at hmerge
    · cases hmerge
    · exact ⟨_, (Except.error.inj hmerge).symm⟩

theorem verifyResourceScopeLifetimes_answers (hbody : BodyVerified code) :
    Answers fun fuel => verifyResourceScopeLifetimes fuel functionId code := by
  unfold verifyResourceScopeLifetimes
  by_cases hempty : code.isEmpty
  · simp only [if_pos hempty]
    exact Answers.of_graceful (pure ())
  simp only [if_neg hempty]
  split
  · exact Answers.of_graceful (pure ())
  · have hkept : Worklist.Kept (scopeProblem functionId code) fun _ _ => True :=
      ⟨fun _ _ _ _ => trivial, fun _ _ _ => trivial⟩
    have hdesc : Worklist.Descends (scopeProblem functionId code) (fun _ _ => True) length := by
      intro target existing state replacement _ _ hmerge
      by_cases heq : existing = state <;> simp [scopeProblem, heq] at hmerge
    have hnonempty : 0 < code.length := by
      rw [length_pos_iff]
      exact fun h => hempty (isEmpty_iff.mpr h)
    exact solve_answers hkept hdesc (Worklist.Holds.start hnonempty trivial)
      fun fault => scopeProblem_blame hbody

end Pass

end RSScript.Bytecode
