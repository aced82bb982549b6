import Mathlib.Data.Finset.Max
import RSScript.Bytecode.Verify.ControlFlow

/-!
# Definite register initialization

A forward worklist computes, for each instruction, the registers written on every
way to it; an instruction that reads another register is rejected. Joins
intersect, and a target is visited again whenever its set shrank.

`verifyRegisterInitialization_iff` states what that amounts to without the
worklist: the pass accepts exactly the bodies none of whose control-flow paths
reads a register before writing it.
-/

namespace RSScript.Bytecode

open Guards Outcome Worklist Finset Option

/-! ## The pass -/

/-- The facts after one instruction, or the read that makes it invalid. -/
def registerFlow (functionId : Nat) (code : List Value) (ip : Nat) (state : Finset Nat) :
    Checked (List (Checked (Nat × Finset Nat))) := do
  let instruction ← at_ code ip
  let (opcode, fields) ← instructionParts functionId ip instruction
  let (reads, writes) ← registerAccesses opcode fields
  if h : (reads \ state).Nonempty then
    let register := (reads \ state).min' h
    throw <| invalidPayload <|
      s!"function {functionId} instruction {ip} `{opcode}` reads uninitialized register {register}"
  else
    let after := state ∪ writes
    let found := do return insert (← requiredIndex fields "value_dst") after
    return edges code.length ip fields found after [] (control opcode)

/-- `enqueue_state` intersects, and queues the target when that changed its set. -/
def registerMerge (existing state : Finset Nat) : Option (Finset Nat) :=
  let intersection := existing ∩ state
  if existing ≠ intersection then some intersection else none

def registerProblem (functionId : Nat) (code : List Value) :
    Worklist.Problem (Finset Nat) Fault where
  size := code.length
  flow := registerFlow functionId code
  merge _ existing state := .ok (registerMerge existing state)
  -- `incoming[target]` and the `expect` on a queued state.
  outside _ := .panic
  stale _ := .panic
  dedup := false

def verifyRegisterInitialization (fuel functionId : Nat) (initializedInputs : Finset Nat)
    (code : List Value) : Checked Unit :=
  if code.isEmpty then return ()
  else solve (registerProblem functionId code) fuel initializedInputs

/-! ## Paths -/

/-- What the edge of a successful lookup writes besides. -/
def foundRegisters (fields : Fields) (found : Bool) : Finset Nat :=
  if found then (index? fields "value_dst").toFinset else ∅

/-- A control-flow path from the entry of a body to an instruction, with the
registers that are initial or were written on the way. -/
inductive RegisterPath (inputs : Finset Nat) (code : List Value) : Nat → Finset Nat → Prop
  | entry (nonempty : 0 < code.length) : RegisterPath inputs code 0 inputs
  | step {ip target : Nat} {state reads writes : Finset Nat} {opcode : String} {fields : Fields}
      {found : Bool} (path : RegisterPath inputs code ip state)
      (instruction : instructionAt code ip = some (opcode, fields))
      (accesses : registerAccesses opcode fields = .ok (reads, writes))
      (edge : Edge code.length ip opcode fields target found) :
      RegisterPath inputs code target (state ∪ writes ∪ foundRegisters fields found)

/-- No path reads a register that was neither initial nor written before. -/
def InitializedOnPaths (inputs : Finset Nat) (code : List Value) : Prop :=
  ∀ (ip : Nat) (state reads writes : Finset Nat) (opcode : String) (fields : Fields),
    RegisterPath inputs code ip state → instructionAt code ip = some (opcode, fields) →
    registerAccesses opcode fields = .ok (reads, writes) → reads ⊆ state

/-! ## One instruction -/

section Step

variable {ip : Nat} {code : List Value} {opcode : String} {fields : Fields}
  {reads writes : Finset Nat}

theorem WireVerified.index_value_dst (hverified : WireVerified codeLen opcode fields)
    (h : control opcode = .lookup) : ∃ register, index? fields "value_dst" = some register := by
  obtain ⟨value, hvalue⟩ := hverified.field "value_dst" (control_lookup h)
  obtain ⟨register, hregister⟩ := hverified.register "value_dst" value hvalue (by simp [fieldKind])
  exact ⟨register, by simp [index?, hvalue, hregister]⟩

/-- The edges of a verified instruction: one per successor, with what is written
on the way there. -/
theorem mem_registerEdges (hverified : WireVerified code.length opcode fields) :
    edge ∈ edges code.length ip fields
        (do return insert (← requiredIndex fields "value_dst") (state ∪ writes)) (state ∪ writes) []
        (control opcode) ↔
      ∃ target found, Edge code.length ip opcode fields target found ∧
        edge = .ok (target, state ∪ writes ∪ foundRegisters fields found) := by
  have hfound : control opcode = .lookup →
      (do return insert (← requiredIndex fields "value_dst") (state ∪ writes) : Checked _) =
        .ok (state ∪ writes ∪ foundRegisters fields true) := by
    intro hlookup
    obtain ⟨register, hregister⟩ := hverified.index_value_dst hlookup
    refine bind_eq_ok.mpr ⟨register, requiredIndex_eq_ok.mpr hregister, ?_⟩
    simp [foundRegisters, hregister]
  rw [mem_edges hverified hfound]
  simp only [List.not_mem_nil, and_false, or_false]
  refine exists_congr fun target => exists_congr fun found => and_congr_right fun _ => ?_
  cases found <;> simp [foundRegisters]

section Accesses

variable (hinstruction : instructionAt code ip = some (opcode, fields))
  (haccesses : registerAccesses opcode fields = .ok (reads, writes))

include hinstruction haccesses

/-- At a verified instruction the pass is left with one question: is there a
register it reads outside the state? -/
theorem registerFlow_eq : registerFlow functionId code ip state =
      if h : (reads \ state).Nonempty then
        let register := (reads \ state).min' h
        .error <| invalidPayload <|
          s!"function {functionId} instruction {ip} `{opcode}` reads uninitialized register {register}"
      else
        .ok (edges code.length ip fields
          (do return insert (← requiredIndex fields "value_dst") (state ∪ writes)) (state ∪ writes) []
          (control opcode)) := by
  obtain ⟨instruction, hat, hparts⟩ := instructionParts_of_instructionAt hinstruction
  unfold registerFlow
  rw [hat]
  change (instructionParts functionId ip instruction >>= _) = _
  rw [hparts]
  change (registerAccesses opcode fields >>= _) = _
  rw [haccesses]
  rfl

theorem registerFlow_of_subset (h : reads ⊆ state) :
    registerFlow functionId code ip state = .ok (edges code.length ip fields
      (do return insert (← requiredIndex fields "value_dst") (state ∪ writes)) (state ∪ writes) []
      (control opcode)) := by
  rw [registerFlow_eq hinstruction haccesses, dif_neg (fun hread => sdiff_nonempty.mp hread h)]

theorem registerFlow_of_not_subset (h : ¬reads ⊆ state) :
    ∃ message, registerFlow functionId code ip state = .error (invalidPayload message) := by
  rw [registerFlow_eq hinstruction haccesses, dif_pos (sdiff_nonempty.mpr h)]
  exact ⟨_, rfl⟩

end Accesses

/-- An instruction the pass went past read nothing outside the state. -/
theorem exists_of_registerFlow (hbody : BodyVerified code)
    (h : registerFlow functionId code ip state = .ok es) :
    ∃ opcode fields reads writes, instructionAt code ip = some (opcode, fields) ∧
      registerAccesses opcode fields = .ok (reads, writes) ∧ reads ⊆ state ∧
      ∀ edge, edge ∈ es ↔ ∃ target found, Edge code.length ip opcode fields target found ∧
        edge = .ok (target, state ∪ writes ∪ foundRegisters fields found) := by
  have hlt : ip < code.length := by
    obtain ⟨instruction, hat, -⟩ := bind_eq_ok.mp h
    exact (List.getElem?_eq_some_iff.mp (at_eq_ok.mp hat)).1
  obtain ⟨opcode, fields, hinstruction, hverified⟩ := hbody ip hlt
  obtain ⟨reads, writes, haccesses⟩ := hverified.accesses
  by_cases hreads : reads ⊆ state
  · rw [registerFlow_of_subset hinstruction haccesses hreads] at h
    obtain rfl := Except.ok.inj h
    exact ⟨opcode, fields, reads, writes, hinstruction, haccesses, hreads,
      fun edge => mem_registerEdges hverified⟩
  · obtain ⟨message, herror⟩ : ∃ message, registerFlow functionId code ip state = _ :=
      registerFlow_of_not_subset hinstruction haccesses hreads
    rw [herror] at h
    exact absurd h (by simp)

end Step

/-! ## The whole pass -/

section Pass

variable {functionId : Nat} {inputs : Finset Nat} {code : List Value}

/-- Whatever a fact leaves out, some path to its instruction leaves out as well. -/
def Tight (inputs : Finset Nat) (code : List Value) (ip : Nat) (state : Finset Nat) : Prop :=
  ∀ register ∉ state, ∃ path, RegisterPath inputs code ip path ∧ register ∉ path

theorem tight_start (hnonempty : 0 < code.length) :
    Worklist.Holds (registerProblem functionId code) (Tight inputs code)
      (Worklist.start 0 inputs) :=
  Worklist.Holds.start hnonempty fun _ hunset => ⟨inputs, .entry hnonempty, hunset⟩

theorem registerMerge_eq_none : registerMerge existing state = none ↔ existing ⊆ state := by
  simp only [registerMerge, ne_eq, ite_eq_right_iff, reduceCtorEq, imp_false, not_not]
  rw [eq_comm, inter_eq_left]

theorem registerMerge_eq_some : registerMerge existing state = some replacement ↔
      replacement = existing ∩ state ∧ ¬existing ⊆ state := by
  simp only [registerMerge, ne_eq, ite_none_right_eq_some, some.injEq]
  rw [eq_comm, inter_eq_left, eq_comm, and_comm]

theorem registerProblem_kept (hbody : BodyVerified code) :
    Worklist.Kept (registerProblem functionId code) (Tight inputs code) where
  flow {ip target state out es} htight hflow hmem _ := by
    obtain ⟨opcode, fields, reads, writes, hinstruction, haccesses, -, hedges⟩ :=
      exists_of_registerFlow hbody hflow
    obtain ⟨target', found, hedge, heq⟩ := (hedges _).mp hmem
    obtain ⟨rfl, rfl⟩ := Prod.mk.inj (Except.ok.inj heq)
    intro register hregister
    simp only [mem_union, not_or] at hregister
    obtain ⟨⟨hstate, hwrites⟩, hfound⟩ := hregister
    obtain ⟨path, hpath, hunset⟩ := htight register hstate
    exact ⟨_, .step hpath hinstruction haccesses hedge, by simp [hunset, hwrites, hfound]⟩
  merge {target existing state replacement} hexisting hstate hmerge := by
    obtain ⟨rfl, -⟩ := registerMerge_eq_some.mp (Except.ok.inj hmerge)
    intro register hregister
    by_cases hmem : register ∈ existing
    · exact hstate register fun hmem' => hregister (mem_inter.mpr ⟨hmem, hmem'⟩)
    · exact hexisting register hmem

theorem registerProblem_descends :
    Worklist.Descends (registerProblem functionId code) (Tight inputs code) Finset.card := by
  intro target existing state replacement _ _ hmerge
  obtain ⟨rfl, hsub⟩ := registerMerge_eq_some.mp (Except.ok.inj hmerge)
  refine card_lt_card ⟨inter_subset_left, fun h => hsub ?_⟩
  exact h.trans inter_subset_right

theorem registerProblem_accounts : Worklist.Accounts (registerProblem functionId code) (· ⊆ ·) where
  refl _ := Subset.refl _
  trans := Subset.trans
  same hmerge := registerMerge_eq_none.mp (Except.ok.inj hmerge)
  changed hmerge := by
    obtain ⟨rfl, -⟩ := registerMerge_eq_some.mp (Except.ok.inj hmerge)
    exact ⟨inter_subset_left, inter_subset_right⟩

/-- The facts of an accepting run lie below every path. -/
theorem subset_path_of_closed (hbody : BodyVerified code)
    (hclosed : Worklist.Closed (registerProblem functionId code) (· ⊆ ·) incoming)
    (hentry : ∃ current, incoming 0 = some current ∧ current ⊆ inputs)
    (hpath : RegisterPath inputs code ip path) :
    ∃ current, incoming ip = some current ∧ current ⊆ path := by
  -- Along the path, each edge was delivered from a fact below the path so far.
  induction hpath with
  | entry => exact hentry
  | @step ip target path reads writes opcode fields found hpath hinstruction haccesses hedge ih =>
    obtain ⟨current, hcurrent, hsub⟩ := ih
    obtain ⟨es, hflow, hdelivered⟩ := hclosed ip current hcurrent
    obtain ⟨opcode', fields', reads', writes', hinstruction', haccesses', -, hedges⟩ :=
      exists_of_registerFlow hbody hflow
    obtain ⟨rfl, rfl⟩ := Prod.mk.inj (some.inj (hinstruction.symm.trans hinstruction'))
    obtain ⟨rfl, rfl⟩ := Prod.mk.inj (Except.ok.inj (haccesses.symm.trans haccesses'))
    obtain ⟨target', out, new, heq, -, hnew, hle⟩ :=
      hdelivered _ ((hedges _).mpr ⟨target, found, hedge, rfl⟩)
    obtain ⟨rfl, rfl⟩ := Prod.mk.inj (Except.ok.inj heq)
    refine ⟨new, hnew, hle.trans ?_⟩
    exact union_subset_union (union_subset_union hsub subset_rfl) subset_rfl

/-- A run that accepts has seen every read of every path. -/
theorem initializedOnPaths_of_run (hbody : BodyVerified code)
    (h : (registerProblem functionId code).run fuel (Worklist.start 0 inputs) = some (.ok final)) :
    InitializedOnPaths inputs code := by
  obtain ⟨hclosed, hentry⟩ := Worklist.run_sound registerProblem_accounts h
  intro ip path reads writes opcode fields hpath hinstruction haccesses
  obtain ⟨current, hcurrent, hsub⟩ := subset_path_of_closed hbody hclosed hentry hpath
  obtain ⟨es, hflow, -⟩ := hclosed ip current hcurrent
  obtain ⟨opcode', fields', reads', writes', hinstruction', haccesses', hreads, -⟩ :=
    exists_of_registerFlow hbody hflow
  obtain ⟨rfl, rfl⟩ := Prod.mk.inj (some.inj (hinstruction.symm.trans hinstruction'))
  obtain ⟨rfl, rfl⟩ := Prod.mk.inj (Except.ok.inj (haccesses.symm.trans haccesses'))
  exact hreads.trans hsub

/-- The only fault of the pass is a read that some path makes too early. -/
theorem registerProblem_blame (hbody : BodyVerified code)
    (h : Worklist.Blame (registerProblem functionId code) (Tight inputs code) fault) :
    (∃ message, fault = invalidPayload message) ∧ ¬InitializedOnPaths inputs code := by
  cases h with
  | @node ip state hlt htight hflow =>
    obtain ⟨opcode, fields, hinstruction, hverified⟩ := hbody ip hlt
    obtain ⟨reads, writes, haccesses⟩ := hverified.accesses
    have hreads : ¬reads ⊆ state := by
      intro hsub
      rw [show (registerProblem functionId code).flow ip state = _ from
        registerFlow_of_subset hinstruction haccesses hsub] at hflow
      exact absurd hflow (by simp)
    obtain ⟨message, herror⟩ : ∃ message, registerFlow functionId code ip state = _ :=
      registerFlow_of_not_subset hinstruction haccesses hreads
    refine ⟨⟨message, Except.error.inj (hflow.symm.trans herror)⟩, fun hall => ?_⟩
    obtain ⟨register, hread, hunset⟩ := not_subset.mp hreads
    obtain ⟨path, hpath, hunset'⟩ := htight register hunset
    exact hunset' (hall ip path reads writes opcode fields hpath hinstruction haccesses hread)
  | edge _ _ hflow hmem =>
    obtain ⟨_, _, _, _, _, _, _, hedges⟩ := exists_of_registerFlow hbody hflow
    obtain ⟨_, _, _, heq⟩ := (hedges _).mp hmem
    exact absurd heq (by simp)
  | @outside ip _ _ _ _ hlt _ hflow hmem hout =>
    obtain ⟨opcode, fields, _, _, hinstruction, _, _, hedges⟩ := exists_of_registerFlow hbody hflow
    obtain ⟨target, found, hedge, heq⟩ := (hedges _).mp hmem
    obtain ⟨rfl, -⟩ := Prod.mk.inj (Except.ok.inj heq)
    obtain ⟨opcode', fields', hinstruction', hverified⟩ := hbody ip hlt
    obtain ⟨rfl, rfl⟩ := Prod.mk.inj (some.inj (hinstruction.symm.trans hinstruction'))
    exact absurd (hedge.inside hverified) hout
  | merge _ _ _ _ _ _ hmerge => exact absurd hmerge (by simp [registerProblem])

theorem verifyRegisterInitialization_of_ne_nil (hnonempty : 0 < code.length) :
    verifyRegisterInitialization fuel functionId inputs code =
      solve (registerProblem functionId code) fuel inputs := by
  exact if_neg (by simpa [List.length_pos_iff] using hnonempty)

theorem verifyRegisterInitialization_answers (functionId : Nat) (inputs : Finset Nat)
    (hbody : BodyVerified code) :
    Answers fun fuel => verifyRegisterInitialization fuel functionId inputs code := by
  by_cases hnonempty : 0 < code.length
  · simp only [verifyRegisterInitialization_of_ne_nil hnonempty]
    refine solve_answers (registerProblem_kept hbody) registerProblem_descends
      (tight_start hnonempty) fun fault hblame => ?_
    obtain ⟨⟨message, rfl⟩, -⟩ := registerProblem_blame hbody hblame
    exact ⟨_, rfl⟩
  · obtain rfl : code = [] := List.eq_nil_of_length_eq_zero (Nat.eq_zero_of_not_pos hnonempty)
    exact Answers.of_graceful (Graceful.pure ())

/-- The pass accepts with any fuel only if no path reads too early. -/
theorem initializedOnPaths_of_accepted (hbody : BodyVerified code)
    (h : verifyRegisterInitialization fuel functionId inputs code = .ok ()) :
    InitializedOnPaths inputs code := by
  by_cases hnonempty : 0 < code.length
  · rw [verifyRegisterInitialization_of_ne_nil hnonempty] at h
    obtain ⟨final, hrun⟩ := solve_eq_ok.mp h
    exact initializedOnPaths_of_run hbody hrun
  · intro ip state reads writes opcode fields _ hinstruction
    obtain rfl : code = [] := List.eq_nil_of_length_eq_zero (Nat.eq_zero_of_not_pos hnonempty)
    exact absurd hinstruction (by simp [instructionAt])

/-- The pass reports an error only if some path reads too early. -/
theorem not_initializedOnPaths_of_rejected (hbody : BodyVerified code)
    (h : verifyRegisterInitialization fuel functionId inputs code = .error (.error error)) :
    ¬InitializedOnPaths inputs code := by
  by_cases hnonempty : 0 < code.length
  · rw [verifyRegisterInitialization_of_ne_nil hnonempty] at h
    obtain hrun | ⟨_, hcontra⟩ := solve_eq_error.mp h
    · exact (registerProblem_blame hbody (Worklist.run_error (registerProblem_kept hbody)
        (tight_start hnonempty) hrun)).2
    · exact absurd hcontra (by simp)
  · obtain rfl : code = [] := List.eq_nil_of_length_eq_zero (Nat.eq_zero_of_not_pos hnonempty)
    exact absurd h (by simp [verifyRegisterInitialization, pure, Except.pure])

/-- For a body whose instructions are all well formed, the worklist ends, and the
pass accepts exactly when no control-flow path reads a register too early. -/
theorem verifyRegisterInitialization_iff (functionId registerCount functionCount : Nat)
    (inputs : Finset Nat) (code : List Value)
    (haccepted : BodyAccepted functionId registerCount functionCount code) :
    ∃ bound, ∀ fuel, bound ≤ fuel →
      verifyRegisterInitialization fuel functionId inputs code ≠ .error .outOfFuel ∧
      (verifyRegisterInitialization fuel functionId inputs code = .ok () ↔
        InitializedOnPaths inputs code) := by
  have hbody := haccepted.verified
  obtain ⟨bound, result, hgraceful, hresult⟩ :=
    verifyRegisterInitialization_answers functionId inputs hbody
  refine ⟨bound, fun fuel hfuel => ?_⟩
  cases hverdict : verifyRegisterInitialization fuel functionId inputs code with
  | ok =>
    have hall := initializedOnPaths_of_accepted hbody hverdict
    exact ⟨by simp, by simp [hall]⟩
  | error fault =>
    obtain ⟨error, rfl⟩ := hgraceful fault ((hresult fuel hfuel).symm.trans hverdict)
    have hnot := not_initializedOnPaths_of_rejected hbody hverdict
    exact ⟨by simp, by simp [hnot]⟩

/-- A body that looks a key up in a loop and returns what it found last; the
lookup writes register 2 on one of its edges only. -/
def lookupLoop : List Value :=
  [.object [("LoadUnit", .object [("dst", .number (.posInt 2))])],
   .object [("MatchMapGet", .object [("key", .number (.posInt 1)), ("map", .number (.posInt 0)),
      ("none_ip", .number (.posInt 2)), ("some_ip", .number (.posInt 1)),
      ("value_dst", .number (.posInt 2))])],
   .object [("Return", .object [("src", .number (.posInt 2))])]]

theorem lookupLoop_accepted : BodyAccepted 0 3 1 lookupLoop := by
  intro ip instruction h
  match ip with
  | 0 | 1 | 2 =>
    obtain rfl := some.inj h
    exact ⟨∅, ∅, by decide +kernel⟩
  | ip + 3 => exact absurd h (by simp [lookupLoop])

theorem verifyRegisterInitialization_iff_lookupLoop : BodyAccepted 0 3 1 lookupLoop ∧
    ∃ bound, ∀ fuel, bound ≤ fuel →
      verifyRegisterInitialization fuel 0 {0, 1} lookupLoop ≠ .error .outOfFuel ∧
      (verifyRegisterInitialization fuel 0 {0, 1} lookupLoop = .ok () ↔
        InitializedOnPaths {0, 1} lookupLoop) :=
  ⟨lookupLoop_accepted,
    verifyRegisterInitialization_iff 0 3 1 {0, 1} lookupLoop lookupLoop_accepted⟩

example : verifyRegisterInitialization 9 0 {0, 1} lookupLoop = .ok () := by decide +kernel

example : verifyRegisterInitialization 9 0 {0} lookupLoop = .error (invalidPayload
    "function 0 instruction 1 `MatchMapGet` reads uninitialized register 1") := by decide +kernel

end Pass

end RSScript.Bytecode
