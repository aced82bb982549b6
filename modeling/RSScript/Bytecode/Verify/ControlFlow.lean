import RSScript.Lib.Worklist
import RSScript.Bytecode.Verify.Instruction

/-!
# Control flow of a function body

Both dataflow passes follow the same successors: the two terminators have none,
a jump has its target, a conditional jump its target and the next instruction,
and a match instruction its two targets. Falling off the end of the body is an
exit, not an edge.
-/

namespace RSScript.Bytecode

open Guards Outcome

/-- Where control goes after an instruction; targets are named by their fields. -/
inductive Control where
  | stop
  | next
  | jump (target : String)
  | branch (target : String)
  | split (first second : String)
  | lookup
  deriving DecidableEq, Repr

def control (opcode : String) : Control :=
  if opcode ∈ ["Return", "RuntimeError"] then .stop
  else if opcode = "Jump" then .jump "target"
  else if opcode ∈ ["JumpIfBool", "JumpIfIntCompare"] then .branch "target"
  else if opcode = "MatchOption" then .split "some_ip" "none_ip"
  else if opcode = "MatchResult" then .split "ok_ip" "err_ip"
  else if opcode = "MatchVariant" then .split "match_ip" "else_ip"
  else if opcode ∈ ["MatchMapGet", "MatchSortedMapGet"] then .lookup
  else .next

/-- The target fields of a control form. -/
def Control.targets : Control → List String
  | .stop | .next => []
  | .jump target | .branch target => [target]
  | .split first second => [first, second]
  | .lookup => ["some_ip", "none_ip"]

/-- Whether control may go on to the next instruction. -/
def Control.fallsThrough : Control → Bool
  | .next | .branch _ => true
  | .stop | .jump _ | .split _ _ | .lookup => false

variable {opcode : String} {fields : Fields}

attribute [local simp] Control.targets Control.fallsThrough

/-- An opcode has the target fields its control form needs. -/
theorem control_targets (h : name ∈ (control opcode).targets) :
    name ∈ instructionFields opcode ∧ name ∈ targetFields := by
  have hclosed : ∀ opcode ∈ ["Jump", "JumpIfBool", "JumpIfIntCompare", "MatchOption", "MatchResult",
      "MatchVariant", "MatchMapGet", "MatchSortedMapGet"], ∀ name ∈ (control opcode).targets,
      name ∈ instructionFields opcode ∧ name ∈ targetFields := by decide +kernel
  by_cases hopcode : opcode ∈ ["Jump", "JumpIfBool", "JumpIfIntCompare", "MatchOption",
      "MatchResult", "MatchVariant", "MatchMapGet", "MatchSortedMapGet"]
  · exact hclosed opcode hopcode name h
  · simp only [List.mem_cons, List.not_mem_nil, or_false, not_or] at hopcode
    unfold control at h
    simp only [List.mem_cons, List.not_mem_nil, or_false, hopcode, if_false] at h
    split at h <;> exact absurd h (by simp)

theorem control_lookup (h : control opcode = .lookup) : "value_dst" ∈ instructionFields opcode := by
  have hopcode : opcode ∈ ["MatchMapGet", "MatchSortedMapGet"] := by
    unfold control at h
    by_contra hne
    split_ifs at h
  simp only [List.mem_cons, List.not_mem_nil, or_false] at hopcode
  rcases hopcode with rfl | rfl <;> decide +kernel

/-- The instruction at a position of a body. -/
def instructionAt (code : List Value) (ip : Nat) : Option (String × Fields) :=
  code[ip]?.bind parts?

/-- Every instruction of a body can be read by the passes. -/
def BodyVerified (code : List Value) : Prop :=
  ∀ ip, ip < code.length → ∃ opcode fields, instructionAt code ip = some (opcode, fields) ∧
    WireVerified code.length opcode fields

/-- Every instruction of a body was accepted by `verifyWireInstruction`. -/
def BodyAccepted (functionId registerCount functionCount : Nat) (code : List Value) : Prop :=
  ∀ ip instruction, code[ip]? = some instruction → ∃ before after,
    verifyWireInstruction ⟨functionId, ip, registerCount, code.length, functionCount⟩ instruction
      before = .ok after

theorem BodyAccepted.verified (h : BodyAccepted functionId registerCount functionCount code) :
    BodyVerified code := by
  intro ip hlt
  obtain ⟨before, after, haccepted⟩ := h ip code[ip] (List.getElem?_eq_getElem hlt)
  obtain ⟨opcode, fields, hparts, hverified⟩ := wireVerified_of_verifyWireInstruction haccepted
  exact ⟨opcode, fields, by simp [instructionAt, hlt, hparts], hverified⟩

/-- Reading a verified instruction succeeds. -/
theorem instructionParts_of_instructionAt (h : instructionAt code ip = some (opcode, fields)) :
    ∃ instruction, (at_ code ip : Checked Value) = .ok instruction ∧
      instructionParts functionId ip instruction = .ok (opcode, fields) := by
  obtain ⟨instruction, hat, hparts⟩ := Option.bind_eq_some_iff.mp h
  exact ⟨instruction, at_eq_ok.mpr hat, orInvalid_eq_ok.mpr hparts⟩

/-! ## Successors -/

/-- The control-flow edges of an instruction. The flag marks the edge a map
lookup takes when it finds its key. -/
inductive Edge (codeLen ip : Nat) (opcode : String) (fields : Fields) : Nat → Bool → Prop
  | next (falls : (control opcode).fallsThrough) (inside : ip + 1 < codeLen) :
      Edge codeLen ip opcode fields (ip + 1) false
  | target {name : String} {target : Nat} (named : name ∈ (control opcode).targets)
      (index : index? fields name = some target) :
      Edge codeLen ip opcode fields target (control opcode = .lookup ∧ name = "some_ip")

/-- A target field of a verified instruction leads inside the body. -/
theorem WireVerified.target_of_control (hverified : WireVerified codeLen opcode fields)
    (h : name ∈ (control opcode).targets) :
    ∃ target, index? fields name = some target ∧ target < codeLen := by
  obtain ⟨hfield, htarget⟩ := control_targets h
  obtain ⟨value, hvalue⟩ := hverified.field name hfield
  obtain ⟨target, hindex, hlt⟩ := hverified.target name htarget value hvalue
  exact ⟨target, by simp [index?, hvalue, hindex], hlt⟩

theorem Edge.inside {codeLen ip target : Nat} (hverified : WireVerified codeLen opcode fields)
    (h : Edge codeLen ip opcode fields target found) : target < codeLen := by
  cases h with
  | next _ hlt => exact hlt
  | target hnamed hindex =>
    obtain ⟨_, hindex', hlt⟩ := hverified.target_of_control hnamed
    obtain rfl := Option.some.inj (hindex.symm.trans hindex')
    exact hlt

/-! ## Edges as the passes build them -/

section Edges

variable {σ : Type}

/-- An edge to the target a field names. -/
def edgeTo (fields : Fields) (field : String) (state : σ) : Checked (Nat × σ) := do
  return (← requiredIndex fields field, state)

/-- The edge to the next instruction, or what a pass does at the end of the body. -/
def fallthrough (codeLen ip : Nat) (state : σ) (exit : List (Checked (Nat × σ))) :
    List (Checked (Nat × σ)) :=
  if ip + 1 < codeLen then [.ok (ip + 1, state)] else exit

/-- The edges out of an instruction, in the order the passes follow them. `found`
is the state on the edge of a successful lookup. -/
def edges (codeLen ip : Nat) (fields : Fields) (found : Checked σ) (after : σ)
    (exit : List (Checked (Nat × σ))) : Control → List (Checked (Nat × σ))
  | .stop => []
  | .next => fallthrough codeLen ip after exit
  | .jump target => [edgeTo fields target after]
  | .branch target => edgeTo fields target after :: fallthrough codeLen ip after exit
  | .split first second => [edgeTo fields first after, edgeTo fields second after]
  | .lookup => [do edgeTo fields "some_ip" (← found), edgeTo fields "none_ip" after]

theorem edgeTo_of_index (h : index? fields field = some target) :
    edgeTo fields field state = .ok (target, state) :=
  bind_eq_ok.mpr ⟨target, requiredIndex_eq_ok.mpr h, rfl⟩

variable {edge : Checked (Nat × σ)}

theorem mem_fallthrough : edge ∈ fallthrough codeLen ip after exit ↔
      (ip + 1 < codeLen ∧ edge = .ok (ip + 1, after)) ∨ (¬ip + 1 < codeLen ∧ edge ∈ exit) := by
  unfold fallthrough
  split <;> simp [*]

theorem exists_edge : (∃ target isFound, Edge codeLen ip opcode fields target isFound ∧
        edge = .ok (target, if isFound then value else after)) ↔
      ((control opcode).fallsThrough ∧ ip + 1 < codeLen ∧ edge = .ok (ip + 1, after)) ∨
      ∃ name ∈ (control opcode).targets, ∃ target, index? fields name = some target ∧
        edge = .ok (target, if control opcode = .lookup ∧ name = "some_ip" then value else after) := by
  constructor
  · rintro ⟨_, _, hedge, rfl⟩
    cases hedge with
    | next hfalls hlt => exact .inl ⟨hfalls, hlt, by simp⟩
    | target hnamed hindex => exact .inr ⟨_, hnamed, _, hindex, by simp⟩
  · rintro (⟨hfalls, hlt, rfl⟩ | ⟨name, hnamed, target, hindex, rfl⟩)
    · exact ⟨_, _, .next hfalls hlt, by simp⟩
    · exact ⟨_, _, .target hnamed hindex, by simp⟩

attribute [local simp] edges

/-- The edges of a verified instruction are its successors, and at the end of the
body whatever the pass does there. -/
theorem mem_edges (hverified : WireVerified codeLen opcode fields)
    (hfound : control opcode = .lookup → found = .ok value) :
    edge ∈ edges codeLen ip fields found after exit (control opcode) ↔
      (∃ target isFound, Edge codeLen ip opcode fields target isFound ∧
        edge = .ok (target, if isFound then value else after)) ∨
      ((control opcode).fallsThrough ∧ ¬ip + 1 < codeLen ∧ edge ∈ exit) := by
  have htargets : ∀ name ∈ (control opcode).targets, ∃ target, index? fields name = some target :=
    fun name hname => by
      obtain ⟨target, hindex, -⟩ := hverified.target_of_control hname
      exact ⟨target, hindex⟩
  rw [exists_edge]
  cases hcontrol : control opcode with
  | stop => simp
  | next => simp [mem_fallthrough]
  | jump name =>
    obtain ⟨target, hindex⟩ := htargets name (by simp [hcontrol])
    simp [edgeTo_of_index hindex, hindex]
  | branch name =>
    obtain ⟨target, hindex⟩ := htargets name (by simp [hcontrol])
    simp [edgeTo_of_index hindex, hindex, mem_fallthrough]
    tauto
  | split first second =>
    obtain ⟨target, hindex⟩ := htargets first (by simp [hcontrol])
    obtain ⟨target', hindex'⟩ := htargets second (by simp [hcontrol])
    simp [edgeTo_of_index hindex, edgeTo_of_index hindex', hindex, hindex']
  | lookup =>
    obtain ⟨target, hindex⟩ := htargets "some_ip" (by simp [hcontrol])
    obtain ⟨target', hindex'⟩ := htargets "none_ip" (by simp [hcontrol])
    have hsome : (do edgeTo fields "some_ip" (← found)) = .ok (target, value) :=
      bind_eq_ok.mpr ⟨value, hfound hcontrol, edgeTo_of_index hindex⟩
    simp [hsome, edgeTo_of_index hindex', hindex, hindex']

/-- Every successor has its edge, in any body. -/
theorem mem_edges_of_edge {isFound : Bool} (hfound : isFound → found = .ok value)
    (h : Edge codeLen ip opcode fields target isFound) :
    .ok (target, if isFound then value else after) ∈
      edges codeLen ip fields found after exit (control opcode) := by
  cases h with
  | next hfalls hlt =>
    cases hcontrol : control opcode <;>
      simp [hcontrol, mem_fallthrough, hlt] at hfalls ⊢
  | @target name _ hnamed hindex =>
    cases hcontrol : control opcode <;> rw [hcontrol] at hnamed <;>
      simp only [Control.targets, List.mem_cons, List.not_mem_nil, or_false] at hnamed
    case jump | branch =>
      subst hnamed
      simp [edgeTo_of_index hindex]
    case split =>
      rcases hnamed with rfl | rfl <;> simp [edgeTo_of_index hindex]
    case lookup =>
      rcases hnamed with rfl | rfl
      · have hsome : (do edgeTo fields "some_ip" (← found)) = .ok (_, value) :=
          bind_eq_ok.mpr ⟨value, hfound (by simp [hcontrol]), edgeTo_of_index hindex⟩
        simp [hsome]
      · simp [edgeTo_of_index hindex]

/-- What a pass does at the end of the body is among its edges there. -/
theorem mem_edges_of_exit (hfalls : (control opcode).fallsThrough) (hend : ¬ip + 1 < codeLen)
    (h : edge ∈ exit) : edge ∈ edges codeLen ip fields found after exit (control opcode) := by
  cases hcontrol : control opcode <;>
    simp [hcontrol, mem_fallthrough, hend, h] at hfalls ⊢

end Edges

end RSScript.Bytecode
