import RSScript.Mir.Verify.Definitions
import RSScript.Mir.Verify.Moves

/-!
# Values and places on every path

The dominance pass sweeps over the blocks until a sweep changes nothing. What it
then holds at a block is defined on every path there, which together with single
definitions and the move pass gives the guarantee the verifier makes about the
operands of an accepted function.
-/

namespace RSScript.Mir

open FlowGraph Guards Outcome

/-! ## A sweep that changes nothing -/

section Sweep

variable {function : MirFunction} {state : DominanceState}

/-- The fact at a successor includes no value that does not leave the block. -/
def JoinedInto (entries : BlockId → Option (Finset ValueId)) (exit : Finset ValueId)
    (successor : BlockId) : Prop :=
  ∃ next, entries successor = some next ∧ next ⊆ exit

variable {successor : BlockId}

theorem joinExit_eq_ok (h : joinExit function exit state successor = .ok after) :
    successor < function.blocks.length ∧
      ((after = state ∧ JoinedInto state.entries exit successor) ∨
        ∃ merged, after = ⟨Function.update state.entries successor (some merged), true⟩ ∧
          ∀ existing, state.entries successor = some existing → merged ⊆ existing) := by
  obtain ⟨_, hlt, h⟩ := bind_eq_ok.mp h
  refine ⟨ensure_eq_ok.mp hlt, ?_⟩
  cases hentry : state.entries successor with
  | none =>
    simp only [hentry] at h
    obtain rfl := pure_eq_ok.mp h
    exact .inr ⟨exit, rfl, by simp⟩
  | some existing =>
    simp only [hentry] at h
    split at h
    · obtain rfl := pure_eq_ok.mp h
      refine .inr ⟨existing ∩ exit, rfl, fun found hfound => ?_⟩
      rw [← Option.some.inj hfound]
      exact Finset.inter_subset_left
    case isFalse hsame =>
      obtain rfl := pure_eq_ok.mp h
      have heq : existing = existing ∩ exit := Option.some.inj (not_not.mp hsame)
      exact .inl ⟨rfl, existing, hentry, heq ▸ Finset.inter_subset_right⟩

/-- If no step of a fold can end unchanged other than by doing nothing, neither
can the fold. -/
theorem foldlM_unchanged {step : DominanceState → α → Verified DominanceState}
    {P : α → DominanceState → Prop}
    (hstep : ∀ {before next : DominanceState} {a : α}, step before a = .ok next →
      next.changed = false → next = before ∧ P a before)
    {values : List α} (h : values.foldlM step state = .ok after) (hafter : after.changed = false) :
    after = state ∧ ∀ a ∈ values, P a state := by
  induction values generalizing state with
  | nil =>
    obtain rfl : state = after := by simpa using h
    exact ⟨rfl, by simp⟩
  | cons first values ih =>
    obtain ⟨next, hfirst, hrest⟩ := bind_eq_ok.mp h
    obtain ⟨rfl, hvalues⟩ := ih hrest
    obtain ⟨rfl, hhead⟩ := hstep hfirst hafter
    exact ⟨rfl, List.forall_mem_cons.mpr ⟨hhead, hvalues⟩⟩

/-- A block's fact has reached all of its successors. -/
def BlockSettled (body : BasicBlock) (state : DominanceState) : Prop :=
  ∀ entry, state.entries body.id = some entry → ∀ successor ∈ successors body.terminator,
    JoinedInto state.entries (entry ∪ blockDefinitions body) successor

theorem joinExit_unchanged (h : joinExit function exit state successor = .ok after)
    (hafter : after.changed = false) : after = state ∧ JoinedInto state.entries exit successor := by
  obtain ⟨-, hsame | ⟨merged, rfl, -⟩⟩ := joinExit_eq_ok h
  · exact hsame
  · exact absurd hafter (by simp)

theorem dominanceBlock_unchanged {body : BasicBlock}
    (h : dominanceBlock function state body = .ok after) (hafter : after.changed = false) :
    after = state ∧ BlockSettled body state := by
  obtain ⟨_, -, h⟩ := bind_eq_ok.mp h
  cases hentry : state.entries body.id with
  | none =>
    simp only [hentry] at h
    obtain rfl := pure_eq_ok.mp h
    exact ⟨rfl, fun entry hfound => absurd (hentry.symm.trans hfound) (by simp)⟩
  | some entry =>
    simp only [hentry] at h
    obtain ⟨rfl, hjoined⟩ := foldlM_unchanged joinExit_unchanged h hafter
    refine ⟨rfl, fun found hfound => ?_⟩
    rw [← Option.some.inj (hentry.symm.trans hfound)]
    exact hjoined

/-- What every sweep keeps: nothing is known to be defined on entry, and facts
belong to blocks. -/
structure Rooted (function : MirFunction) (entries : BlockId → Option (Finset ValueId)) : Prop where
  entry : entries 0 = some ∅
  inside : ∀ {block : BlockId} {fact : Finset ValueId}, entries block = some fact →
    block < function.blocks.length

theorem Rooted.joinExit (hrooted : Rooted function state.entries)
    (h : joinExit function exit state successor = .ok after) : Rooted function after.entries := by
  obtain ⟨hlt, ⟨rfl, -⟩ | ⟨merged, rfl, hmerged⟩⟩ := joinExit_eq_ok h
  · exact hrooted
  refine ⟨?_, fun {block fact} hfact => ?_⟩
  · by_cases hzero : successor = 0
    · subst hzero
      simpa using hmerged ∅ hrooted.entry
    · rw [← hrooted.entry]
      exact Function.update_of_ne (Ne.symm hzero) _ _
  · by_cases heq : block = successor
    · rw [heq]
      exact hlt
    · have hbefore : state.entries block = some fact := by
        rw [← hfact]
        exact (Function.update_of_ne heq _ _).symm
      exact hrooted.inside hbefore

theorem Rooted.dominanceBlock (hrooted : Rooted function state.entries)
    (h : dominanceBlock function state body = .ok after) : Rooted function after.entries := by
  obtain ⟨_, -, h⟩ := bind_eq_ok.mp h
  split at h
  · obtain rfl := pure_eq_ok.mp h
    exact hrooted
  · exact foldlM_induction (I := fun found => Rooted function found.entries) hrooted
      (fun _ hbefore hstep => hbefore.joinExit hstep) h

/-- The facts the sweeps end with are settled at every block. -/
theorem dominanceEntries_spec {fuel : Nat} {entries final : BlockId → Option (Finset ValueId)}
    (hrooted : Rooted function entries) (h : dominanceEntries function fuel entries = .ok final) :
    Rooted function final ∧ ∀ body ∈ function.blocks, BlockSettled body ⟨final, false⟩ := by
  induction fuel generalizing entries with
  | zero => exact absurd h throw_ne_ok
  | succ fuel ih =>
    obtain ⟨swept, hsweep, h⟩ := bind_eq_ok.mp h
    split at h
    · refine ih ?_ h
      exact foldlM_induction (I := fun found => Rooted function found.entries) hrooted
        (fun _ hbefore hstep => hbefore.dominanceBlock hstep) hsweep
    case isFalse hunchanged =>
      obtain ⟨rfl, hsettled⟩ := foldlM_unchanged dominanceBlock_unchanged hsweep
        (Bool.eq_false_iff.mpr hunchanged)
      obtain rfl := pure_eq_ok.mp h
      exact ⟨hrooted, hsettled⟩

end Sweep

/-! ## Definitions on every path -/

/-- The instruction checks of the dominance pass. -/
def useStep (function : MirFunction) (body : BasicBlock) (instruction : MirInstruction)
    (defined : Finset ValueId) : Verified (Finset ValueId) := do
  checkUses function body defined (instructionUses instruction)
  return defined ∪ (instructionDefinitions instruction).toFinset

/-- Everything in the set is defined on the path. -/
def TracksDefinitions (trace : List Site) (defined : Finset ValueId) : Prop :=
  ∀ value ∈ defined, ∃ site ∈ trace, value ∈ site.instruction.defines

theorem checkUses_eq_ok :
    checkUses function body defined values = .ok u ↔ ∀ value ∈ values, value ∈ defined := by
  rw [checkUses, forM_eq_ok]
  simp only [ensure_eq_ok]

theorem useStep_eq_ok : useStep function body instruction defined = .ok after ↔
      (∀ value ∈ instruction.uses, value ∈ defined) ∧
        defined ∪ instruction.defines.toFinset = after := by
  simp only [useStep, bind_eq_ok, pure_eq_ok, checkUses_eq_ok, instructionUses_eq,
    instructionDefinitions_eq, exists_const]

theorem runBlock_useStep (h : runBlock (useStep function body) body defined = .ok after) :
    after = defined ∪ blockDefinitions body := by
  have hfold : ∀ {instructions : List MirInstruction} {defined : Finset ValueId},
      instructions.foldlM (fun defined instruction => useStep function body instruction defined)
        defined = .ok after →
      after = defined ∪ (instructions.flatMap instructionDefinitions).toFinset := by
    intro instructions
    induction instructions with
    | nil =>
      intro defined h
      obtain rfl : defined = after := by simpa using h
      simp
    | cons instruction instructions ih =>
      intro defined h
      obtain ⟨next, hstep, hrest⟩ := bind_eq_ok.mp h
      obtain ⟨-, rfl⟩ := useStep_eq_ok.mp hstep
      rw [ih hrest, List.flatMap_cons, List.toFinset_append, instructionDefinitions_eq,
        Finset.union_assoc]
  exact hfold h

theorem TracksDefinitions.step (h : TracksDefinitions trace defined)
    (hstep : useStep function body site.instruction defined = .ok after) :
    TracksDefinitions (trace ++ [site]) after := by
  obtain ⟨-, rfl⟩ := useStep_eq_ok.mp hstep
  intro value hvalue
  rcases Finset.mem_union.mp hvalue with hvalue | hvalue
  · obtain ⟨found, hfound, hdefines⟩ := h value hvalue
    exact ⟨found, List.mem_append_left _ hfound, hdefines⟩
  · exact ⟨site, by simp, List.mem_toFinset.mp hvalue⟩

theorem analyzed_dominance (hnonempty : function.blocks ≠ [])
    (hids : ∀ {block : BlockId} {body : BasicBlock}, function.blocks[block]? = some body →
      body.id = block)
    (h : verifyValueDominance fuel function = .ok ()) :
    ∃ entries, Analyzed function (useStep function)
      (fun body defined => ∀ value ∈ body.terminator.uses, value ∈ defined) entries
      TracksDefinitions := by
  obtain ⟨entries, hentries, hchecks⟩ := bind_eq_ok.mp h
  have hroot : Rooted function (Function.update (fun _ => none) 0 (some ∅)) := by
    refine ⟨by simp, fun {block fact} hfact => ?_⟩
    by_cases hzero : block = 0
    · rw [hzero]
      exact List.length_pos_iff.mpr hnonempty
    · exact absurd hfact (by simp [Function.update_of_ne hzero])
  obtain ⟨hrooted, hsettled⟩ := dominanceEntries_spec hroot hentries
  refine ⟨entries, ⟨∅, hrooted.entry, by simp [TracksDefinitions]⟩, fun {block fact} hfact => ?_,
    TracksDefinitions.step⟩
  have hlt := hrooted.inside hfact
  have hbody : function.blocks[block]? = some function.blocks[block] := List.getElem?_eq_getElem hlt
  generalize function.blocks[block] = body at hbody
  have hmem : body ∈ function.blocks := List.mem_of_getElem? hbody
  have hid : body.id = block := hids hbody
  have hcheck : checkBlockUses function body fact = .ok () := by
    have hchecked := forM_eq_ok.mp hchecks body hmem
    simpa only [hid, hfact] using hchecked
  obtain ⟨exit, hrun, hexit⟩ := bind_eq_ok.mp hcheck
  refine ⟨body, exit, hbody, hrun, ?_, fun target htarget => ?_⟩
  · rw [← terminatorUses_eq]
    exact checkUses_eq_ok.mp hexit
  · obtain ⟨next, hnext, hsub⟩ := hsettled body hmem fact (hid ▸ hfact) target htarget
    refine ⟨next, hnext, fun trace htracks value hvalue => htracks value ?_⟩
    rw [runBlock_useStep hrun]
    exact hsub hvalue

/-- Every value an instruction or a terminator of a path uses is defined on it. -/
theorem exists_definition (h : verifyFunction fuel function context = .ok ())
    (hpath : function.Path trace (block, position)) :
    (∀ instruction, function.instructionAt block position = some instruction →
      ∀ value ∈ instruction.uses, ∃ site ∈ trace, value ∈ site.instruction.defines) ∧
    ∀ terminator, function.EndsWith (block, position) terminator →
      ∀ value ∈ terminator.uses, ∃ site ∈ trace, value ∈ site.instruction.defines := by
  obtain ⟨hnonempty, ⟨state, hblocks⟩, -, hdominance⟩ := verifyFunction_eq_ok h
  obtain ⟨entries, hanalyzed⟩ := analyzed_dominance hnonempty (block_id hblocks) hdominance
  constructor
  · intro instruction hfound value hvalue
    obtain ⟨body, defined, after, htracks, hstep⟩ := hanalyzed.instruction hpath hfound
    exact htracks value ((useStep_eq_ok.mp hstep).1 value hvalue)
  · rintro terminator ⟨body, hbody, rfl, rfl⟩ value hvalue
    obtain ⟨defined, htracks, hleave⟩ := hanalyzed.exit hpath hbody
    exact htracks value (hleave value hvalue)

/-! ## The guarantee -/

/-- Exactly one instruction of the path, which may be repeated, defines the value. -/
def DefinedOnce (trace : List Site) (value : ValueId) : Prop :=
  ∃! site, site ∈ trace ∧ value ∈ site.instruction.defines

theorem definedOnce_of_exists {function : MirFunction}
    (hnodup : (function.instructions.flatMap MirInstruction.defines).Nodup)
    (hpath : function.Path trace point) (h : ∃ site ∈ trace, value ∈ site.instruction.defines) :
    DefinedOnce trace value := by
  obtain ⟨site, hsite, hvalue⟩ := h
  refine ⟨site, ⟨hsite, hvalue⟩, ?_⟩
  rintro other ⟨hother, hvalue'⟩
  have hfound := instructionAt_of_path hpath hsite
  have hfound' := instructionAt_of_path hpath hother
  obtain ⟨hblock, hposition⟩ := site_unique hnodup hfound' hfound hvalue' hvalue
  rw [hblock, hposition] at hfound'
  cases site
  cases other
  simp_all

/-- On every path of an accepted function, a value that is used was defined by
exactly one instruction before, and a place that is needed was not moved away. -/
theorem MirModule.verify_operands {fuel : Nat} {builtins : BuiltinId → Option String}
    {module : MirModule} (h : module.verify fuel builtins = .ok ()) {function : MirFunction}
    (hfunction : function ∈ module.functions) {trace : List Site} {block : BlockId}
    {position : Nat} (hpath : function.Path trace (block, position)) :
    (∀ instruction, function.instructionAt block position = some instruction →
      (∀ value ∈ instruction.uses, DefinedOnce trace value) ∧
      ∀ access place, (access, place) ∈ instruction.accesses → access.Needs → ¬Moved trace place) ∧
    ∀ terminator, function.EndsWith (block, position) terminator →
      ∀ value ∈ terminator.uses, DefinedOnce trace value := by
  have hverified := (functionAccepted_of_verify h hfunction).verified
  obtain ⟨-, ⟨state, hblocks⟩, hmoves, -⟩ := verifyFunction_eq_ok hverified
  have hnodup := definitions_nodup hblocks
  obtain ⟨hinstruction, hterminator⟩ := exists_definition hverified hpath
  refine ⟨fun instruction hfound => ⟨fun value hvalue => ?_, fun access place hmem hneeds => ?_⟩,
    fun terminator hends value hvalue => ?_⟩
  · exact definedOnce_of_exists hnodup hpath (hinstruction instruction hfound value hvalue)
  · exact not_moved_of_verifyMoveDataflow hmoves hpath hfound hmem hneeds
  · exact definedOnce_of_exists hnodup hpath (hterminator terminator hends value hvalue)

/-- A loop that takes a place and writes it again. -/
def takeLoop : MirFunction where
  id := 0
  signature := ⟨[], [], 0, false⟩
  captures := []
  placeCount := 1
  valueCount := 4
  blocks := [
    ⟨0, [.loadLiteral 0 (.int 7), .writePlace 0 0], .jump 1⟩,
    ⟨1, [.readPlace 1 0, .loadLiteral 2 (.bool true)], .branch 2 2 3⟩,
    ⟨2, [.takePlace 3 0, .writePlace 0 3], .jump 1⟩,
    ⟨3, [.drop 0], .return (some 1)⟩]

def takeLoopModule : MirModule where
  types := [.int 64 true]
  typeLayouts := []
  variantLayouts := []
  functions := [takeLoop]
  functionDebug := [⟨"take_loop", [], none, []⟩]
  externalImports := []

theorem takeLoopModule_accepted : takeLoopModule.verify 9 (fun _ => none) = .ok () := by
  decide +kernel

/-- Once around the loop, up to the second read. -/
theorem takeLoop_path : takeLoop.Path
    [⟨0, 0, .loadLiteral 0 (.int 7)⟩, ⟨0, 1, .writePlace 0 0⟩, ⟨1, 0, .readPlace 1 0⟩,
      ⟨1, 1, .loadLiteral 2 (.bool true)⟩, ⟨2, 0, .takePlace 3 0⟩, ⟨2, 1, .writePlace 0 3⟩]
    (1, 0) := by
  have hone : takeLoop.Path _ (1, 0) := path_edge .entry rfl List.mem_cons_self
  have htwo : takeLoop.Path _ (2, 0) := path_edge hone rfl List.mem_cons_self
  exact path_edge htwo rfl List.mem_cons_self

theorem MirModule.verify_operands_takeLoop :
    takeLoopModule.verify 9 (fun _ => none) = .ok () ∧ takeLoop ∈ takeLoopModule.functions ∧
    ∃ trace, takeLoop.Path trace (1, 0) ∧
    (∀ instruction, takeLoop.instructionAt 1 0 = some instruction →
      (∀ value ∈ instruction.uses, DefinedOnce trace value) ∧
      ∀ access place, (access, place) ∈ instruction.accesses → access.Needs → ¬Moved trace place) ∧
    ∀ terminator, takeLoop.EndsWith (1, 0) terminator →
      ∀ value ∈ terminator.uses, DefinedOnce trace value :=
  ⟨takeLoopModule_accepted, List.mem_cons_self, _, takeLoop_path,
    MirModule.verify_operands takeLoopModule_accepted List.mem_cons_self takeLoop_path⟩

end RSScript.Mir
