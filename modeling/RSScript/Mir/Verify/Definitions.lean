import RSScript.Mir.Paths
import RSScript.Mir.Verify.Module

/-!
# One definition per value

The instruction checks go through a function once, in the order of its blocks,
and refuse a value that is already defined. So no value is defined by two
instructions of an accepted function, nor twice by one.
-/

namespace RSScript.Mir

open Guards Outcome
open List hiding after

/-- Going from one set of known ids to the next introduces the ids of a list, each
of them new. -/
structure Introduces (before : Finset Nat) (ids : List Nat) (after : Finset Nat) : Prop where
  nodup : ids.Nodup
  fresh : ∀ id ∈ ids, id ∉ before
  after : after = before ∪ ids.toFinset

namespace Introduces

theorem nil (a : Finset Nat) : Introduces a [] a := ⟨nodup_nil, by simp, by simp⟩

theorem append (h : Introduces a ids b) (h' : Introduces b more c) :
    Introduces a (ids ++ more) c := by
  obtain ⟨hnodup, hfresh, rfl⟩ := h
  obtain ⟨hnodup', hfresh', rfl⟩ := h'
  simp only [Finset.mem_union, mem_toFinset, not_or] at hfresh'
  refine ⟨nodup_append.mpr ⟨hnodup, hnodup', ?_⟩, ?_, ?_⟩
  · rintro id hid _ hmore rfl
    exact (hfresh' id hmore).2 hid
  · intro id hid
    rcases mem_append.mp hid with hid | hid
    · exact hfresh id hid
    · exact (hfresh' id hid).1
  · rw [toFinset_append, Finset.union_assoc]

/-- A fold introduces what its steps introduce. -/
theorem foldlM {α β : Type} {step : β → α → Verified β} (known : β → Finset Nat)
    {introduced : α → List Nat} {items : List α} {init final : β}
    (h : items.foldlM step init = .ok final)
    (hstep : ∀ {before after : β} {item : α}, step before item = .ok after →
      Introduces (known before) (introduced item) (known after)) :
    Introduces (known init) (items.flatMap introduced) (known final) := by
  induction items generalizing init with
  | nil =>
    obtain rfl : init = final := by simpa using h
    exact .nil _
  | cons item items ih =>
    obtain ⟨next, hfirst, hrest⟩ := bind_eq_ok.mp h
    exact (hstep hfirst).append (ih hrest)

end Introduces

/-! ## One instruction -/

section Instruction

variable {state after : InstructionVerification}

/-- A check that leaves the defined values as they are. -/
theorem Introduces.of_eq (h : state.defined = after.defined) :
    Introduces state.defined [] after.defined := h ▸ Introduces.nil _

theorem introduces_define (h : define function value state = .ok after) :
    Introduces state.defined [value] after.defined := by
  simp only [define, bind_eq_ok, ensure_eq_ok, pure_eq_ok] at h
  obtain ⟨_, ⟨-, hfresh⟩, rfl⟩ := h
  exact ⟨nodup_singleton _, by simpa using hfresh, by simp⟩

theorem introduces_defineFrom (h : defineFrom function destination operands state = .ok after) :
    Introduces state.defined [destination] after.defined := by
  simp only [defineFrom, bind_eq_ok, pure_eq_ok] at h
  obtain ⟨next, hdefine, rfl⟩ := h
  exact (introduces_define hdefine : Introduces _ _ next.defined)

theorem introduces_defineOnPlace
    (h : defineOnPlace function place destination operands state = .ok after) :
    Introduces state.defined [destination] after.defined := by
  simp only [defineOnPlace, bind_eq_ok] at h
  obtain ⟨_, -, h⟩ := h
  exact introduces_defineFrom h

theorem movePlace_defined (h : movePlace function place state = .ok after) :
    state.defined = after.defined := by
  simp only [movePlace, bind_eq_ok, pure_eq_ok] at h
  obtain ⟨_, -, rfl⟩ := h
  rfl

theorem initializePlace_defined (h : initializePlace function place operand state = .ok after) :
    state.defined = after.defined := by
  simp only [initializePlace, bind_eq_ok, pure_eq_ok] at h
  obtain ⟨_, -, rfl⟩ := h
  rfl

theorem verifyArgument_defined (h : verifyArgument function mismatch state passed = .ok after) :
    state.defined = after.defined := by
  obtain ⟨argument, expected, position⟩ := passed
  simp only [verifyArgument, bind_eq_ok] at h
  obtain ⟨_, -, h⟩ := h
  cases argument with
  | value =>
    obtain rfl := pure_eq_ok.mp h
    rfl
  | borrowRead | borrowMut =>
    obtain ⟨_, -, h⟩ := bind_eq_ok.mp h
    obtain rfl := pure_eq_ok.mp h
    rfl
  | take => exact movePlace_defined h

theorem verifyArguments_defined
    (h : verifyArguments function mismatch arguments modes state = .ok after) :
    state.defined = after.defined :=
  foldlM_induction (I := fun found => state.defined = found.defined) rfl
    (fun _ hbefore hstep => hbefore.trans (verifyArgument_defined hstep)) h

theorem introduces_verifyCall
    (h : verifyCall function context destination target arguments state = .ok after) :
    Introduces state.defined [destination] after.defined := by
  simp only [verifyCall, bind_eq_ok] at h
  obtain ⟨next, hdefine, _, -, modes, -, _, -, _, -, hargs⟩ := h
  rw [← verifyArguments_defined hargs]
  exact introduces_define hdefine

theorem introduces_verifyMakeClosure
    (h : verifyMakeClosure function context destination target captures state = .ok after) :
    Introduces state.defined [destination] after.defined := by
  simp only [verifyMakeClosure, bind_eq_ok] at h
  obtain ⟨next, hdefine, callee, -, _, -, hargs⟩ := h
  rw [← verifyArguments_defined hargs]
  exact introduces_define hdefine

theorem introduces_verifyCallClosure {closure : ValueId}
    (h : verifyCallClosure function context destination closure parameterTypes parameterModes
      arguments state = .ok after) : Introduces state.defined [destination] after.defined := by
  simp only [verifyCallClosure, bind_eq_ok] at h
  obtain ⟨next, hdefine, _, -, _, -, _, -, hargs⟩ := h
  rw [← verifyArguments_defined hargs]
  exact introduces_defineFrom hdefine

theorem verifySpawn_defined (h : verifySpawn function context target arguments state = .ok after) :
    state.defined = after.defined := by
  simp only [verifySpawn, bind_eq_ok] at h
  obtain ⟨callee, -, _, -, _, -, hargs⟩ := h
  exact verifyArguments_defined hargs

/-- A checked instruction introduces exactly the values it defines. -/
theorem introduces_verifyInstruction
    (h : verifyInstruction function context instruction state = .ok after) :
    Introduces state.defined instruction.defines after.defined := by
  cases instruction with
  | takePlace destination place =>
    obtain ⟨next, hmove, hdefine⟩ := bind_eq_ok.mp h
    rw [movePlace_defined hmove]
    exact introduces_define hdefine
  | select tasks winner value =>
    obtain ⟨next, hwinner, hvalue⟩ := bind_eq_ok.mp h
    exact (introduces_define hwinner).append (introduces_define hvalue)
  | tryResult destination source cleanup =>
    obtain ⟨next, hdefine, hrest⟩ := bind_eq_ok.mp h
    obtain ⟨_, -, hafter⟩ := bind_eq_ok.mp hrest
    obtain rfl := pure_eq_ok.mp hafter
    exact introduces_defineFrom hdefine
  | retain place =>
    obtain ⟨_, -, hafter⟩ := bind_eq_ok.mp h
    exact .of_eq (congrArg _ (pure_eq_ok.mp hafter))
  | drop | releaseResource => exact .of_eq (movePlace_defined h)
  | acquireResource | writePlace => exact .of_eq (initializePlace_defined h)
  | setField | discard | cancel | join =>
    obtain rfl := pure_eq_ok.mp h
    exact .of_eq rfl
  | call => exact introduces_verifyCall h
  | makeClosure => exact introduces_verifyMakeClosure h
  | callClosure => exact introduces_verifyCallClosure h
  | spawn => exact .of_eq (verifySpawn_defined h)
  | _ =>
    first
      | exact introduces_define h
      | exact introduces_defineFrom h
      | exact introduces_defineOnPlace h

end Instruction

/-! ## The whole function -/

section Function

variable {function : MirFunction}

theorem introduces_verifyBlock {entry : BasicBlock × Nat}
    (h : verifyBlock function context state entry = .ok after) :
    Introduces state.defined (entry.1.instructions.flatMap MirInstruction.defines)
      after.defined := by
  simp only [verifyBlock, bind_eq_ok, pure_eq_ok] at h
  obtain ⟨_, -, checked, hrun, used, -, rfl⟩ := h
  exact Introduces.foldlM InstructionVerification.defined hrun introduces_verifyInstruction

/-- No value is defined twice in a checked function. -/
theorem definitions_nodup
    (h : function.blocks.zipIdx.foldlM (verifyBlock function context) state = .ok after) :
    (function.instructions.flatMap MirInstruction.defines).Nodup := by
  have hintroduces := Introduces.foldlM BlocksVerification.defined h introduces_verifyBlock
  rw [MirFunction.instructions, flatMap_assoc]
  have hblocks : function.blocks.zipIdx.flatMap (fun entry =>
      entry.1.instructions.flatMap MirInstruction.defines) =
      function.blocks.flatMap fun body => body.instructions.flatMap MirInstruction.defines := by
    conv_rhs => rw [← zipIdx_map_fst 0 function.blocks, flatMap_map]
  exact hblocks ▸ hintroduces.nodup

/-- Each block of a checked function carries its position as its id. -/
theorem block_id
    (h : function.blocks.zipIdx.foldlM (verifyBlock function context) state = .ok after)
    {body : BasicBlock} (hbody : function.blocks[block]? = some body) : body.id = block := by
  have hmem : (body, block) ∈ function.blocks.zipIdx := by
    rw [mem_zipIdx_iff_getElem?]
    exact hbody
  obtain ⟨before, next, hblock⟩ := exists_of_foldlM_eq_ok h hmem
  simp only [verifyBlock, bind_eq_ok, ensure_eq_ok] at hblock
  obtain ⟨_, hid, -⟩ := hblock
  exact hid

/-- In a list without repetitions, an element comes from one position only. -/
theorem eq_of_mem_flatMap_nodup {f : α → List β} {values : List α} (h : (values.flatMap f).Nodup)
    {i j : Nat} (hx : values[i]? = some x) (hy : values[j]? = some y) (hbx : b ∈ f x)
    (hby : b ∈ f y) : i = j := by
  obtain ⟨-, hpairwise⟩ := nodup_flatMap.mp h
  rw [pairwise_iff_getElem] at hpairwise
  obtain ⟨hi, rfl⟩ := List.getElem?_eq_some_iff.mp hx
  obtain ⟨hj, rfl⟩ := List.getElem?_eq_some_iff.mp hy
  rcases Nat.lt_trichotomy i j with hlt | heq | hgt
  · exact absurd hby (hpairwise i j hi hj hlt hbx)
  · exact heq
  · exact absurd hbx (hpairwise j i hj hi hgt hby)

/-- An accepted function defines a value at one site only. -/
theorem site_unique (h : (function.instructions.flatMap MirInstruction.defines).Nodup)
    {position position' : Nat} {instruction instruction' : MirInstruction}
    (hfound : function.instructionAt block position = some instruction)
    (hfound' : function.instructionAt block' position' = some instruction') {value : ValueId}
    (hvalue : value ∈ instruction.defines) (hvalue' : value ∈ instruction'.defines) :
    block = block' ∧ position = position' := by
  rw [MirFunction.instructions, flatMap_assoc] at h
  obtain ⟨body, hbody, hat⟩ := Option.bind_eq_some_iff.mp hfound
  obtain ⟨body', hbody', hat'⟩ := Option.bind_eq_some_iff.mp hfound'
  have hmem : value ∈ body.instructions.flatMap MirInstruction.defines :=
    mem_flatMap.mpr ⟨instruction, mem_of_getElem? hat, hvalue⟩
  have hmem' : value ∈ body'.instructions.flatMap MirInstruction.defines :=
    mem_flatMap.mpr ⟨instruction', mem_of_getElem? hat', hvalue'⟩
  obtain rfl : block = block' := eq_of_mem_flatMap_nodup h hbody hbody' hmem hmem'
  obtain rfl : body = body' := Option.some.inj (hbody.symm.trans hbody')
  have hnodup := (nodup_flatMap.mp h).1 body (mem_of_getElem? hbody)
  exact ⟨rfl, eq_of_mem_flatMap_nodup hnodup hat hat' hvalue hvalue'⟩

end Function

end RSScript.Mir
