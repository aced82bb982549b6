import RSScript.Lib.FlowGraph
import RSScript.Mir.Effects
import RSScript.Mir.Verify.Dataflow

/-!
# Control-flow paths of a function

A point is a block and a position in it. A path runs through the instructions of
a block and then along an edge of its terminator. The dataflow passes work block
by block; `Analyzed` says what such a pass computes, and `Analyzed.instruction`
and `Analyzed.exit` carry it to the points of a path.
-/

namespace RSScript.Mir

open FlowGraph Guards Outcome Worklist

/-- An instruction at its place in a function. -/
structure Site where
  block : BlockId
  position : Nat
  instruction : MirInstruction

def MirFunction.instructionAt (function : MirFunction) (block : BlockId) (position : Nat) :
    Option MirInstruction :=
  function.blocks[block]?.bind fun block => block.instructions[position]?

abbrev Point := BlockId × Nat

/-- One step of control: the next instruction, or an edge at the end of a block. -/
inductive ControlStep (function : MirFunction) : Point → Option Site → Point → Prop
  | next {block : BlockId} {position : Nat} {instruction : MirInstruction}
      (found : function.instructionAt block position = some instruction) :
      ControlStep function (block, position) (some ⟨block, position, instruction⟩)
        (block, position + 1)
  | jump {block target : BlockId} {body : BasicBlock} (found : function.blocks[block]? = some body)
      (edge : target ∈ successors body.terminator) :
      ControlStep function (block, body.instructions.length) none (target, 0)

def MirFunction.graph (function : MirFunction) : Flow Point Site where
  entry := (0, 0)
  Edge := ControlStep function

/-- A control-flow path from block 0 to a point, as the instructions on it. -/
abbrev MirFunction.Path (function : MirFunction) : List Site → Point → Prop := Run function.graph

/-- The point is the end of a block that ends with the terminator. -/
def MirFunction.EndsWith (function : MirFunction) (point : Point) (terminator : MirTerminator) :
    Prop :=
  ∃ body, function.blocks[point.1]? = some body ∧ point.2 = body.instructions.length ∧
    body.terminator = terminator

variable {function : MirFunction} {trace : List Site}

/-- The instructions of a path are those of the function. -/
theorem instructionAt_of_path (hpath : function.Path trace point) (hsite : site ∈ trace) :
    function.instructionAt site.block site.position = some site.instruction := by
  induction hpath with
  | entry => exact absurd hsite (by simp)
  | @step trace point target label hpath hedge ih =>
    rcases List.mem_append.mp hsite with hsite | hsite
    · exact ih hsite
    · cases hedge with
      | next hfound =>
        obtain rfl : site = ⟨_, _, _⟩ := by simpa using hsite
        exact hfound
      | jump => exact absurd hsite (by simp)

/-- The instructions of a block, at their places. -/
def BasicBlock.sites (body : BasicBlock) (block : BlockId) : List Site :=
  body.instructions.zipIdx.map fun (instruction, position) => ⟨block, position, instruction⟩

variable {block : BlockId} {body : BasicBlock}

/-- A path that enters a block can run through it. -/
theorem path_block (hpath : function.Path trace (block, 0))
    (hbody : function.blocks[block]? = some body) :
    function.Path (trace ++ body.sites block) (block, body.instructions.length) := by
  have hprefix : ∀ position, position ≤ body.instructions.length →
      function.Path (trace ++ (body.sites block).take position) (block, position) := by
    intro position
    induction position with
    | zero => exact fun _ => by simpa using hpath
    | succ position ih =>
      intro hle
      have hat : function.instructionAt block position = some body.instructions[position] := by
        simp [MirFunction.instructionAt, hbody]
      have hstep := (ih (by omega)).step (ControlStep.next hat)
      have hsite : (body.sites block)[position]? =
          some ⟨block, position, body.instructions[position]⟩ := by
        simp [BasicBlock.sites]
      rw [List.take_add_one, hsite, ← List.append_assoc]
      exact hstep
  have hall := hprefix _ (Nat.le_refl _)
  rwa [List.take_of_length_le (by simp [BasicBlock.sites])] at hall

/-- A path that enters a block can leave it along an edge. -/
theorem path_edge (hpath : function.Path trace (block, 0))
    (hbody : function.blocks[block]? = some body) (hedge : target ∈ successors body.terminator) :
    function.Path (trace ++ body.sites block) (target, 0) := by
  simpa using (path_block hpath hbody).step (ControlStep.jump hbody hedge)

/-! ## Block-wise analyses along paths -/

section Analysis

variable {σ : Type}

/-- A pass that gives a fact to each reached block, runs its instructions, looks at
how the block ends and passes the result on, seen through a relation `R` between
the instructions of a path and the fact at its end. -/
structure Analyzed (function : MirFunction) (step : BasicBlock → MirInstruction → σ → Verified σ)
    (Leave : BasicBlock → σ → Prop) (entries : BlockId → Option σ)
    (R : List Site → σ → Prop) : Prop where
  entry : ∃ fact, entries 0 = some fact ∧ R [] fact
  block : ∀ {block : BlockId} {fact : σ}, entries block = some fact → ∃ body exit,
    function.blocks[block]? = some body ∧ runBlock (step body) body fact = .ok exit ∧ Leave body exit ∧
    ∀ target ∈ successors body.terminator, ∃ next, entries target = some next ∧
      ∀ trace, R trace exit → R trace next
  step : ∀ {body : BasicBlock} {trace : List Site} {site : Site} {fact after : σ}, R trace fact →
    step body site.instruction fact = .ok after → R (trace ++ [site]) after

variable {function : MirFunction} {step : BasicBlock → MirInstruction → σ → Verified σ}
  {Leave : BasicBlock → σ → Prop} {entries : BlockId → Option σ} {R : List Site → σ → Prop}

/-- What is known in the middle of a block: the fact there, and that the rest of
the block goes through. -/
def Within (function : MirFunction) (step : BasicBlock → MirInstruction → σ → Verified σ)
    (Leave : BasicBlock → σ → Prop) (entries : BlockId → Option σ) (R : List Site → σ → Prop)
    (trace : List Site) (point : Point) : Prop :=
  ∃ body fact exit, function.blocks[point.1]? = some body ∧ R trace fact ∧
    (body.instructions.drop point.2).foldlM (fun fact instruction => step body instruction fact) fact =
      .ok exit ∧ Leave body exit ∧
    ∀ target ∈ successors body.terminator, ∃ next, entries target = some next ∧
      ∀ trace, R trace exit → R trace next

theorem Analyzed.within_entry (h : Analyzed function step Leave entries R)
    (hentry : entries block = some fact) (hR : R trace fact) :
    Within function step Leave entries R trace (block, 0) := by
  obtain ⟨body, exit, hbody, hrun, hleave, hedges⟩ := h.block hentry
  exact ⟨body, fact, exit, hbody, hR, hrun, hleave, hedges⟩

theorem drop_of_instructionAt (hbody : function.blocks[block]? = some body)
    (hfound : function.instructionAt block position = some instruction) :
    body.instructions.drop position = instruction :: body.instructions.drop (position + 1) := by
  rw [MirFunction.instructionAt, hbody] at hfound
  obtain ⟨hlt, rfl⟩ := List.getElem?_eq_some_iff.mp hfound
  exact List.drop_eq_getElem_cons hlt

/-- The next instruction of a path passes the step of the analysis. -/
theorem Within.instruction {instruction : MirInstruction}
    (h : Within function step Leave entries R trace (block, position))
    (hfound : function.instructionAt block position = some instruction) :
    ∃ body fact after, R trace fact ∧ step body instruction fact = .ok after ∧
      ∀ trace, R trace after → Within function step Leave entries R trace (block, position + 1) := by
  obtain ⟨body, fact, exit, hbody, hR, hrun, hleave, hedges⟩ := h
  rw [drop_of_instructionAt hbody hfound] at hrun
  obtain ⟨after, hstep, hrest⟩ := bind_eq_ok.mp hrun
  exact ⟨body, fact, after, hR, hstep,
    fun _ hR => ⟨body, after, exit, hbody, hR, hrest, hleave, hedges⟩⟩

theorem Analyzed.within (h : Analyzed function step Leave entries R)
    (hpath : function.Path trace point) : Within function step Leave entries R trace point := by
  induction hpath with
  | entry =>
    obtain ⟨fact, hentry, hR⟩ := h.entry
    exact h.within_entry hentry hR
  | @step trace point target label hpath hedge ih =>
    cases hedge with
    | next hfound =>
      obtain ⟨body, fact, after, hR, hstep, hwithin⟩ := ih.instruction hfound
      exact hwithin _ (h.step hR hstep)
    | @jump block target body hbody hedge =>
      obtain ⟨body', fact, exit, hbody', hR, hrun, -, hedges⟩ := ih
      obtain rfl : body = body' := Option.some.inj (hbody.symm.trans hbody')
      obtain rfl : fact = exit := by simpa using hrun
      obtain ⟨next, hnext, himp⟩ := hedges target hedge
      simpa using h.within_entry hnext (himp trace hR)

/-- Along every path, the instruction that comes next passes its step. -/
theorem Analyzed.instruction (h : Analyzed function step Leave entries R)
    {instruction : MirInstruction} (hpath : function.Path trace (block, position))
    (hfound : function.instructionAt block position = some instruction) :
    ∃ body fact after, R trace fact ∧ step body instruction fact = .ok after := by
  obtain ⟨body, fact, after, hR, hstep, -⟩ := (h.within hpath).instruction hfound
  exact ⟨body, fact, after, hR, hstep⟩

/-- Along every path to the end of a block, the block may be left. -/
theorem Analyzed.exit (h : Analyzed function step Leave entries R)
    (hpath : function.Path trace (block, body.instructions.length))
    (hbody : function.blocks[block]? = some body) : ∃ fact, R trace fact ∧ Leave body fact := by
  obtain ⟨body', fact, exit, hbody', hR, hrun, hleave, -⟩ := h.within hpath
  obtain rfl : body = body' := Option.some.inj (hbody.symm.trans hbody')
  obtain rfl : fact = exit := by simpa using hrun
  exact ⟨fact, hR, hleave⟩

end Analysis

/-! ## Worklist passes -/

section Worklists

variable {σ : Type}

theorem blockFlow_eq_ok : blockFlow function step leave block entry = .ok edges ↔
      ∃ body exit, function.blocks[block]? = some body ∧ runBlock step body entry = .ok exit ∧
        leave body.terminator exit = .ok () ∧
        (successors body.terminator).map (fun successor => (successor, exit)) = edges := by
  simp only [blockFlow, bind_eq_ok, at_eq_ok, pure_eq_ok]
  constructor
  · rintro ⟨body, hbody, exit, hrun, _, hleave, hedges⟩
    exact ⟨body, exit, hbody, hrun, hleave, hedges⟩
  · rintro ⟨body, exit, hbody, hrun, hleave, hedges⟩
    exact ⟨body, hbody, exit, hrun, (), hleave, hedges⟩

/-- An accepting worklist pass over the blocks of a function. -/
theorem analyzed_of_solve (hflow : J.flow = blockFlow function step leave)
    (hlaw : LawfulJoin J) (hacc : Accounts J.toProblem Le)
    (hle : ∀ {current fact : σ} {trace : List Site}, Le current fact → R trace fact → R trace current)
    (hentry : R [] J.bottom)
    (hstep : ∀ {trace : List Site} {site : Site} {fact after : σ}, R trace fact →
      step site.instruction fact = .ok after → R (trace ++ [site]) after) (h : J.solve fuel = .ok ()) :
    ∃ entries, Analyzed function (fun _ => step)
      (fun body exit => leave body.terminator exit = .ok ()) entries R := by
  rw [solve_toProblem hlaw] at h
  obtain ⟨final, hrun⟩ := solve_eq_ok.mp h
  obtain ⟨hclosed, start, hstart, hbottom⟩ := run_sound hacc hrun
  refine ⟨final.incoming, ⟨start, hstart, hle hbottom hentry⟩, ?_, hstep⟩
  intro block fact hfact
  obtain ⟨edges, hedges, hdelivered⟩ := hclosed block fact hfact
  obtain ⟨found, hfound, rfl⟩ : ∃ found, J.flow block fact = .ok found ∧ found.map .ok = edges := by
    simpa [Joining.toProblem] using hedges
  rw [hflow] at hfound
  obtain ⟨body, exit, hbody, hexit, hleave, rfl⟩ := blockFlow_eq_ok.mp hfound
  refine ⟨body, exit, hbody, hexit, hleave, fun target htarget => ?_⟩
  have hmem : .ok (target, exit) ∈ ((successors body.terminator).map fun successor =>
      (successor, exit)).map (Except.ok (ε := Fault MirValidationError)) := by
    simpa using htarget
  obtain ⟨target', out, current, heq, -, hcurrent, hout⟩ := hdelivered _ hmem
  obtain ⟨rfl, rfl⟩ := Prod.mk.inj (Except.ok.inj heq)
  exact ⟨current, hcurrent, fun trace => hle hout⟩

end Worklists

end RSScript.Mir
