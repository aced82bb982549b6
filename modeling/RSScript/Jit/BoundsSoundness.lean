import RSScript.Jit.Bounds

/-!
# When the unchecked accesses are in range

The accesses selected for a remainder are always in range: a register with one
reachable definition holds what that definition left (`explained`), and the
numerator's interval holds wherever the remainder is taken.

The accesses of a counted loop are judged by positions in the code. That is right in
an execution that comes to the positions in order (`ReachesInOrder`): to the guarded
stretch through the guard, and to the code before the loop from its beginning.
The recogniser does not check it, and a function with another way in can execute
a selected access with an index out of range (`reenteredLoop`). `EnteredInOrder` is a
test of the code under which every execution comes in order; it is not necessary, and
neither is the condition on the execution: another way in may set the registers again.
-/

namespace Jit

open Budget Option Nat

namespace JitFunction

variable {program : JitFunction} {lens : Nat → Nat} {entry : Nat → Int64}

/-! ## Steps -/

/-- A register that the instruction does not define keeps its word. -/
theorem Step.frame (h : program.Step lens before after) {reg : Nat}
    (hdef : program.defAt before.ip ≠ some reg) : after.regs reg = before.regs reg := by
  obtain ⟨instr, written, hget, hedge, _, hwrites⟩ := h.executes
  cases written with
  | none => exact congrFun hwrites reg
  | some dst =>
    obtain ⟨word, _, hafter⟩ := hwrites
    have hne : reg ≠ dst := by
      rintro rfl
      exact hdef (by simp [defAt, hget, definedRegister_of_edge hget hedge])
    rw [hafter, Function.update_of_ne hne]

/-- A straight-line instruction goes on to the next one and leaves its result. -/
theorem Step.straight (h : program.Step lens before after) {instr : JitInstr}
    (hget : program.code[before.ip]? = some instr) (hflow : instr.controlFlow = .fallthrough) :
    after.ip = before.ip + 1 ∧
      ∀ dst, instr.definedRegister = some dst →
        program.Yields lens before.regs (after.regs dst) instr := by
  obtain ⟨instr', written, hget', hedge, _, hwrites⟩ := h.executes
  obtain rfl : instr' = instr := by simpa [hget] using hget'.symm
  rw [edges_eq hget] at hedge
  have hedge := (List.mem_filter.mp hedge).1
  simp only [hflow, targets, List.map_cons, List.map_nil, List.mem_singleton, Prod.mk.injEq] at hedge
  obtain ⟨hip, rfl⟩ := hedge
  refine ⟨hip, fun dst hdst => ?_⟩
  rw [hdst] at hwrites
  obtain ⟨word, hyields, hafter⟩ := hwrites
  rw [hafter, Function.update_self]
  exact hyields

/-- Past a guard the counter is below the bound. -/
theorem Step.guard (h : program.Step lens before after)
    (hguard : program.code[before.ip]?.bind guardOf = some (counter, bound, exit))
    (hcounter : program.isInt counter = true) (hbound : program.isInt bound = true)
    (hstays : after.ip ≠ exit) :
    (before.regs counter).toInt < (before.regs bound).toInt ∧ after.regs = before.regs := by
  obtain ⟨instr, written, hget, hedge, htakes, hwrites⟩ := h.executes
  rw [hget, Option.bind_some] at hguard
  have hnone : instr.definedRegister = none := by
    cases instr <;> simp_all [guardOf, JitInstr.definedRegister]
  have hsame : after.regs = before.regs := by
    cases written with
    | none => exact hwrites
    | some dst => simp [definedRegister_of_edge hget hedge] at hnone
  refine ⟨?_, hsame⟩
  unfold guardOf at hguard
  split at hguard
  · cases hguard
    have hway := htakes (isFloat_of_isInt hcounter)
    split at hway
    · exact absurd hway hstays
    · rename_i hholds
      simpa [JitCompare.holds] using hholds
  · cases hguard
    have hway := htakes (isFloat_of_isInt hbound)
    split at hway
    · exact absurd hway hstays
    · rename_i hholds
      simpa [JitCompare.holds] using hholds
  · simp at hguard

/-! ## Last definitions -/

variable {α : Type} {reg : Nat} {value : JitInstr → Option α}

/-- A value that the last definition of a register has is that of an instruction
that defines it and that no later one overwrites. -/
theorem exists_of_lastDefinition {code : List JitInstr}
    (h : lastDefinition value reg code = some a) :
    ∃ ip instr, code[ip]? = some instr ∧ instr.definedRegister = some reg ∧ value instr = some a ∧
      ∀ (later : Nat) (other : JitInstr), ip < later → code[later]? = some other →
        other.definedRegister ≠ some reg := by
  induction code using List.reverseRecOn with
  | nil => simp [lastDefinition] at h
  | append_singleton code last ih =>
    have hlast : (code ++ [last])[code.length]? = some last := by simp
    have hlater : ∀ (later : Nat) (other : JitInstr), code.length < later →
        (code ++ [last])[later]? = some other → False := by
      intro later other hlt hget
      have := (List.getElem?_eq_some_iff.mp hget).1
      simp at this
      omega
    unfold lastDefinition at h
    rw [List.foldl_append, List.foldl_cons] at h
    split at h
    · rename_i hdef
      exact ⟨code.length, last, hlast, hdef, h,
        fun later other hlt hget => (hlater later other hlt hget).elim⟩
    · rename_i hdef
      obtain ⟨ip, instr, hget, hinstr, hvalue, hnone⟩ := ih h
      have hip := (List.getElem?_eq_some_iff.mp hget).1
      refine ⟨ip, instr, by rw [List.getElem?_append_left hip]; exact hget, hinstr, hvalue,
        fun later other hlt hother => ?_⟩
      rcases lt_trichotomy later code.length with hcase | hcase | hcase
      · rw [List.getElem?_append_left hcase] at hother
        exact hnone later other hlt hother
      · rw [hcase, hlast] at hother
        exact (some.inj hother) ▸ hdef
      · exact (hlater later other hcase hother).elim

/-- The same in the code before a position of a function. -/
theorem exists_of_lastDefinition_take {limit : Nat}
    (h : lastDefinition value reg (program.code.take limit) = some a) :
    ∃ ip instr, ip < limit ∧ program.code[ip]? = some instr ∧ instr.definedRegister = some reg ∧
      value instr = some a ∧ ∀ later, ip < later → later < limit → program.defAt later ≠ some reg := by
  obtain ⟨ip, instr, hget, hdef, hvalue, hnone⟩ := exists_of_lastDefinition h
  obtain ⟨hget, hlt⟩ : program.code[ip]? = some instr ∧ ip < limit := by
    rw [List.getElem?_take] at hget
    split at hget
    · exact ⟨hget, by assumption⟩
    · simp at hget
  refine ⟨ip, instr, hlt, hget, hdef, hvalue, fun later hlater hlimit hdefines => ?_⟩
  cases hother : program.code[later]? with
  | none => simp [defAt, hother] at hdefines
  | some other =>
    refine hnone later other hlater ?_ (by simpa [defAt, hother] using hdefines)
    rw [List.getElem?_take_of_lt hlimit, hother]

/-! ## What the recogniser establishes -/

/-- The facts a recognised loop has by its construction. -/
structure CountedLoop.Recognised (program : JitFunction) (loop : CountedLoop) : Prop where
  guard : program.code[loop.condition]?.bind guardOf =
    some (loop.induction, loop.bound, loop.exit)
  header_le : loop.header ≤ loop.condition
  condition_le : loop.condition ≤ loop.exit
  back : ∃ source ∈ program.predecessors loop.header, loop.header ≤ source
  returns : ∀ source ∈ program.predecessors loop.header, loop.header ≤ source → source < loop.exit
  enters : ∀ ip, loop.header < ip → ip < loop.exit → ∀ source ∈ program.predecessors ip,
    loop.header ≤ source ∧ source < loop.exit
  straight : ∀ instr ∈ program.code.take loop.header, instr.controlFlow = .fallthrough
  initial : ∃ value, 0 ≤ Int64.toInt value ∧
    lastDefinition loadedInt loop.induction (program.code.take (loop.condition + 1)) = some value
  length : lastDefinition lengthBase loop.bound (program.code.take (loop.condition + 1)) =
    some loop.base
  update_mem : loop.header ≤ loop.update ∧ loop.update < loop.exit
  writes : ∀ ip, loop.header ≤ ip → ip < loop.exit →
    (program.defAt ip = some loop.induction ↔ ip = loop.update)
  updates : program.code[loop.update]?.bind (program.stepOf loop.header loop.induction) =
    some loop.step
  keepsBound : ∀ ip, loop.header ≤ ip → ip < loop.exit → program.defAt ip ≠ some loop.bound
  keepsStep : ∀ ip, loop.header ≤ ip → ip < loop.exit → program.defAt ip ≠ some loop.step

theorem findCondition_le (h : Returns (program.findCondition steps start) condition) :
    start ≤ condition ∧ condition ≤ start + steps := by
  induction steps generalizing start with
  | zero =>
    have heq : start = condition := h.pure
    omega
  | succ steps ih =>
    unfold findCondition at h
    split at h
    · have heq : start = condition := h.pure
      omega
    · obtain ⟨_, _, hrest⟩ := h.bind
      have := ih hrest
      omega

theorem onlyWrite_eq_some (h : program.onlyWrite body reg = some update) :
    update ∈ body ∧ ∀ ip ∈ body, program.defAt ip = some reg ↔ ip = update := by
  unfold onlyWrite at h
  split at h
  · rename_i only hfilter
    obtain rfl : only = update := by simpa using h
    have hmem : ∀ ip, ip ∈ body ∧ program.defAt ip = some reg ↔ ip = only := by
      intro ip
      have hiff : ip ∈ body.filter (program.defAt · = some reg) ↔ ip ∈ [only] := by rw [hfilter]
      simpa using hiff
    refine ⟨((hmem only).mpr rfl).1, fun ip hip => ⟨fun hdef => (hmem ip).mp ⟨hip, hdef⟩, ?_⟩⟩
    intro heq
    exact ((hmem ip).mpr heq).2
  · simp at h

variable {loop : CountedLoop}

theorem recognised_of_countedLoop {header bodyEnd : Nat}
    (hend : program.bodyEnd header = some bodyEnd)
    (h : Returns (program.countedLoop header bodyEnd) loop) : loop.Recognised program := by
  obtain ⟨_, _, h⟩ := h.bind
  obtain ⟨condition, hcondition, h⟩ := h.bind
  obtain ⟨⟨induction, bound, exit⟩, hguard, h⟩ := h.bind
  obtain ⟨_, hexit, h⟩ := h.bind
  obtain ⟨_, hincoming, h⟩ := h.bind
  obtain ⟨_, _, h⟩ := h.bind
  obtain ⟨_, hstraight, h⟩ := h.bind
  obtain ⟨_, _, h⟩ := h.bind
  obtain ⟨initial, hinitial, h⟩ := h.bind
  obtain ⟨base, hbase, h⟩ := h.bind
  obtain ⟨_, hnonneg, h⟩ := h.bind
  obtain ⟨_, _, h⟩ := h.bind
  obtain ⟨update, hupdate, h⟩ := h.bind
  obtain ⟨step, hstep, h⟩ := h.bind
  obtain ⟨_, hkeeps, h⟩ := h.bind
  obtain ⟨_, hkeepsStep, h⟩ := h.bind
  obtain rfl := h.pure
  obtain ⟨hlt, _⟩ := hexit.require
  have hmax : bodyEnd ∈ (program.predecessors header).filter (header ≤ ·) ∧
      ∀ source ∈ (program.predecessors header).filter (header ≤ ·), source ≤ bodyEnd :=
    List.max?_eq_some_iff.mp hend
  obtain ⟨hback, hheader⟩ := List.mem_filter.mp hmax.1
  have hbody : ∀ ip, ip ∈ List.range' header (exit - header) ↔ header ≤ ip ∧ ip < exit := by
    intro ip
    rw [List.mem_range'_1]
    omega
  obtain ⟨hmem, hwrites⟩ := onlyWrite_eq_some hupdate.some?
  obtain ⟨hle, hcut⟩ := findCondition_le hcondition
  have hheader : header ≤ bodyEnd := by simpa using hheader
  exact {
    guard := hguard.some?
    header_le := hle
    condition_le := show condition ≤ exit by omega
    back := ⟨bodyEnd, hback, hheader⟩
    returns := by
      intro source hsource hle
      exact (hmax.2 source (List.mem_filter.mpr ⟨hsource, by simpa using hle⟩)).trans_lt hlt
    enters := by
      intro ip (hgt : header < ip) (hlt' : ip < exit)
      have hmem : ip ∈ List.range' (header + 1) (exit - (header + 1)) := by
        rw [List.mem_range'_1]
        omega
      obtain ⟨_, _, hrequire⟩ := (hincoming.forM ip hmem).bind
      exact hrequire.require
    straight := hstraight.require
    initial := ⟨initial, hnonneg.require, hinitial.some?⟩
    length := hbase.some?
    update_mem := (hbody update).mp hmem
    writes := fun ip hle hlt => hwrites ip ((hbody ip).mpr ⟨hle, hlt⟩)
    updates := hstep.some?
    keepsBound := fun ip hle hlt => (hkeeps.require ip ((hbody ip).mpr ⟨hle, hlt⟩)).2
    keepsStep := fun ip hle hlt => hkeepsStep.require ip ((hbody ip).mpr ⟨hle, hlt⟩) }

theorem stepOf_eq_some (h : program.stepOf header induction instr = some step) :
    (instr = .add induction induction step ∨ instr = .add induction step induction) ∧
      lastDefinition loadedInt step (program.code.take header) = some 1 := by
  cases instr with
  | add dst lhs rhs =>
    by_cases hlhs : lhs = induction
    · simp only [stepOf, hlhs, true_or, and_true, if_true, ite_none_right_eq_some,
        some.injEq] at h
      obtain ⟨rfl, hone, rfl⟩ := h
      exact ⟨.inl (by rw [hlhs]), hone⟩
    · simp only [stepOf, hlhs, false_or, if_false, ite_none_right_eq_some,
        some.injEq] at h
      obtain ⟨⟨rfl, rfl⟩, hone, rfl⟩ := h
      exact ⟨.inr rfl, hone⟩
  | _ => simp [stepOf] at h

attribute [local simp] JitInstr.usedRegisters loadedInt

section Positions

variable {loop : CountedLoop} (hloop : loop.Recognised program)
include hloop

theorem CountedLoop.Recognised.defAt_condition : program.defAt loop.condition = none := by
  have hguard := hloop.guard
  cases hget : program.code[loop.condition]? with
  | none => simp [hget] at hguard
  | some instr => cases instr <;> simp_all [guardOf, defAt, JitInstr.definedRegister]

/-- The update comes after the guard: before it, it would be the last definition of the counter. -/
theorem CountedLoop.Recognised.condition_lt : loop.condition < loop.update := by
  obtain ⟨value, _, hlast⟩ := hloop.initial
  obtain ⟨ip, instr, hlt, hget, hdef, hvalue, hnone⟩ := exists_of_lastDefinition_take hlast
  have hdefAt : program.defAt ip = some loop.induction := by simp [defAt, hget, hdef]
  obtain ⟨hle, hltexit⟩ := hloop.update_mem
  by_contra hge
  have hupdate := (hloop.writes loop.update hle hltexit).mpr rfl
  -- the last definition is no later than the update, and is not the update itself
  rcases lt_trichotomy ip loop.update with hcase | hcase | hcase
  · exact hnone loop.update hcase (by omega) hupdate
  · have hupdates := hloop.updates
    rw [← hcase, hget] at hupdates
    cases instr <;> simp [stepOf] at hvalue hupdates
  · have hne : ip ≠ loop.condition := by
      rintro rfl
      simp [hloop.defAt_condition] at hdefAt
    have hcut := hloop.condition_le
    have := (hloop.writes ip (by omega) (by omega)).mp hdefAt
    omega

/-- The counter is set to a non-negative constant before the loop. -/
theorem CountedLoop.Recognised.exists_initial :
    ∃ ip value, ip < loop.header ∧ program.code[ip]? = some (.loadInt loop.induction value) ∧
      0 ≤ value.toInt ∧
      ∀ later, ip < later → later < loop.header → program.defAt later ≠ some loop.induction := by
  obtain ⟨value, hnonneg, hlast⟩ := hloop.initial
  obtain ⟨ip, instr, hlt, hget, hdef, hvalue, hnone⟩ := exists_of_lastDefinition_take hlast
  have horder := hloop.condition_lt
  have hbefore : ip < loop.header := by
    by_contra hge
    have := (hloop.writes ip (by omega) (by have := hloop.update_mem; omega)).mp
      (by simp [defAt, hget, hdef])
    omega
  refine ⟨ip, value, hbefore, ?_, hnonneg, fun later hlater hheader => hnone later hlater ?_⟩
  · cases instr <;> simp_all [JitInstr.definedRegister]
  · have := hloop.header_le
    omega

/-- The bound is set to the length of the list before the loop. -/
theorem CountedLoop.Recognised.exists_length :
    ∃ ip, ip < loop.header ∧ program.code[ip]? = some (.listLenDirect loop.bound loop.base) ∧
      ∀ later, ip < later → later < loop.header → program.defAt later ≠ some loop.bound := by
  obtain ⟨ip, instr, hlt, hget, hdef, hvalue, hnone⟩ := exists_of_lastDefinition_take hloop.length
  have horder := hloop.condition_lt
  have hbefore : ip < loop.header := by
    by_contra hge
    exact hloop.keepsBound ip (by omega) (by have := hloop.update_mem; omega)
      (by simp [defAt, hget, hdef])
  refine ⟨ip, hbefore, ?_, fun later hlater hheader => hnone later hlater ?_⟩
  · cases instr <;> simp_all [lengthBase, JitInstr.definedRegister]
  · have := hloop.header_le
    omega

/-- The update adds to the counter a register that is set to 1 before the loop. -/
theorem CountedLoop.Recognised.exists_update :
    (program.code[loop.update]? = some (.add loop.induction loop.induction loop.step) ∨
      program.code[loop.update]? = some (.add loop.induction loop.step loop.induction)) ∧
    ∃ ip, ip < loop.header ∧ program.code[ip]? = some (.loadInt loop.step 1) ∧
      ∀ later, ip < later → later < loop.header → program.defAt later ≠ some loop.step := by
  obtain ⟨instr, hget, hstep⟩ := bind_eq_some_iff.mp hloop.updates
  obtain ⟨hinstr, hone⟩ := stepOf_eq_some hstep
  refine ⟨by rw [hget]; simpa using hinstr, ?_⟩
  obtain ⟨ip, loading, hlt, hload, hdef, hvalue, hnone⟩ := exists_of_lastDefinition_take hone
  refine ⟨ip, hlt, ?_, hnone⟩
  cases loading <;> simp_all [JitInstr.definedRegister]

end Positions

/-! ## Entering in order -/

variable (program) in
/-- Straight-line code, a header that a later instruction leads back to, a guard and
an update of its counter before its exit. -/
def LoopShape (header condition update : Nat) : Prop :=
  (∀ instr ∈ program.code.take header, instr.controlFlow = .fallthrough) ∧
  (∃ source ∈ program.predecessors header, header ≤ source) ∧
  header ≤ condition ∧ condition < update ∧
  ∃ found ∈ program.code[condition]?.bind guardOf,
    program.defAt update = some found.1 ∧ update < found.2.2

/-- A step to the code before a header comes from the instruction before, and one past the guard
and up to the update from the guard on. -/
def inOrder (header condition update source target : Nat) : Prop :=
  (0 < target → target < header → source + 1 = target) ∧
  (condition < target → target ≤ update → condition ≤ source ∧ source < update)

variable (program) in
/-- An access that is selected from a counted loop. -/
structure CountedLoop.Selects (loop : CountedLoop) (ip : Nat) : Prop where
  recognised : loop.Recognised program
  guarded : loop.condition < ip
  before_update : ip < loop.update
  access : program.code[ip]?.bind JitInstr.directAccess = some (loop.base, loop.induction)

variable (program) in
/-- A step that comes in order to the loops that an access is selected from. -/
structure StepInOrder (lens : Nat → Nat) (access : Nat) (before after : Machine) : Prop where
  step : program.Step lens before after
  ordered : ∀ loop : CountedLoop, loop.Selects program access →
    inOrder loop.header loop.condition loop.update before.ip after.ip

variable (program) in
/-- The states an execution reaches in order, as far as the access there is concerned. -/
def ReachesInOrder (lens : Nat → Nat) (entry : Nat → Int64) (state : Machine) : Prop :=
  Relation.ReflTransGen (program.StepInOrder lens state.ip) ⟨0, entry⟩ state

theorem ReachesInOrder.reaches (h : program.ReachesInOrder lens entry state) :
    program.Reaches lens entry state := by
  have hle : program.StepInOrder lens state.ip ≤ program.Step lens := fun _ _ hstep => hstep.step
  exact Relation.ReflTransGen.mono hle _ _ h

/-! ### A test of the code -/

variable (program) in
/-- Control comes in order to all code with the shape of a counted loop. -/
def EnteredInOrder : Prop :=
  ∀ header < program.code.length, ∀ condition < program.code.length,
    ∀ update < program.code.length, program.LoopShape header condition update →
      ∀ target < program.code.length, ∀ source ∈ program.predecessors target,
        inOrder header condition update source target

instance decidableLoopShape (header condition update : Nat) :
    Decidable (program.LoopShape header condition update) := by
  unfold LoopShape
  infer_instance

instance decidableInOrder (header condition update source target : Nat) :
    Decidable (inOrder header condition update source target) := by
  unfold inOrder
  infer_instance

instance decidableEnteredInOrder : Decidable program.EnteredInOrder := by
  unfold EnteredInOrder
  infer_instance

variable {ip : Nat}

theorem lt_length_of_bind (h : program.code[ip]?.bind value = some a) :
    ip < program.code.length := by
  obtain ⟨_, hget, _⟩ := bind_eq_some_iff.mp h
  exact (List.getElem?_eq_some_iff.mp hget).1

theorem CountedLoop.Recognised.loopShape {loop : CountedLoop} (hloop : loop.Recognised program) :
    program.LoopShape loop.header loop.condition loop.update := by
  obtain ⟨hle, hexit⟩ := hloop.update_mem
  exact ⟨hloop.straight, hloop.back, hloop.header_le, hloop.condition_lt, _, hloop.guard,
    (hloop.writes _ hle hexit).mpr rfl, hexit⟩

theorem EnteredInOrder.reachesInOrder (h : program.EnteredInOrder)
    (hreach : program.Reaches lens entry state) : program.ReachesInOrder lens entry state := by
  suffices hle : program.Step lens ≤ program.StepInOrder lens state.ip from
    Relation.ReflTransGen.mono hle _ _ hreach
  refine fun before after hstep => ⟨hstep, fun loop hselects => ?_⟩
  have hloop := hselects.recognised
  obtain ⟨instr, written, _, hedge, _⟩ := hstep.executes
  have hcondition := lt_length_of_bind hloop.guard
  have hheader := hloop.header_le
  have hsource := mem_predecessors.mpr (mem_successors_of_edge hedge)
  exact h loop.header (by omega) loop.condition hcondition loop.update
    (lt_length_of_bind hloop.updates) hloop.loopShape _
    (successors_lt (mem_successors_of_edge hedge)) _ hsource

/-! ## The invariant of a counted loop -/

variable {base : Nat} {state : Machine}

section Loops

variable {osr : Bool} {facts : ValidationFacts}

theorem isInt_of_loadInt (h : Accepted program osr facts) {value : Int64}
    (hget : program.code[ip]? = some (.loadInt dst value)) : program.isInt dst = true := by
  have hcheck := h.instrs hget
  simp only [checkInstr, requireClass, Guards.bind_eq_ok, Guards.ensure_eq_ok] at hcheck
  obtain ⟨_, _, hclass⟩ := hcheck
  simpa [isInt] using hclass

theorem isInt_of_listLenDirect (h : Accepted program osr facts)
    (hget : program.code[ip]? = some (.listLenDirect dst base)) : program.isInt dst = true := by
  have hcheck := h.instrs hget
  simp only [checkInstr, requireClass, Guards.bind_eq_ok, Guards.ensure_eq_ok] at hcheck
  obtain ⟨_, _, _, _, hclass⟩ := hcheck
  simpa [isInt] using hclass

/-- What a load of a constant or a length leaves in its register. -/
def Leaves (lens : Nat → Nat) (word : Int64) : JitInstr → Prop
  | .loadInt _ value => word = value
  | .listLenDirect _ base => word.toInt = lens base
  | _ => True

/-- The registers hold what the code before a position left in them last. -/
def Settled (program : JitFunction) (lens : Nat → Nat) (regs : Nat → Int64) (limit : Nat) : Prop :=
  ∀ ip instr dst, ip < limit → program.code[ip]? = some instr → instr.definedRegister = some dst →
    (∀ later, ip < later → later < limit → program.defAt later ≠ some dst) →
    Leaves lens (regs dst) instr

theorem Settled.step (hstep : program.Step lens before after)
    (h : Settled program lens before.regs before.ip) {instr : JitInstr}
    (hget : program.code[before.ip]? = some instr) (hflow : instr.controlFlow = .fallthrough) :
    Settled program lens after.regs (before.ip + 1) := by
  obtain ⟨_, hyields⟩ := hstep.straight hget hflow
  intro ip other dst hlt hother hdef hnone
  by_cases heq : ip = before.ip
  · subst heq
    obtain rfl : other = instr := by simpa [hget] using hother.symm
    have hword := hyields dst hdef
    cases other <;> first | exact hword | trivial
  · have hlast := hnone before.ip (by omega) (by omega)
    rw [hstep.frame hlast]
    exact h ip other dst (by omega) hother hdef fun later hlater hlimit =>
      hnone later hlater (by omega)

/-- The counter is not negative, the bound is the length of the list, and the step is 1. -/
structure Counting (loop : CountedLoop) (lens : Nat → Nat) (regs : Nat → Int64) : Prop where
  counter : 0 ≤ (regs loop.induction).toInt
  bound : (regs loop.bound).toInt = lens loop.base
  step : regs loop.step = 1

/-- What holds of a state before, in, and in the guarded stretch of a counted loop. -/
structure LoopInvariant (program : JitFunction) (loop : CountedLoop) (lens : Nat → Nat)
    (state : Machine) : Prop where
  ahead : state.ip < loop.header → Settled program lens state.regs state.ip
  inside : loop.header ≤ state.ip → state.ip < loop.exit → Counting loop lens state.regs
  guarded : loop.condition < state.ip → state.ip ≤ loop.update →
    (state.regs loop.induction).toInt < lens loop.base

variable {loop : CountedLoop}

theorem counting_of_settled (hloop : loop.Recognised program)
    (h : Settled program lens regs loop.header) : Counting loop lens regs := by
  obtain ⟨ip, value, hlt, hget, hnonneg, hnone⟩ := hloop.exists_initial
  obtain ⟨lenIp, hlenLt, hlenGet, hlenNone⟩ := hloop.exists_length
  obtain ⟨_, oneIp, honeLt, honeGet, honeNone⟩ := hloop.exists_update
  have hcounter : regs loop.induction = value := h ip _ _ hlt hget rfl hnone
  exact ⟨hcounter ▸ hnonneg, h lenIp _ _ hlenLt hlenGet rfl hlenNone,
    h oneIp _ _ honeLt honeGet rfl honeNone⟩

section Recognised

variable (haccepted : Accepted program osr facts) (hloop : loop.Recognised program)

include haccepted hloop

/-- Within the loop the update adds 1, and nothing else touches the registers. -/
theorem Counting.step_inside (hstep : program.Step lens before after)
    (h : Counting loop lens before.regs) (hle : loop.header ≤ before.ip)
    (hlt : before.ip < loop.exit) :
    Counting loop lens after.regs ∧
      (before.ip ≠ loop.update → after.regs loop.induction = before.regs loop.induction) := by
  have hbound := hstep.frame (hloop.keepsBound _ hle hlt)
  have hone := hstep.frame (hloop.keepsStep _ hle hlt)
  have hkeep : before.ip ≠ loop.update → after.regs loop.induction = before.regs loop.induction :=
    fun hne => hstep.frame fun hdef => hne ((hloop.writes _ hle hlt).mp hdef)
  refine ⟨⟨?_, by rw [hbound, h.bound], by rw [hone, h.step]⟩, hkeep⟩
  by_cases heq : before.ip = loop.update
  · obtain ⟨hupdate, _⟩ := hloop.exists_update
    obtain ⟨initIp, _, _, hinit, _⟩ := hloop.exists_initial
    obtain ⟨_, oneIp, _, hload, _⟩ := hloop.exists_update
    have hcounter := isFloat_of_isInt (isInt_of_loadInt haccepted hinit)
    have hstepInt := isFloat_of_isInt (isInt_of_loadInt haccepted hload)
    have hnonneg := h.counter
    rw [← heq] at hupdate
    rcases hupdate with hget | hget
    · have hsum := (hstep.straight hget rfl).2 _ rfl hcounter
      rw [hsum, h.step]
      exact Int.add_nonneg hnonneg (by decide)
    · have hsum := (hstep.straight hget rfl).2 _ rfl hstepInt
      rw [hsum, h.step]
      exact Int.add_nonneg (by decide) hnonneg
  · rw [hkeep heq]
    exact h.counter

/-- A step to the loop comes from the loop or from the instruction before it. -/
theorem LoopInvariant.step
    (horder : inOrder loop.header loop.condition loop.update before.ip after.ip)
    (hstep : program.Step lens before after) (h : LoopInvariant program loop lens before) :
    LoopInvariant program loop lens after := by
  obtain ⟨hahead, hstretch⟩ := horder
  obtain ⟨instr, written, hget, hedge, _⟩ := hstep.executes
  have hsource : before.ip ∈ program.predecessors after.ip :=
    mem_predecessors.mpr (mem_successors_of_edge hedge)
  have hcondition := hloop.header_le
  obtain ⟨_, hexit⟩ := hloop.update_mem
  have hstraight : before.ip < loop.header →
      after.ip = before.ip + 1 ∧ Settled program lens after.regs (before.ip + 1) := by
    intro hbefore
    have hflow : instr.controlFlow = .fallthrough :=
      hloop.straight instr (List.mem_of_getElem? (i := before.ip)
        (by rw [List.getElem?_take_of_lt hbefore, hget]))
    exact ⟨(hstep.straight hget hflow).1, (h.ahead hbefore).step hstep hget hflow⟩
  have hwithin : loop.header ≤ after.ip → after.ip < loop.exit → loop.header ≤ before.ip →
      before.ip < loop.exit := by
    intro hle hlt hbefore
    rcases Nat.eq_or_lt_of_le hle with heq | hgt
    · exact hloop.returns _ (heq ▸ hsource) hbefore
    · exact (hloop.enters _ hgt hlt _ hsource).2
  refine ⟨fun hip => ?_, fun hle hltexit => ?_, fun hgt hle => ?_⟩
  · rcases Nat.eq_zero_or_pos after.ip with hzero | hpos
    · intro ip _ _ hlimit
      omega
    · have hnext := hahead hpos hip
      rw [← hnext]
      exact (hstraight (by omega)).2
  · by_cases hbefore : before.ip < loop.header
    · obtain ⟨hnext, hsettled⟩ := hstraight hbefore
      have heq : before.ip + 1 = loop.header := by omega
      exact counting_of_settled hloop (heq ▸ hsettled)
    · have hinside := hwithin hle hltexit (by omega)
      exact (Counting.step_inside haccepted hloop hstep (h.inside (by omega) hinside) (by omega)
        hinside).1
  -- into the stretch from the guard, or within it before the update
  · obtain ⟨hfrom, hbeforeUpdate⟩ := hstretch hgt hle
    have hcounting := h.inside (by omega) (by omega)
    rcases Nat.eq_or_lt_of_le hfrom with heq | hlater
    · obtain ⟨_, _, _, hinit, _⟩ := hloop.exists_initial
      obtain ⟨_, _, hlen, _⟩ := hloop.exists_length
      obtain ⟨hless, hsame⟩ := hstep.guard (heq ▸ hloop.guard) (isInt_of_loadInt haccepted hinit)
        (isInt_of_listLenDirect haccepted hlen) (by omega)
      rw [hsame, ← hcounting.bound]
      exact hless
    · rw [(Counting.step_inside haccepted hloop hstep hcounting (by omega) (by omega)).2 (by omega)]
      exact h.guarded hlater (by omega)

omit hloop in
theorem loopInvariant_of_run (hselects : loop.Selects program access)
    (h : Relation.ReflTransGen (program.StepInOrder lens access) ⟨0, entry⟩ state) :
    LoopInvariant program loop lens state := by
  have hloop := hselects.recognised
  induction h with
  | refl =>
    obtain ⟨ip, _, hlt, _⟩ := hloop.exists_initial
    refine ⟨fun _ ip _ _ hip => ?_, fun hle _ => ?_, fun hgt _ => ?_⟩
    · exact absurd hip (not_lt_zero ip)
    · exact absurd hle (by show ¬ loop.header ≤ 0; omega)
    · exact absurd hgt (by show ¬ loop.condition < 0; omega)
  | tail _ hstep ih => exact ih.step haccepted hloop (hstep.ordered loop hselects) hstep.step

end Recognised

end Loops

/-! ## Registers with one definition -/

section Origins

variable {osr : Bool} {facts : ValidationFacts}

variable {reg : Nat}

theorem mem_definitions :
    ip ∈ program.definitions reg ↔
      ip ∈ program.reachableJitInstrs ∧ program.defAt ip = some reg := by
  simp only [definitions, List.mem_filter, List.mem_range, decide_eq_true_eq]
  exact ⟨fun h => h.2, fun h => ⟨reachable_lt h.1, h⟩⟩

/-- An unambiguous register has no definition besides the last one. -/
theorem eq_of_mem_definitions (h : program.ambiguous osr reg = false)
    (hlast : (program.definitions reg).getLast? = some ip)
    (hother : other ∈ program.definitions reg) : other = ip := by
  simp only [ambiguous, Bool.or_eq_false_iff, decide_eq_false_iff_not] at h
  obtain ⟨_, hlength⟩ := h
  match hdefs : program.definitions reg with
  | [] => simp [hdefs] at hother
  | [only] => simp_all
  | first :: second :: rest => simp [hdefs] at hlength

/-- More fuel and fewer visited registers find the same origin. -/
theorem uniqueValueOrigin_mono (hfuel : fuel ≤ fuel') (hsub : visiting' ⊆ visiting)
    (h : program.uniqueValueOrigin osr fuel visiting reg ≠ .unknown) :
    program.uniqueValueOrigin osr fuel' visiting' reg =
      program.uniqueValueOrigin osr fuel visiting reg := by
  induction fuel generalizing fuel' reg visiting visiting' with
  | zero => simp [uniqueValueOrigin] at h
  | succ fuel ih =>
    obtain ⟨fuel', rfl⟩ : ∃ more, fuel' = more + 1 := ⟨fuel' - 1, by omega⟩
    unfold uniqueValueOrigin at h ⊢
    split at h
    · simp at h
    · rename_i hguard
      have hguard' : ¬ (program.nRegs ≤ reg ∨ program.ambiguous osr reg = true ∨ reg ∈ visiting') :=
        fun hcase => hguard (hcase.imp_right (Or.imp_right fun hmem => hsub hmem))
      rw [if_neg hguard, if_neg hguard']
      split
      · rfl
      · rename_i ip hlast
        simp only [hlast] at h
        split <;> try rfl
        rename_i src hget
        simp only [hget] at h
        exact ih (by omega) (List.cons_subset_cons reg hsub) h

/-- One step more than there are registers left to visit is enough. -/
theorem uniqueValueOrigin_fuel (hnodup : visiting.Nodup)
    (hlt : ∀ visited ∈ visiting, visited < program.nRegs)
    (hfuel : program.nRegs < fuel + visiting.length) :
    program.uniqueValueOrigin osr (fuel + 1) visiting reg =
      program.uniqueValueOrigin osr fuel visiting reg := by
  induction fuel generalizing reg visiting with
  | zero =>
    have hle : visiting.length ≤ program.nRegs := by
      simpa using (hnodup.subperm fun visited hmem => List.mem_range.mpr (hlt visited hmem)).length_le
    omega
  | succ fuel ih =>
    unfold uniqueValueOrigin
    split
    · rfl
    · rename_i hguard
      simp only [not_or, not_le] at hguard
      split
      · rfl
      · split <;> try rfl
        refine ih (List.nodup_cons.mpr ⟨hguard.2.2, hnodup⟩) ?_ ?_
        · exact List.forall_mem_cons.mpr ⟨hguard.1, hlt⟩
        · rw [List.length_cons]
          omega

/-- How a known origin comes from the instruction that defines the register. -/
def ComesFrom (program : JitFunction) (osr : Bool) (found : UniqueValueOrigin) (ip : Nat) :
    JitInstr → Prop
  | .loadInt _ value => found = .constant value
  | .listLenDirect _ base => found = .listLen base
  | .move _ src => found = program.origin osr src
  | .mod _ numerator divisor => found = .mod ip numerator divisor
  | _ => False

theorem origin_cases (h : program.origin osr reg ≠ .unknown) :
    program.ambiguous osr reg = false ∧
      ∃ ip instr, program.code[ip]? = some instr ∧
        (∀ other ∈ program.definitions reg, other = ip) ∧
        ComesFrom program osr (program.origin osr reg) ip instr := by
  unfold origin at h ⊢
  unfold uniqueValueOrigin at h ⊢
  split at h
  · simp at h
  · rename_i hguard
    simp only [not_or, Bool.not_eq_true] at hguard
    obtain ⟨_, hambiguous, _⟩ := hguard
    rw [if_neg (by simp_all)]
    refine ⟨hambiguous, ?_⟩
    split at h
    · simp at h
    · rename_i ip hlast
      have honly : ∀ other ∈ program.definitions reg, other = ip := fun other hother =>
        eq_of_mem_definitions hambiguous hlast hother
      split at h
      · rename_i dst value hget
        exact ⟨ip, _, hget, honly, rfl⟩
      · rename_i dst base hget
        exact ⟨ip, _, hget, honly, rfl⟩
      · rename_i dst src hget
        refine ⟨ip, _, hget, honly, ?_⟩
        exact (uniqueValueOrigin_mono (le_succ _) (List.nil_subset _) h).symm
      · rename_i dst numerator divisor hget
        exact ⟨ip, _, hget, honly, rfl⟩
      · simp at h

/-- What a constant or a length says of a word. -/
def Agrees (lens : Nat → Nat) (word : Int64) : UniqueValueOrigin → Prop
  | .constant value => word = value
  | .listLen base => word.toInt = lens base
  | _ => True

/-- What an origin says of a word: a remainder was taken in some state on the way. -/
def Explains (program : JitFunction) (osr : Bool) (lens : Nat → Nat) (entry : Nat → Int64)
    (word : Int64) : UniqueValueOrigin → Prop
  | .mod ip numerator divisor => ∃ before, program.Reaches lens entry before ∧ before.ip = ip ∧
      (before.regs divisor).toInt ≠ 0 ∧
      word.toInt = (before.regs numerator).toInt.tmod (before.regs divisor).toInt ∧
      Agrees lens (before.regs divisor) (program.origin osr divisor)
  | found => Agrees lens word found

theorem Explains.agrees {word : Int64} (h : Explains program osr lens entry word found) :
    Agrees lens word found := by
  cases found with
  | mod => trivial
  | _ => exact h

theorem origin_of_entry (h : reg ∈ program.entryRegisters osr) :
    program.origin osr reg = .unknown := by
  by_contra hne
  obtain ⟨hambiguous, _⟩ := origin_cases hne
  simp only [ambiguous, Bool.or_eq_false_iff, decide_eq_false_iff_not] at hambiguous
  obtain ⟨⟨⟨rfl, hparam⟩, hzero⟩, _⟩ := hambiguous
  simp only [entryRegisters, Bool.false_eq_true, if_false, Finset.mem_filter] at h
  exact h.2.elim hparam hzero

/-- An operand is assigned, by the entry or on the path. -/
theorem explains_used (haccepted : Accepted program osr facts) {state : Machine}
    (hreach : program.Reaches lens entry state) {written : List Nat}
    (hpath : program.Path written state.ip)
    (hknown : ∀ reg ∈ written,
      Explains program osr lens entry (state.regs reg) (program.origin osr reg))
    {instr : JitInstr} (hget : program.code[state.ip]? = some instr)
    (hused : reg ∈ instr.usedRegisters) :
    Explains program osr lens entry (state.regs reg) (program.origin osr reg) := by
  have hip := (List.getElem?_eq_some_iff.mp hget).1
  have hreachable := hreach.reachable (zero_lt_of_lt hip)
  obtain ⟨hlt, hassigned⟩ := haccepted.uses hreachable hget reg hused
  rcases (mem_definiteAssignment hip hlt).mp hassigned written hpath with hentry | hmem
  · rw [origin_of_entry hentry]
    trivial
  · exact hknown reg hmem

/-- Every register that the path has written holds what its only definition left. -/
theorem explained (haccepted : Accepted program osr facts) (h : program.Reaches lens entry state) :
    ∃ written, program.Path written state.ip ∧
      ∀ reg ∈ written, Explains program osr lens entry (state.regs reg) (program.origin osr reg) := by
  induction h with
  | refl => exact ⟨[], .entry, by simp⟩
  | @tail before after hreach hstep ih =>
    obtain ⟨trace, hpath, hknown⟩ := ih
    obtain ⟨instr, label, hget, hedge, -, -⟩ := hstep.executes
    have hreachable := Reaches.reachable (length_pos_of_step hstep) hreach
    have hread := fun reg => @explains_used _ _ _ _ _ reg haccepted before hreach trace hpath hknown
      instr hget
    refine ⟨trace ++ label.toList, hpath.step hedge, fun reg hmem => ?_⟩
    by_cases hdef : program.defAt before.ip = some reg
    · by_cases hunknown : program.origin osr reg = .unknown
      · rw [hunknown]
        trivial
      obtain ⟨_, ip, other, hother, honly, hcomes⟩ := origin_cases hunknown
      obtain rfl := honly before.ip (mem_definitions.mpr ⟨hreachable, hdef⟩)
      obtain rfl : other = instr := by simpa [hget] using hother.symm
      have hdefined : other.definedRegister = some reg := by simpa [defAt, hget] using hdef
      have hflow : other.controlFlow = .fallthrough := by
        cases other <;> first | rfl | exact hcomes.elim
      have hyields := (hstep.straight hget hflow).2 reg hdefined
      cases other <;> try exact hcomes.elim
      case loadInt dst value =>
        rw [show program.origin osr reg = .constant value from hcomes]
        exact hyields
      case listLenDirect dst base =>
        rw [show program.origin osr reg = .listLen base from hcomes]
        exact hyields
      case move dst src =>
        rw [show program.origin osr reg = program.origin osr src from hcomes,
          show after.regs reg = before.regs src from hyields]
        exact hread src (by simp)
      case mod dst numerator divisor =>
        rw [show program.origin osr reg = .mod before.ip numerator divisor from hcomes]
        obtain ⟨hne, _, hword⟩ := hyields
        exact ⟨before, hreach, rfl, hne, hword,
          (hread divisor (by simp)).agrees⟩
    · rw [hstep.frame hdef]
      rcases List.mem_append.mp hmem with hmem | hlabel
      · exact hknown reg hmem
      · have hlabel : label = some reg := mem_toList.mp hlabel
        refine absurd ?_ hdef
        rw [hlabel] at hedge
        simp [defAt, hget, definedRegister_of_edge hget hedge]

end Origins

/-! ## The plan -/

section Plans

/-- The access at an instruction that a state has reached is in range. -/
def InRange (program : JitFunction) (lens : Nat → Nat) (state : Machine) : Prop :=
  ∀ base index, program.code[state.ip]?.bind JitInstr.directAccess = some (base, index) →
    0 ≤ (state.regs index).toInt ∧ (state.regs index).toInt < lens base

/-- The lengths that the entry of the function checked. -/
def LongEnough (lengths : List (Nat × Int)) (lens : Nat → Nat) : Prop :=
  ∀ base minimum, SortedMap.get base lengths = some minimum → minimum ≤ lens base

/-- A stronger guard implies the ones before it and its own. -/
theorem LongEnough.of_requireLength (h : LongEnough (requireLength base length lengths) lens) :
    LongEnough lengths lens ∧ length ≤ lens base := by
  have hget : ∃ minimum, SortedMap.get base (requireLength base length lengths) = some minimum ∧
      length ≤ minimum ∧ ∀ old, SortedMap.get base lengths = some old → old ≤ minimum := by
    unfold requireLength
    cases hold : SortedMap.get base lengths with
    | none => exact ⟨length, by simp, le_refl _, by simp⟩
    | some old => exact ⟨max old length, by simp, le_max_right _ _, by simp⟩
  obtain ⟨minimum, hminimum, hle, hold⟩ := hget
  have hbase := h base minimum hminimum
  refine ⟨fun other old hother => ?_, hle.trans hbase⟩
  by_cases heq : other = base
  · subst heq
    exact (hold old hother).trans hbase
  · refine h other old ?_
    unfold requireLength
    split <;> rwa [SortedMap.get_insert_of_ne heq]

/-- The operands of an access are assigned. -/
theorem explained_index (haccepted : Accepted program osr facts)
    (h : program.Reaches lens entry state)
    (haccess : program.code[state.ip]?.bind JitInstr.directAccess = some (base, index)) :
    Explains program osr lens entry (state.regs index) (program.origin osr index) := by
  obtain ⟨instr, hget, hdirect⟩ := bind_eq_some_iff.mp haccess
  have hused : index ∈ instr.usedRegisters := by cases instr <;> simp_all [JitInstr.directAccess]
  obtain ⟨written, hpath, hknown⟩ := explained haccepted h
  exact explains_used haccepted h hpath hknown hget hused

variable {search : Search}

theorem nonneg_of_nonnegativeAt (h : nonnegativeAt program.intervalAnalysis ip reg = true)
    (hreach : program.Reaches lens entry state) (hip : state.ip = ip) :
    0 ≤ (state.regs reg).toInt := by
  subst hip
  have hcovers := covers_intervalAnalysis hreach reg
  unfold nonnegativeAt at h
  cases hrow : program.intervalAnalysis[state.ip]? with
  | none => simp [hrow] at h
  | some row =>
    cases hrange : row[reg]? with
    | none => simp [hrow, hrange] at h
    | some range =>
      simp only [hrow, bind_some, hrange, any_some, decide_eq_true_eq] at h
      simp only [List.getD_eq_getElem?_getD, hrow, getD_some, hrange] at hcovers
      exact h.trans hcovers.1

/-- A remainder of a non-negative number lies below its divisor. -/
theorem remainder_in_range {word : Int64}
    (hexplains : Explains program osr lens entry word (.mod ip numerator divisor))
    (hnonneg : nonnegativeAt program.intervalAnalysis ip numerator = true)
    (hdivisor : ∀ divided : Int64, Agrees lens divided (program.origin osr divisor) →
      0 ≤ divided.toInt ∧ divided.toInt ≤ length) :
    0 ≤ word.toInt ∧ word.toInt < length := by
  obtain ⟨before, hreach, hip, hne, hword, hagrees⟩ := hexplains
  have hnumerator := nonneg_of_nonnegativeAt hnonneg hreach hip
  obtain ⟨hpos, hle⟩ := hdivisor _ hagrees
  rw [hword]
  have hless := Int.tmod_lt_of_pos (before.regs numerator).toInt (lt_of_le_of_ne hpos (Ne.symm hne))
  exact ⟨Int.tmod_nonneg _ hnumerator, hless.trans_le hle⟩

/-- Every selected access is in range in every execution from long enough lists. -/
def PlanSound (program : JitFunction) (lens : Nat → Nat) (entry : Nat → Int64)
    (plan : ListBoundsPlan) : Prop :=
  LongEnough plan.entryMinLen lens → ∀ state, program.ReachesInOrder lens entry state →
    state.ip ∈ plan.uncheckedIps → InRange program lens state

theorem PlanSound.planRemainder (haccepted : Accepted program osr facts)
    (h : PlanSound program lens entry plan) (ip : Nat) :
    PlanSound program lens entry (program.planRemainder program.intervalAnalysis osr plan ip) := by
  unfold JitFunction.planRemainder
  split
  · split
    · exact h
    · rename_i base index haccess
      split
      · rename_i modIp numerator divisor horigin
        split
        · rename_i hnonneg
          -- the access itself, once its divisor is known to be at most the length
          have hselected : ∀ state, program.Reaches lens entry state → state.ip = ip →
              (∀ divided : Int64, Agrees lens divided (program.origin osr divisor) →
                0 ≤ divided.toInt ∧ divided.toInt ≤ lens base) → InRange program lens state := by
            intro state hreach hip hdivisor base' index' haccess'
            subst hip
            have hexplains := explained_index haccepted hreach haccess
            obtain ⟨rfl, rfl⟩ : base = base' ∧ index = index' := by simpa [haccess] using haccess'
            rw [horigin] at hexplains
            exact remainder_in_range hexplains hnonneg hdivisor
          split
          · rename_i value hvalue
            split
            · rename_i hpositive
              intro hlong state hreach hmem
              obtain ⟨hlong, hlength⟩ := hlong.of_requireLength
              rcases Finset.mem_insert.mp hmem with hip | hmem
              · refine hselected state hreach.reaches hip fun divided hagrees => ?_
                rw [hvalue] at hagrees
                rw [show divided = value from hagrees]
                exact ⟨hpositive.le, hlength⟩
              · exact h hlong state hreach hmem
            · exact h
          · rename_i lenBase hvalue
            split
            · rename_i heq
              intro hlong state hreach hmem
              rcases Finset.mem_insert.mp hmem with hip | hmem
              · refine hselected state hreach.reaches hip fun divided hagrees => ?_
                rw [hvalue, heq] at hagrees
                rw [show divided.toInt = lens base from hagrees]
                exact ⟨Int.natCast_nonneg _, le_refl _⟩
              · exact h hlong state hreach hmem
            · exact h
          · exact h
        · exact h
      · exact h
  · exact h

/-- Every access at the positions is in range in every execution. -/
def AllInRange (program : JitFunction) (lens : Nat → Nat) (entry : Nat → Int64)
    (search : Search) : Prop :=
  ∀ state, program.ReachesInOrder lens entry state → state.ip ∈ search.uncheckedIps →
    InRange program lens state

theorem AllInRange.visitAccess (h : AllInRange program lens entry search)
    (haccess : program.code[ip]?.bind JitInstr.directAccess = some (loop.base, loop.induction) →
      ∀ state, program.ReachesInOrder lens entry state → state.ip = ip →
        InRange program lens state) :
    AllInRange program lens entry (program.visitAccess loop search ip) := by
  unfold JitFunction.visitAccess
  split
  · exact h
  · split
    · exact h
    · split
      · rename_i hdirect
        exact fun state hreach hmem =>
          (Finset.mem_insert.mp hmem).elim (haccess hdirect state hreach) (h state hreach)
      · exact h

theorem AllInRange.visitHeader (haccepted : Accepted program osr facts)
    (h : AllInRange program lens entry search) (header : Nat) :
    AllInRange program lens entry (program.visitHeader search header) := by
  unfold JitFunction.visitHeader
  split
  · exact h
  · split
    · exact h
    · rename_i bodyEnd hend
      split
      · rename_i loop remaining hfound
        refine List.foldlRecOn (motive := AllInRange program lens entry) _ _ h
          fun search h ip hip => h.visitAccess ?_
        rintro haccess state hreach rfl base index haccess'
        obtain ⟨rfl, rfl⟩ : loop.base = base ∧ loop.induction = index := by
          simpa [haccess] using haccess'
        have hloop := recognised_of_countedLoop hend ⟨_, _, hfound⟩
        rw [List.mem_range'_1] at hip
        have hinvariant := loopInvariant_of_run haccepted
          ⟨hloop, by omega, by omega, haccess⟩ hreach
        have hheader := hloop.header_le
        have hexit := hloop.update_mem.2
        exact ⟨(hinvariant.inside (by omega) (by omega)).counter,
          hinvariant.guarded (by omega) (by omega)⟩
      · exact h
      · exact h

theorem PlanSound.addCanonicalInductionBounds (haccepted : Accepted program osr facts)
    (h : PlanSound program lens entry plan) :
    PlanSound program lens entry (program.addCanonicalInductionBounds plan) := fun hlong =>
  List.foldlRecOn (motive := AllInRange program lens entry) _ _ (h hlong)
    fun _ h header _ => h.visitHeader haccepted header

theorem planSound_listBoundsPlan (haccepted : Accepted program osr facts) :
    PlanSound program lens entry (program.listBoundsPlan program.intervalAnalysis osr) := by
  refine PlanSound.addCanonicalInductionBounds haccepted ?_
  exact List.foldlRecOn _ _ (fun _ _ _ hmem => absurd hmem (Finset.notMem_empty _))
    fun plan h ip _ => h.planRemainder haccepted ip

end Plans

end JitFunction

/-! ## Unchecked accesses -/

/-- An access that is compiled without a bounds check is executed with an index of its list
only, if the execution came in order to the loops it was selected from and the lists are as
long as the entry of the function checks. -/
theorem uncheckedAccess_in_range (program : JitFunction) (osr : Bool) (limits : JitLimits)
    (facts : ValidationFacts) (h : validateWithLimits program osr limits = .ok facts)
    (lens : Nat → Nat) (entry : Nat → Int64)
    (hlong : ∀ base minimum,
      SortedMap.get base (program.listBoundsPlan program.intervalAnalysis osr).entryMinLen =
        some minimum → minimum ≤ lens base)
    (state : Machine) (hreach : program.ReachesInOrder lens entry state)
    (hunchecked :
      state.ip ∈ (program.listBoundsPlan program.intervalAnalysis osr).uncheckedIps) :
    ∀ base index, program.code[state.ip]?.bind JitInstr.directAccess = some (base, index) →
      0 ≤ (state.regs index).toInt ∧ (state.regs index).toInt < lens base :=
  JitFunction.planSound_listBoundsPlan (accepted_of_validate h) hlong state hreach hunchecked

/-- All executions of `sumElements` come in order to its loop. -/
theorem sumElements_in_range :
    (∃ facts, validateWithLimits sumElements false .default = .ok facts) ∧
      ∀ entry state, sumElements.Reaches (fun _ => 3) entry state → state.ip = 4 →
        sumElements.ReachesInOrder (fun _ => 3) entry state ∧
          0 ≤ (state.regs 1).toInt ∧ (state.regs 1).toInt < 3 := by
  obtain ⟨facts, hvalid⟩ : ∃ facts, validateWithLimits sumElements false .default = .ok facts :=
    ⟨_, rfl⟩
  have horder : sumElements.EnteredInOrder := by decide +kernel
  have hlengths :
      (sumElements.listBoundsPlan sumElements.intervalAnalysis false).entryMinLen = [] := by
    decide +kernel
  have hunchecked :
      4 ∈ (sumElements.listBoundsPlan sumElements.intervalAnalysis false).uncheckedIps := by
    decide +kernel
  refine ⟨⟨facts, hvalid⟩, fun entry state hreach hip => ?_⟩
  have hordered := horder.reachesInOrder hreach
  refine ⟨hordered, uncheckedAccess_in_range sumElements false .default facts hvalid (fun _ => 3)
    entry ?_ state hordered (hip ▸ hunchecked) 0 1 (by rw [hip]; rfl)⟩
  intro base minimum hget
  simp [hlengths, SortedMap.get] at hget

/-- The loop of `sumElements`, whose exit sets the counter to -5 and jumps back into
the straight-line code before the header, past the load of the counter. -/
def reenteredLoop : JitFunction where
  nParams := 1
  nRegs := 5
  regTypes := [.flatInt, .int, .int, .int, .int]
  zeroInitRegs := []
  code := [.loadInt 1 0, .listLenDirect 2 0, .loadInt 3 1, .jumpIfIntCompare 1 2 .lt false 7,
    .listGetIntDirect 4 0 1, .add 1 1 3, .jump 3, .loadInt 1 (-5), .jump 2]
  instructionOrigins := []
  sourceInstructionCount := 0
  memoScopes := []
  coldBlocks := []
  resumeLiveRegs := []

section Runs

variable {program : JitFunction}

theorem JitFunction.Reaches.write (h : program.Reaches lens entry ⟨ip, regs⟩) (target dst : Nat)
    (word : Int64) (hget : program.code[ip]? = some instr)
    (hedge : (target, some dst) ∈ program.edges ip) (htakes : program.Takes regs ip target instr)
    (hyields : program.Yields lens regs word instr) :
    program.Reaches lens entry ⟨target, Function.update regs dst word⟩ :=
  h.tail ⟨instr, some dst, hget, hedge, htakes, word, hyields, rfl⟩

theorem JitFunction.Reaches.branch (h : program.Reaches lens entry ⟨ip, regs⟩) (target : Nat)
    (hget : program.code[ip]? = some instr) (hedge : (target, none) ∈ program.edges ip)
    (htakes : program.Takes regs ip target instr) :
    program.Reaches lens entry ⟨target, regs⟩ :=
  h.tail ⟨instr, none, hget, hedge, htakes, rfl⟩

end Runs

/-- The access of the reentered loop is compiled without a check and executed at -5. -/
theorem reenteredLoop_out_of_range :
    (∃ facts, validateWithLimits reenteredLoop false .default = .ok facts) ∧
      4 ∈ (reenteredLoop.listBoundsPlan reenteredLoop.intervalAnalysis false).uncheckedIps ∧
      (reenteredLoop.listBoundsPlan reenteredLoop.intervalAnalysis false).entryMinLen = [] ∧
      reenteredLoop.code[4]?.bind JitInstr.directAccess = some (0, 1) ∧
      ∃ state, reenteredLoop.Reaches (fun _ => 0) (fun _ => 0) state ∧ state.ip = 4 ∧
        (state.regs 1).toInt = -5 := by
  refine ⟨⟨_, rfl⟩, by decide +kernel, by decide +kernel, rfl, ?_⟩
  have start : reenteredLoop.Reaches (fun _ => 0) (fun _ => 0) ⟨0, fun _ => 0⟩ :=
    Relation.ReflTransGen.refl
  -- the loop is left at once, as the list is empty
  have counted := start.write 1 1 0 rfl (by decide) trivial rfl
  have measured := counted.write 2 2 0 rfl (by decide) trivial rfl
  have ready := measured.write 3 3 1 rfl (by decide) trivial rfl
  have left := ready.branch 7 rfl (by decide) fun _ => rfl
  -- and entered again with the new counter
  have reset := left.write 8 1 (-5) rfl (by decide) trivial rfl
  have back := reset.branch 2 rfl (by decide) trivial
  have again := back.write 3 3 1 rfl (by decide) trivial rfl
  have access := again.branch 4 rfl (by decide) fun _ => rfl
  exact ⟨_, access, rfl, by decide⟩

end Jit
