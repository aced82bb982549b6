import RSScript.Jit.Dataflow

/-!
# Executions of JIT code

The checked meaning of the IR over 64-bit register words, as generated code has it
when it does not bail: an instruction whose guard fails has no successor state.
Floats, heap values and helper results are words nothing is said about, so that
every execution of the machine code is one of these; only what the integer
analyses look at is exact. `lens` holds the element count of each flat list, which
no instruction changes.
-/

namespace Jit

/-- The comparison of two integers. -/
def JitCompare.holds : JitCompare → Int → Int → Bool
  | .lt, a, b => a < b
  | .le, a, b => a ≤ b
  | .gt, a, b => b < a
  | .ge, a, b => b ≤ a

/-- A logical boolean as a register word. -/
def boolWord (value : Bool) : Int64 := if value then 1 else 0

/-- A position in the code and the register words on entry to it. -/
structure Machine where
  ip : Nat
  regs : Nat → Int64

namespace JitFunction

variable (program : JitFunction)

/-- The words an instruction can write from the given registers. -/
def Yields (lens : Nat → Nat) (regs : Nat → Int64) (written : Int64) : JitInstr → Prop
  | .loadInt _ value => written = value
  | .loadBool _ value => written = boolWord value
  | .move _ src => written = regs src
  -- checked arithmetic bails where the exact result is no word
  | .add _ lhs rhs => program.isFloat lhs = false →
      written.toInt = (regs lhs).toInt + (regs rhs).toInt
  | .sub _ lhs rhs => program.isFloat lhs = false →
      written.toInt = (regs lhs).toInt - (regs rhs).toInt
  | .mul _ lhs rhs => program.isFloat lhs = false →
      written.toInt = (regs lhs).toInt * (regs rhs).toInt
  | .div _ lhs rhs => program.isFloat lhs = false → (regs rhs).toInt ≠ 0 ∧
      written.toInt = (regs lhs).toInt.tdiv (regs rhs).toInt
  | .mod _ lhs rhs => (regs rhs).toInt ≠ 0 ∧
      ¬ ((regs lhs).toInt = -2 ^ 63 ∧ (regs rhs).toInt = -1) ∧
      written.toInt = (regs lhs).toInt.tmod (regs rhs).toInt
  | .bitAnd _ lhs rhs => written = regs lhs &&& regs rhs
  | .bitOr _ lhs rhs => written = regs lhs ||| regs rhs
  | .bitXor _ lhs rhs => written = regs lhs ^^^ regs rhs
  | .shl _ lhs rhs => 0 ≤ (regs rhs).toInt ∧ (regs rhs).toInt < 64 ∧ written = regs lhs <<< regs rhs
  | .shr _ lhs rhs => 0 ≤ (regs rhs).toInt ∧ (regs rhs).toInt < 64 ∧ written = regs lhs >>> regs rhs
  | .compare _ op lhs rhs => program.isFloat lhs = false →
      written = boolWord (op.holds (regs lhs).toInt (regs rhs).toInt)
  | .equal _ lhs rhs => program.isFloat lhs = false → written = boolWord (regs lhs = regs rhs)
  | .notEqual _ lhs rhs => program.isFloat lhs = false → written = boolWord (regs lhs ≠ regs rhs)
  | .listLenDirect _ base => written.toInt = lens base
  | .listIsEmptyDirect _ base => written = boolWord (lens base = 0)
  -- the helper returns an element count
  | .hostCall .listLen _ _ => 0 ≤ written.toInt
  | .listGetIntDirect _ base index | .listSetIntDirect _ base index _
  | .listGetFloatDirect _ base index | .listSetFloatDirect _ base index _ =>
      0 ≤ (regs index).toInt ∧ (regs index).toInt < lens base
  | _ => True

/-- The way a branch takes from the given registers; a float comparison may go either way. -/
def Takes (regs : Nat → Int64) (ip target : Nat) : JitInstr → Prop
  | .jumpIfBool cond expected destination =>
      if decide (regs cond ≠ 0) = expected then target = destination else target = ip + 1
  | .jumpIfIntCompare lhs rhs op expected destination => program.isFloat lhs = false →
      if op.holds (regs lhs).toInt (regs rhs).toInt = expected then target = destination
      else target = ip + 1
  | _ => True

/-- What an edge leaves in the registers. -/
def Writes (lens : Nat → Nat) (regs : Nat → Int64) (instr : JitInstr) :
    Option Nat → (Nat → Int64) → Prop
  | none, after => after = regs
  | some dst, after => ∃ written, program.Yields lens regs written instr ∧
      after = Function.update regs dst written

/-- One instruction that does not bail. -/
structure Step (lens : Nat → Nat) (before after : Machine) : Prop where
  intro ::
  executes : ∃ instr written, program.code[before.ip]? = some instr ∧
    (after.ip, written) ∈ program.edges before.ip ∧
    program.Takes before.regs before.ip after.ip instr ∧
    program.Writes lens before.regs instr written after.regs

/-- The states an execution from instruction 0 reaches. Entry at a loop header, as on-stack
replacement has it, is not modelled; where a statement is about either kind of entry, that is
about what the analyses assume of the registers. The interval rows of instructions that are
not reachable from instruction 0 are top, and no access is selected there. -/
def Reaches (lens : Nat → Nat) (entry : Nat → Int64) (state : Machine) : Prop :=
  Relation.ReflTransGen (program.Step lens) ⟨0, entry⟩ state

variable {program}

/-- An execution follows a path of the control-flow graph. -/
theorem Reaches.path (h : program.Reaches lens entry state) :
    ∃ written, program.Path written state.ip := by
  induction h with
  | refl => exact ⟨[], .entry⟩
  | tail _ hstep ih =>
    obtain ⟨trace, hpath⟩ := ih
    obtain ⟨_, written, _, hedge, _⟩ := hstep.executes
    exact ⟨_, hpath.step hedge⟩

theorem Reaches.reachable (hlt : 0 < program.code.length) (h : program.Reaches lens entry state) :
    state.ip ∈ program.reachableJitInstrs := by
  obtain ⟨_, hpath⟩ := h.path
  exact reachable_of_path hlt hpath

/-- The register an edge writes is the one its instruction defines. -/
theorem definedRegister_of_edge (hget : program.code[ip]? = some instr)
    (hedge : (target, some dst) ∈ program.edges ip) : instr.definedRegister = some dst := by
  rw [edges_eq hget] at hedge
  have hedge := (List.mem_filter.mp hedge).1
  cases hflow : instr.controlFlow with
  | split first second =>
    simp only [hflow, List.mem_cons, Prod.mk.injEq, reduceCtorEq, and_false, List.not_mem_nil,
      or_false] at hedge
    exact hedge.2.symm
  | _ =>
    simp only [hflow, List.mem_map] at hedge
    obtain ⟨_, _, heq⟩ := hedge
    exact (Prod.mk.inj heq).2

end JitFunction

end Jit
