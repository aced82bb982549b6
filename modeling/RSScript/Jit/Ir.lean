import RSScript.Jit.HostAbi

/-!
# The JIT's intermediate representation

Instructions over an unboxed register file, their control-flow shapes, and the
functions a producer hands to validation and code generation. Registers, jump
targets and instruction positions are `u32`/`usize` indices in the source and
natural numbers here; integer constants are 64-bit.

The machine code that is generated from a function is not modelled.
-/

namespace Jit

/-- Argument of a generic host-helper call. -/
inductive HostArg where
  | reg (reg : Nat)
  | immI64 (value : Int64)

/-- Signed integer comparison. -/
inductive JitCompare where
  | lt | le | gt | ge
  deriving DecidableEq, Repr

inductive FloatRounding where
  | floor | ceil
  deriving DecidableEq, Repr

/-- Handle to a function compiled into a native module. -/
structure CompiledId where
  moduleId : Nat
  index : Nat

/-- One instruction of the JIT IR. -/
inductive JitInstr where
  | nop
  | tailCallGuard (maxDepth : Nat)
  | loadInt (dst : Nat) (value : Int64)
  | loadFloat (dst : Nat) (bits : UInt64)
  | loadBool (dst : Nat) (value : Bool)
  | move (dst src : Nat)
  | add (dst lhs rhs : Nat)
  | sub (dst lhs rhs : Nat)
  | mul (dst lhs rhs : Nat)
  | div (dst lhs rhs : Nat)
  | mod (dst lhs rhs : Nat)
  | intToFloat (dst src : Nat)
  | floatToInt (dst src : Nat) (rounding : FloatRounding)
  | hostCall (helper : HostHelper) (dst : Nat) (args : List HostArg)
  | memoizedHostCall (helper : HostHelper) (dst : Nat) (args : List HostArg) (memoSlot : Nat)
  | callNative (callee : CompiledId) (dst : Nat) (args : List Nat)
  | matchMapGetInt (map key valueDst someIp noneIp : Nat)
  | matchMapGetFloat (map key valueDst someIp noneIp : Nat)
  | matchSortedMapGetInt (map key valueDst someIp noneIp : Nat)
  | matchSortedMapGetFloat (map key valueDst someIp noneIp : Nat)
  | bitAnd (dst lhs rhs : Nat)
  | bitOr (dst lhs rhs : Nat)
  | bitXor (dst lhs rhs : Nat)
  | shl (dst lhs rhs : Nat)
  | shr (dst lhs rhs : Nat)
  | compare (dst : Nat) (op : JitCompare) (lhs rhs : Nat)
  | equal (dst lhs rhs : Nat)
  | notEqual (dst lhs rhs : Nat)
  | jump (target : Nat)
  | jumpIfBool (cond : Nat) (expected : Bool) (target : Nat)
  | jumpIfIntCompare (lhs rhs : Nat) (op : JitCompare) (expected : Bool) (target : Nat)
  | return (src : Nat)
  | bail
  | listGetIntDirect (dst base index : Nat)
  | listSetIntDirect (dst base index value : Nat)
  | listGetFloatDirect (dst base index : Nat)
  | listSetFloatDirect (dst base index value : Nat)
  | listLenDirect (dst base : Nat)
  | listIsEmptyDirect (dst base : Nat)
  | osrExit
  | regionExit (exitId : Nat) (live : List Nat)

/-- Canonical control-flow shape of one instruction. -/
inductive JitControlFlow where
  | fallthrough
  | jump (target : Nat)
  | conditional (target : Nat)
  | split (first second : Nat)
  | terminal
  deriving DecidableEq, Repr

/-- The registers among the arguments of a helper call. -/
def argRegisters (args : List HostArg) : List Nat :=
  args.filterMap fun
    | .reg reg => some reg
    | .immI64 _ => none

variable {instr : JitInstr}

namespace JitInstr

/-- The register definitely defined by this instruction, if any. -/
def definedRegister : JitInstr → Option Nat
  | loadInt dst _ | loadFloat dst _ | loadBool dst _ | move dst _ | add dst _ _ | sub dst _ _
  | mul dst _ _ | div dst _ _ | mod dst _ _ | intToFloat dst _ | floatToInt dst _ _
  | hostCall _ dst _ | memoizedHostCall _ dst _ _ | callNative _ dst _ | bitAnd dst _ _
  | bitOr dst _ _ | bitXor dst _ _ | shl dst _ _ | shr dst _ _ | compare dst _ _ _ | equal dst _ _
  | notEqual dst _ _ | matchMapGetInt _ _ dst _ _ | matchMapGetFloat _ _ dst _ _
  | matchSortedMapGetInt _ _ dst _ _ | matchSortedMapGetFloat _ _ dst _ _
  | listGetIntDirect dst _ _ | listSetIntDirect dst _ _ _ | listGetFloatDirect dst _ _
  | listSetFloatDirect dst _ _ _ | listLenDirect dst _ | listIsEmptyDirect dst _ => some dst
  | nop | tailCallGuard _ | jump _ | jumpIfBool _ _ _ | jumpIfIntCompare _ _ _ _ _ | .return _
  | osrExit | regionExit _ _ | bail => none

/-- The registers whose current value is consumed by this instruction, in the
order `visit_used_registers` visits them. -/
def usedRegisters : JitInstr → List Nat
  | nop | tailCallGuard _ | loadInt _ _ | loadFloat _ _ | loadBool _ _ | jump _ | bail
  | osrExit => []
  | regionExit _ live => live
  | move _ src | intToFloat _ src | floatToInt _ src _ | .return src => [src]
  | add _ lhs rhs | sub _ lhs rhs | mul _ lhs rhs | div _ lhs rhs | mod _ lhs rhs
  | bitAnd _ lhs rhs | bitOr _ lhs rhs | bitXor _ lhs rhs | shl _ lhs rhs | shr _ lhs rhs
  | compare _ _ lhs rhs | equal _ lhs rhs | notEqual _ lhs rhs
  | jumpIfIntCompare lhs rhs _ _ _ => [lhs, rhs]
  | hostCall _ _ args | memoizedHostCall _ _ args _ => argRegisters args
  | callNative _ _ args => args
  | matchMapGetInt map key _ _ _ | matchMapGetFloat map key _ _ _
  | matchSortedMapGetInt map key _ _ _ | matchSortedMapGetFloat map key _ _ _ => [map, key]
  | jumpIfBool cond _ _ => [cond]
  | listGetIntDirect _ base index | listGetFloatDirect _ base index => [base, index]
  | listSetIntDirect _ base index value | listSetFloatDirect _ base index value =>
    [base, index, value]
  | listLenDirect _ base | listIsEmptyDirect _ base => [base]

def controlFlow : JitInstr → JitControlFlow
  | jump target => .jump target
  | jumpIfBool _ _ target | jumpIfIntCompare _ _ _ _ target => .conditional target
  | matchMapGetInt _ _ _ someIp noneIp | matchMapGetFloat _ _ _ someIp noneIp
  | matchSortedMapGetInt _ _ _ someIp noneIp | matchSortedMapGetFloat _ _ _ someIp noneIp =>
    .split someIp noneIp
  | .return _ | bail | osrExit | regionExit _ _ => .terminal
  | _ => .fallthrough

/-- The instructions of the conservative no-deopt list. -/
def stepBatchSafe : JitInstr → Bool
  | nop | loadInt _ _ | loadFloat _ _ | loadBool _ _ | move _ _ | bitAnd _ _ _ | bitOr _ _ _
  | bitXor _ _ _ | compare _ _ _ _ | equal _ _ _ | notEqual _ _ _ | jump _ | jumpIfBool _ _ _
  | jumpIfIntCompare _ _ _ _ _ | .return _ => true
  | _ => false

/-- A fused map lookup: its value register and its two targets. -/
def mapMatch : JitInstr → Option (Nat × Nat × Nat)
  | matchMapGetInt _ _ valueDst someIp noneIp | matchMapGetFloat _ _ valueDst someIp noneIp
  | matchSortedMapGetInt _ _ valueDst someIp noneIp
  | matchSortedMapGetFloat _ _ valueDst someIp noneIp => some (valueDst, someIp, noneIp)
  | _ => none

/-- `RegionExit`, `OsrExit` and `Bail` execute nothing of the source. -/
def isBoundary : JitInstr → Bool
  | regionExit _ _ | osrExit | bail => true
  | _ => false

/-- A direct list access: its base list and its index register. -/
def directAccess : JitInstr → Option (Nat × Nat)
  | listGetIntDirect _ base index | listSetIntDirect _ base index _
  | listGetFloatDirect _ base index | listSetFloatDirect _ base index _ => some (base, index)
  | _ => none

theorem split_of_mapMatch (h : instr.mapMatch = some (valueDst, someIp, noneIp)) :
    instr.controlFlow = .split someIp noneIp ∧ instr.definedRegister = some valueDst := by
  cases instr <;> simp_all [controlFlow, mapMatch, definedRegister]

end JitInstr

/-- Activation boundary for one or more loop-local memo slots: the instructions
`[header, exit)`. -/
structure MemoScope where
  header : Nat
  exit : Nat
  memoSlots : List Nat

/-- Source identity and accounting carried by one instruction. -/
structure JitInstructionOrigin where
  sourceIp : Nat
  resumeIp : Nat
  sourceCost : Nat
  intrinsicCost : Nat
  inlined : Bool

def JitInstructionOrigin.identity (ip : Nat) : JitInstructionOrigin where
  sourceIp := ip
  resumeIp := ip
  sourceCost := 1
  intrinsicCost := 0
  inlined := false

/-- A compilable function. -/
structure JitFunction where
  nParams : Nat
  nRegs : Nat
  regTypes : List JitValueType
  -- scratch registers whose entry value is zero
  zeroInitRegs : List Nat
  code : List JitInstr
  -- empty stands for identity metadata
  instructionOrigins : List JitInstructionOrigin
  -- zero stands for `code.len()`
  sourceInstructionCount : Nat
  memoScopes : List MemoScope
  coldBlocks : List Nat
  -- empty, or one sorted register list per instruction
  resumeLiveRegs : List (List Nat)

variable {ip target : Nat}

namespace JitFunction

variable (program : JitFunction)

/-- `reg_types[reg]`, which the validator and the analyses read in range only. -/
def regType (reg : Nat) : JitValueType := program.regTypes.getD reg .handle

def isInt (reg : Nat) : Bool := program.regType reg = .int

def isFloat (reg : Nat) : Bool := program.regType reg = .float

def instructionOrigin (ip : Nat) : JitInstructionOrigin :=
  match program.instructionOrigins[ip]? with
  | some origin => origin
  | none =>
    let origin := JitInstructionOrigin.identity ip
    match program.code[ip]? with
    | some instr =>
      if instr.isBoundary then { origin with sourceCost := 0, intrinsicCost := 0 } else origin
    | none => origin

def sourceLen : Nat :=
  if program.sourceInstructionCount = 0 then program.code.length
  else program.sourceInstructionCount

/-- The targets of a control-flow shape at an instruction, those out of range included. -/
def targets (ip : Nat) : JitControlFlow → List Nat
  | .jump target => [target]
  | .conditional target => [ip + 1, target]
  | .split first second => [first, second]
  | .terminal => []
  | .fallthrough => [ip + 1]

/-- The control-flow successors of an instruction; targets out of range are dropped. -/
def successors (ip : Nat) : List Nat :=
  match program.code[ip]? with
  | some instr => (targets ip instr.controlFlow).filter (· < program.code.length)
  | none => []

/-- The predecessors of an instruction, one for each edge into it. -/
def predecessors (ip : Nat) : List Nat :=
  (List.range program.code.length).flatMap fun source =>
    (program.successors source).filterMap fun target =>
      if target = ip then some source else none

variable {program}

theorem successors_lt (h : target ∈ program.successors ip) : target < program.code.length := by
  unfold successors at h
  split at h
  · simpa using (List.mem_filter.mp h).2
  · simp at h

theorem lt_of_mem_successors (h : target ∈ program.successors ip) : ip < program.code.length := by
  unfold successors at h
  split at h
  · rename_i hget
    exact (List.getElem?_eq_some_iff.mp hget).1
  · simp at h

@[simp] theorem mem_predecessors :
    source ∈ program.predecessors ip ↔ ip ∈ program.successors source := by
  simp only [predecessors, List.mem_flatMap, List.mem_range, List.mem_filterMap]
  constructor
  · rintro ⟨source', _, target, htarget, h⟩
    split at h
    · cases h
      subst ip
      exact htarget
    · simp at h
  · intro h
    exact ⟨source, lt_of_mem_successors h, ip, h, by simp⟩

end JitFunction

/-! ## Edges -/

/-- The edges out of an instruction, each with the register it writes: a fused
lookup writes its value on the `Some` edge only. -/
def JitFunction.edges (program : JitFunction) (ip : Nat) : List (Nat × Option Nat) :=
  match program.code[ip]? with
  | none => []
  | some instr =>
    let outgoing := match instr.controlFlow with
      | .split first second => [(first, instr.definedRegister), (second, none)]
      | shape => (JitFunction.targets ip shape).map (·, instr.definedRegister)
    outgoing.filter (·.1 < program.code.length)

namespace JitFunction

variable {program : JitFunction}

theorem edges_eq (hget : program.code[ip]? = some instr) :
    program.edges ip = (match instr.controlFlow with
      | .split first second => [(first, instr.definedRegister), (second, none)]
      | shape => (targets ip shape).map (·, instr.definedRegister)).filter
        (·.1 < program.code.length) := by
  simp [edges, hget]

theorem successors_eq (hget : program.code[ip]? = some instr) :
    program.successors ip = (targets ip instr.controlFlow).filter (· < program.code.length) := by
  simp [successors, hget]

/-- The edges are those of the successor list. -/
theorem edges_map_fst : (program.edges ip).map Prod.fst = program.successors ip := by
  cases hget : program.code[ip]? with
  | none => simp [edges, successors, hget]
  | some instr =>
    have hmap : (match instr.controlFlow with
        | .split first second => [(first, instr.definedRegister), (second, none)]
        | shape => (targets ip shape).map (·, instr.definedRegister)).map Prod.fst =
          targets ip instr.controlFlow := by
      cases instr.controlFlow <;> rfl
    rw [edges_eq hget, successors_eq hget, ← hmap, List.filter_map]
    rfl

theorem mem_successors_of_edge (h : (target, written) ∈ program.edges ip) :
    target ∈ program.successors ip := by
  rw [← edges_map_fst]
  exact List.mem_map_of_mem h

theorem exists_edge (h : target ∈ program.successors ip) :
    ∃ written, (target, written) ∈ program.edges ip := by
  rw [← edges_map_fst] at h
  obtain ⟨⟨_, written⟩, hedge, rfl⟩ := List.mem_map.mp h
  exact ⟨written, hedge⟩

end JitFunction

end Jit
