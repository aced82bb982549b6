import RSScript.Jit.Dataflow
import RSScript.Lib.Outcome
import Mathlib.Algebra.Ring.Nat
import Mathlib.Data.List.Sort

/-!
# Validation of JIT functions

`validate_with_limits`: every structural, type, control-flow and resource check on
a function before analysis and code generation, in the order of the source and
with its messages, and the facts it hands to code generation. A register of a
`RegionExit` is not range-checked before the assignment facts are indexed with it,
so that validation itself can panic.
-/

namespace Jit

open Guards Outcome

/-- Why a function was refused. -/
structure JitError where
  message : String
  deriving DecidableEq, Repr

abbrev Check (α : Type) : Type := Except (Fault JitError) α

def invalidIr (message : String) : Fault JitError := .error ⟨message⟩

/-! ## Limits -/

/-- Deterministic structural limits applied before analysis; those that only code
generation and module building read are left out. -/
structure JitLimits where
  maxInstructions : Nat
  maxRegisters : Nat
  maxParameters : Nat
  maxCfgEdges : Nat
  maxTotalOperands : Nat
  maxAnalysisCells : Nat
  maxMemoScopes : Nat
  maxMemoSlots : Nat
  maxIrWorkUnits : Nat

def JitLimits.default : JitLimits where
  maxInstructions := 1_000_000
  maxRegisters := 65_536
  maxParameters := 16_384
  maxCfgEdges := 2_000_000
  maxTotalOperands := 8_000_000
  maxAnalysisCells := 1_000_000
  maxMemoScopes := 4_096
  maxMemoSlots := 65_536
  maxIrWorkUnits := 16_000_000

/-- One more than the largest `usize` and `u64`. -/
def word : Nat := 2 ^ 64

def checkedAdd (a b : Nat) : Option Nat := if a + b < word then some (a + b) else none

def checkedMul (a b : Nat) : Option Nat := if a * b < word then some (a * b) else none

/-- The estimate of the work of compiling a function. -/
def checkedWork (instructions registers cfgEdges operands memoScopes : Nat) : Option Nat := do
  let cells ← checkedMul instructions registers
  let memoScan ← checkedMul memoScopes (← checkedAdd instructions cfgEdges)
  checkedAdd (← checkedAdd (← checkedAdd cells cfgEdges) operands) memoScan

section

variable (program : JitFunction)

/-! ## Origins -/

/-- Charge the source cost of an item that is not inlined: each source instruction once. -/
def chargeSource (origin : JitInstructionOrigin) (charged : Finset Nat) (total : Nat) :
    Check (Finset Nat × Nat) :=
  if origin.inlined then return (charged, total)
  else do
    ensure (origin.sourceCost = 0 ∨ origin.sourceIp ∉ charged)
      (invalidIr s!"source instruction {origin.sourceIp} owns source cost more than once")
    ensure (total + origin.sourceCost < word) (invalidIr "source-step cost overflow")
    return (if origin.sourceCost = 0 then charged else insert origin.sourceIp charged,
      total + origin.sourceCost)

/-- Both positions lie in the source; outside inlined code a step is charged once. -/
def checkOrigin (state : Finset Nat × Nat) (entry : JitInstructionOrigin × Nat) :
    Check (Finset Nat × Nat) := do
  let (origin, jitIp) := entry
  ensure (origin.sourceIp < program.sourceLen) (invalidIr
    s!"instruction origin {jitIp} has source_ip {origin.sourceIp} outside source length {program.sourceLen}")
  ensure (origin.resumeIp < program.sourceLen) (invalidIr
    s!"instruction origin {jitIp} has resume_ip {origin.resumeIp} outside source length {program.sourceLen}")
  let state ← chargeSource origin state.1 state.2
  ensure (origin.intrinsicCost = 0 ∨ origin.sourceCost ≠ 0) (invalidIr
    s!"instruction origin {jitIp} owns an intrinsic call without owning a source step")
  ensure (origin.intrinsicCost ≤ 1) (invalidIr
    s!"instruction origin {jitIp} owns {origin.intrinsicCost} intrinsic calls; one source instruction dispatches at most one")
  let instr ← at_ program.code jitIp
  ensure (instr.isBoundary = false ∨ origin.sourceCost = 0 ∧ origin.intrinsicCost = 0) (invalidIr
    s!"non-executing boundary instruction {jitIp} must have zero source cost")
  return state

def checkOrigins : Check Unit :=
  if program.instructionOrigins.isEmpty then return ()
  else do
    ensure (program.instructionOrigins.length = program.code.length) (invalidIr
      s!"instruction origin table has {program.instructionOrigins.length} entries for {program.code.length} JIT instructions")
    ensure (program.sourceLen ≠ 0 ∨ program.code.length = 0) (invalidIr
      "non-empty JIT IR requires a non-empty source instruction space")
    let (_, total) ← program.instructionOrigins.zipIdx.foldlM (checkOrigin program) (∅, 0)
    ensure (total ≤ min (program.sourceLen * 2) (word - 1)) (invalidIr
      s!"source-step cost {total} exceeds twice the source instruction count {program.sourceLen}")

/-! ## Dimensions and work -/

/-- The sizes of the register file and the code against each other and the limits. -/
def checkDimensions (limits : JitLimits) : Check Unit := do
  ensure (program.regTypes.length = program.nRegs) (invalidIr
    s!"reg_types length {program.regTypes.length} does not match n_regs {program.nRegs}")
  ensure (program.nParams ≤ program.nRegs) (invalidIr
    s!"n_params {program.nParams} exceeds n_regs {program.nRegs}")
  ensure (program.nRegs ≤ limits.maxRegisters) (invalidIr
    s!"n_regs {program.nRegs} exceeds the JIT limit {limits.maxRegisters}")
  ensure (program.nParams ≤ limits.maxParameters) (invalidIr
    s!"n_params {program.nParams} exceeds the JIT limit {limits.maxParameters}")
  ensure (program.code.length ≤ limits.maxInstructions) (invalidIr
    s!"code length {program.code.length} exceeds the JIT limit {limits.maxInstructions}")
  ensure (program.nRegs * program.code.length < word) (invalidIr
    s!"JIT analysis dimensions overflow: {program.code.length} instructions x {program.nRegs} registers")
  ensure (program.nRegs * program.code.length ≤ limits.maxAnalysisCells) (invalidIr
    s!"JIT analysis size {program.nRegs * program.code.length} cells exceeds the limit {limits.maxAnalysisCells} ({program.code.length} instructions x {program.nRegs} registers)")

def cfgEdges : Nat :=
  ((List.range program.code.length).map fun ip => (program.successors ip).length).sum

/-- A saturating count. -/
def totalOperands : Nat :=
  min ((program.code.map fun instr => instr.usedRegisters.length).sum) (word - 1)

/-- What the analyses will cost is bounded before they run. -/
def checkWork (limits : JitLimits) : Check Unit := do
  let edges := cfgEdges program
  let operands := totalOperands program
  ensure (edges < word) (invalidIr "JIT CFG edge count overflow")
  ensure (edges ≤ limits.maxCfgEdges) (invalidIr
    s!"JIT CFG has {edges} edges, exceeding the limit {limits.maxCfgEdges}")
  ensure (operands ≤ limits.maxTotalOperands) (invalidIr
    s!"JIT IR has {operands} register operands, exceeding the limit {limits.maxTotalOperands}")
  ensure (program.memoScopes.length ≤ limits.maxMemoScopes) (invalidIr
    s!"JIT IR has {program.memoScopes.length} memo scopes, exceeding the limit {limits.maxMemoScopes}")
  match checkedWork program.code.length program.nRegs edges operands program.memoScopes.length with
  | none => throw (invalidIr "JIT compilation work estimate overflow")
  | some work => ensure (work ≤ limits.maxIrWorkUnits) (invalidIr
      s!"JIT compilation work estimate {work} exceeds the limit {limits.maxIrWorkUnits}")

/-! ## Registers, classes and targets -/

/-- A zero-initialized register is a scalar and no parameter. -/
def checkZeroInitReg (reg : Nat) : Check Unit := do
  ensure (reg < program.nRegs) (invalidIr
    s!"zero-initialized register {reg} is out of range (n_regs {program.nRegs})")
  ensure (program.nParams ≤ reg) (invalidIr
    s!"parameter register {reg} cannot be declared zero-initialized")
  ensure ((program.regType reg).isNonscalar = false) (invalidIr
    s!"zero-initialized register {reg} must have a scalar type")

def checkColdBlock (coldIp : Nat) : Check Unit :=
  ensure (coldIp < program.code.length) (invalidIr
    s!"cold block instruction {coldIp} is out of range for {program.code.length} instructions")

def checkReg (reg : Nat) : Check Unit :=
  ensure (reg < program.nRegs) (invalidIr
    s!"register {reg} out of range (n_regs {program.nRegs})")

def checkTarget (target : Nat) : Check Unit :=
  ensure (target < program.code.length) (invalidIr
    s!"jump target {target} out of range (code length {program.code.length})")

/-- A conditional branch falls through to the next instruction. -/
def checkFallthrough (ip : Nat) : Check Unit :=
  ensure (ip + 1 < program.code.length) (invalidIr
    s!"conditional branch at {ip} has no fall-through instruction")

/-- Two operands of the same scalar class. -/
def scalarPair (lhs rhs : Nat) (op : String) : Check Unit := do
  checkReg program lhs
  checkReg program rhs
  ensure ((program.regType lhs).isNonscalar = false ∧ (program.regType rhs).isNonscalar = false)
    (invalidIr s!"{op}: operand is a non-scalar (Handle/flat) register")
  ensure (program.regType lhs = program.regType rhs) (invalidIr
    s!"{op}: operand classes differ ({(program.regType lhs).debug} vs {(program.regType rhs).debug})")

/-- Two operands of one numeric type. -/
def numericPair (lhs rhs : Nat) (op : String) : Check Unit := do
  scalarPair program lhs rhs op
  ensure (program.regType lhs = .int ∨ program.regType lhs = .float) (invalidIr
    s!"{op}: operands must be Int or Float")

/-- The result register has the operands' class. -/
def arith (dst lhs rhs : Nat) (op : String) : Check Unit := do
  numericPair program lhs rhs op
  checkReg program dst
  ensure (program.regType dst = program.regType lhs) (invalidIr
    s!"{op}: result {(program.regType dst).debug} does not match operands {(program.regType lhs).debug}")

/-- Every register must be `Int`. -/
def intOp (dst lhs rhs : Nat) (op : String) : Check Unit := do
  checkReg program dst
  checkReg program lhs
  checkReg program rhs
  [dst, lhs, rhs].forM fun reg =>
    ensure (program.regType reg = .int) (invalidIr s!"{op}: register {reg} must be Int")

/-- Operands share a scalar class, the result is a logical `Bool`. -/
def compareOp (dst lhs rhs : Nat) (op : String) : Check Unit := do
  numericPair program lhs rhs op
  checkReg program dst
  ensure (program.regType dst = .bool) (invalidIr s!"{op}: boolean result must be Bool")

def requireClass (reg : Nat) (want : JitValueType) (op : String) : Check Unit := do
  checkReg program reg
  ensure (program.regType reg = want) (invalidIr
    s!"{op}: register {reg} is {(program.regType reg).debug}, expected {want.debug}")

/-- The registers that enter through the caller's window. -/
def window (osr : Bool) : Nat := if osr then program.nRegs else program.nParams

/-- A flat list of the class, or of its mutable counterpart. -/
def flatMatches : JitValueType → JitValueType → Bool
  | .flatInt, .flatIntMut | .flatFloat, .flatFloatMut => true
  | want, actual => actual = want

def requireFlatParam (osr : Bool) (reg : Nat) (want : JitValueType) (op : String) : Check Unit := do
  checkReg program reg
  ensure (flatMatches want (program.regType reg) = true) (invalidIr
    s!"{op}: register {reg} is {(program.regType reg).debug}, expected {want.debug}")
  ensure (reg < window program osr) (invalidIr s!"{op}: register {reg} is not a parameter")

/-- The base of a length read. -/
def requireAnyFlatParam (osr : Bool) (base : Nat) (op : String) : Check Unit := do
  checkReg program base
  ensure ((program.regType base).isFlatType = true) (invalidIr
    s!"{op}: register {base} is {(program.regType base).debug}, expected a flat-array param")
  ensure (base < window program osr) (invalidIr s!"{op}: register {base} is not a parameter")

/-! ## Host calls -/

/-- The arguments of a helper call against its signature; `call` is the name of the call. -/
def checkHostArgs (call : String) (helper : HostHelper) (args : List HostArg) : Check Unit := do
  let expected := helper.descriptor.args
  ensure (args.length = expected.length) (invalidIr
    s!"{call} {helper.debug}: got {args.length} args, expected {expected.length}")
  (args.zip expected).zipIdx.forM fun ((arg, want), i) =>
    match arg with
    | .reg reg => requireClass program reg want s!"{call} {helper.debug} arg {i}"
    | .immI64 _ => ensure (want = .int) (invalidIr
        s!"{call} {helper.debug} arg {i}: immediate used for {want.debug}")

/-- A result the helper returns as bits of an `Int` or a `Float`. -/
def checkBitsResult (call : String) (helper : HostHelper) (dst : Nat) : Check Unit := do
  checkReg program dst
  ensure (program.regType dst = .int ∨ program.regType dst = .float) (invalidIr
    s!"{call} {helper.debug} result: register {dst} is {(program.regType dst).debug}, expected Int or Float")

/-- The operands of a helper call agree with the table of helpers. -/
def checkHostCall (helper : HostHelper) (dst : Nat) (args : List HostArg) : Check Unit := do
  ensure (helper.descriptor.foundOut = false) (invalidIr
    s!"HostCall {helper.debug}: helper has a private found output")
  checkHostArgs program "HostCall" helper args
  match helper.descriptor.result with
  | .exact result => requireClass program dst result s!"HostCall {helper.debug} result"
  | .intOrFloatBits => checkBitsResult program "HostCall" helper dst

/-- A memoized call writes no heap and has a scalar result. -/
def checkMemoizedHostCall (helper : HostHelper) (dst : Nat) (args : List HostArg) : Check Unit := do
  ensure (helper.descriptor.foundOut = false) (invalidIr
    s!"MemoizedHostCall {helper.debug}: helper has a private found output")
  ensure (helper.heapEffect.writesExistingHeap = false) (invalidIr
    s!"MemoizedHostCall {helper.debug}: heap-writing helpers cannot be memoized")
  checkHostArgs program "MemoizedHostCall" helper args
  match helper.descriptor.result with
  | .exact result =>
    ensure (result.isNonscalar = false) (invalidIr
      s!"MemoizedHostCall {helper.debug}: result must be a scalar")
    requireClass program dst result s!"MemoizedHostCall {helper.debug} result"
  | .intOrFloatBits => checkBitsResult program "MemoizedHostCall" helper dst

/-! ## Instructions -/

/-- A fused lookup whose value has the class `value`. -/
def checkMapMatch (op : String) (value : JitValueType) (map key valueDst someIp noneIp : Nat) :
    Check Unit := do
  requireClass program map .handle s!"{op} map"
  requireClass program key .int s!"{op} key"
  requireClass program valueDst value s!"{op} value"
  checkTarget program someIp
  checkTarget program noneIp

def checkMove (dst src : Nat) : Check Unit := do
  checkReg program dst
  checkReg program src
  ensure ((program.regType src).isFlatType = false ∧ (program.regType dst).isFlatType = false)
    (invalidIr "Move: flat-array registers cannot be moved")
  ensure (program.regType dst = program.regType src) (invalidIr
    s!"Move: classes differ ({(program.regType dst).debug} vs {(program.regType src).debug})")

def checkCallNative (dst : Nat) (args : List Nat) : Check Unit := do
  checkReg program dst
  ensure ((program.regType dst).isFlatType = false) (invalidIr
    s!"CallNative result register {dst} is a flat-array register")
  args.forM (checkReg program)

def checkReturn (osr : Bool) (src : Nat) : Check Unit := do
  ensure (osr = false) (invalidIr "Return: OSR functions must exit through OsrExit")
  checkReg program src
  ensure ((program.regType src).isFlatType = false) (invalidIr
    "Return: cannot return a flat-array register")

def checkInstr (osr : Bool) (ip : Nat) : JitInstr → Check Unit
  | .nop | .tailCallGuard _ | .bail => return ()
  | .loadInt dst _ => requireClass program dst .int "LoadInt"
  | .loadFloat dst _ => requireClass program dst .float "LoadFloat"
  | .loadBool dst _ => requireClass program dst .bool "LoadBool"
  | .move dst src => checkMove program dst src
  | .add dst lhs rhs => arith program dst lhs rhs "Add"
  | .sub dst lhs rhs => arith program dst lhs rhs "Sub"
  | .mul dst lhs rhs => arith program dst lhs rhs "Mul"
  | .div dst lhs rhs => arith program dst lhs rhs "Div"
  | .mod dst lhs rhs => intOp program dst lhs rhs "Mod"
  | .intToFloat dst src => do
    requireClass program src .int "IntToFloat src"
    requireClass program dst .float "IntToFloat result"
  | .floatToInt dst src _ => do
    requireClass program src .float "FloatToInt src"
    requireClass program dst .int "FloatToInt result"
  | .hostCall helper dst args => checkHostCall program helper dst args
  | .memoizedHostCall helper dst args _ => checkMemoizedHostCall program helper dst args
  | .callNative _ dst args => checkCallNative program dst args
  | .matchMapGetInt map key valueDst someIp noneIp =>
    checkMapMatch program "MatchMapGetInt" .int map key valueDst someIp noneIp
  | .matchMapGetFloat map key valueDst someIp noneIp =>
    checkMapMatch program "MatchMapGetFloat" .float map key valueDst someIp noneIp
  | .matchSortedMapGetInt map key valueDst someIp noneIp =>
    checkMapMatch program "MatchSortedMapGetInt" .int map key valueDst someIp noneIp
  | .matchSortedMapGetFloat map key valueDst someIp noneIp =>
    checkMapMatch program "MatchSortedMapGetFloat" .float map key valueDst someIp noneIp
  | .bitAnd dst lhs rhs => intOp program dst lhs rhs "BitAnd"
  | .bitOr dst lhs rhs => intOp program dst lhs rhs "BitOr"
  | .bitXor dst lhs rhs => intOp program dst lhs rhs "BitXor"
  | .shl dst lhs rhs => intOp program dst lhs rhs "Shl"
  | .shr dst lhs rhs => intOp program dst lhs rhs "Shr"
  | .compare dst _ lhs rhs => compareOp program dst lhs rhs "Compare"
  | .equal dst lhs rhs => do
    scalarPair program lhs rhs "Equal"
    requireClass program dst .bool "Equal result"
  | .notEqual dst lhs rhs => do
    scalarPair program lhs rhs "NotEqual"
    requireClass program dst .bool "NotEqual result"
  | .jump target => checkTarget program target
  | .jumpIfBool cond _ target => do
    requireClass program cond .bool "JumpIfBool"
    checkTarget program target
    checkFallthrough program ip
  | .jumpIfIntCompare lhs rhs _ _ target => do
    numericPair program lhs rhs "JumpIfIntCompare"
    checkTarget program target
    checkFallthrough program ip
  | .return src => checkReturn program osr src
  | .listGetIntDirect dst base index => do
    requireFlatParam program osr base .flatInt "ListGetIntDirect base"
    requireClass program index .int "ListGetIntDirect index"
    requireClass program dst .int "ListGetIntDirect result"
  | .listSetIntDirect dst base index value => do
    requireFlatParam program osr base .flatIntMut "ListSetIntDirect base"
    requireClass program index .int "ListSetIntDirect index"
    requireClass program value .int "ListSetIntDirect value"
    requireClass program dst .int "ListSetIntDirect result"
  | .listGetFloatDirect dst base index => do
    requireFlatParam program osr base .flatFloat "ListGetFloatDirect base"
    requireClass program index .int "ListGetFloatDirect index"
    requireClass program dst .float "ListGetFloatDirect result"
  | .listSetFloatDirect dst base index value => do
    requireFlatParam program osr base .flatFloatMut "ListSetFloatDirect base"
    requireClass program index .int "ListSetFloatDirect index"
    requireClass program value .float "ListSetFloatDirect value"
    requireClass program dst .int "ListSetFloatDirect result"
  | .listLenDirect dst base => do
    requireAnyFlatParam program osr base "ListLenDirect base"
    requireClass program dst .int "ListLenDirect result"
  | .listIsEmptyDirect dst base => do
    requireAnyFlatParam program osr base "ListIsEmptyDirect base"
    requireClass program dst .bool "ListIsEmptyDirect result"
  | .osrExit => ensure (osr = true)
      (invalidIr "OsrExit: normal functions must exit through Return")
  | .regionExit _ _ => ensure (osr = true)
      (invalidIr "RegionExit: normal functions must exit through Return")

/-! ## Memo scopes -/

/-- The memo slot of a memoized call. -/
def memoSlot? : JitInstr → Option Nat
  | .memoizedHostCall _ _ _ memoSlot => some memoSlot
  | _ => none

def memoCount : Nat := (program.code.filter fun instr => (memoSlot? instr).isSome).length

/-- Give each memo slot its one call site. -/
def claimMemoSlot (owners : List (Option Nat)) (site : JitInstr × Nat) : Check (List (Option Nat)) :=
  match memoSlot? site.1 with
  | none => return owners
  | some slot =>
    match owners[slot]? with
    | none => throw (invalidIr
        s!"MemoizedHostCall at instruction {site.2}: memo_slot {slot} is out of range for {owners.length} memoization sites")
    | some (some owner) => throw (invalidIr
        s!"MemoizedHostCall memo_slot {slot} is shared by instructions {owner} and {site.2}")
    | some none => return owners.set slot (some site.2)

/-- Each memo slot belongs to one instruction. -/
def memoSlotOwners (limits : JitLimits) : Check (List (Option Nat)) := do
  let count := memoCount program
  ensure (count ≤ limits.maxMemoSlots) (invalidIr
    s!"JIT IR has {count} memo slots, exceeding the limit {limits.maxMemoSlots}")
  program.code.zipIdx.foldlM claimMemoSlot (List.replicate count none)

/-- One edge of the control-flow graph against a scope. -/
def checkScopeEdge (index : Nat) (scope : MemoScope) (source target : Nat) : Check Unit := do
  let sourceInside := decide (scope.header ≤ source ∧ source < scope.exit)
  let targetInside := decide (scope.header ≤ target ∧ target < scope.exit)
  ensure (sourceInside = true ∨ targetInside = false ∨ target = scope.header) (invalidIr
    s!"memo scope {index}: external edge {source} -> {target} enters scope interior")
  ensure (sourceInside = false ∨ targetInside = true ∨ target = scope.exit) (invalidIr
    s!"memo scope {index}: edge {source} -> {target} leaves scope anywhere other than exit {scope.exit}")
  let unconditional := match program.code[source]? with
    | some (.jump destination) => decide (destination = scope.header)
    | _ => false
  ensure (sourceInside = false ∨ target ≠ scope.header ∨ unconditional = true) (invalidIr
    s!"memo scope {index}: backedge {source} -> {scope.header} must be an unconditional Jump")

/-- Some instruction of the scope leads back to its header. -/
def hasBackedge (scope : MemoScope) : Bool :=
  (List.range program.code.length).any fun source =>
    scope.header ≤ source && source < scope.exit && (program.successors source).contains scope.header

/-- One memo slot of a scope; `slotScopes` holds the scope of each slot so far. -/
def claimScopeSlot (owners : List (Option Nat)) (index : Nat) (scope : MemoScope)
    (slotScopes : List (Option Nat)) (slot : Nat) : Check (List (Option Nat)) :=
  match owners[slot]?.join with
  | none => throw (invalidIr s!"memo scope {index}: memo_slot {slot} has no memoized call site")
  | some owner =>
    match slotScopes[slot]? with
    | none => throw (invalidIr s!"memo scope {index}: memo_slot {slot} is out of range")
    | some (some previous) => throw (invalidIr
        s!"memo_slot {slot} belongs to both memo scopes {previous} and {index}")
    | some none => do
      ensure (scope.header ≤ owner ∧ owner < scope.exit) (invalidIr
        s!"memo scope {index}: memo_slot {slot} site {owner} is outside [{scope.header}, {scope.exit})")
      return slotScopes.set slot (some index)

/-- A memo scope is a loop, entered at its header and left to its exit only. -/
def checkMemoScope (owners slotScopes : List (Option Nat)) (entry : MemoScope × Nat) :
    Check (List (Option Nat)) := do
  let (scope, index) := entry
  ensure (scope.header < scope.exit ∧ scope.exit < program.code.length) (invalidIr
    s!"memo scope {index}: expected 0 <= header < exit < code length, got [{scope.header}, {scope.exit}) for {program.code.length} instructions")
  ensure (scope.memoSlots.isEmpty = false) (invalidIr
    s!"memo scope {index}: memo_slots cannot be empty")
  (List.range program.code.length).forM fun source =>
    (program.successors source).forM (checkScopeEdge program index scope source)
  ensure (hasBackedge program scope = true) (invalidIr
    s!"memo scope {index}: no backedge targets header {scope.header}")
  scope.memoSlots.foldlM (claimScopeSlot owners index scope) slotScopes

/-- Outer scopes come before inner ones; a tie is refused below in either order. -/
def scopeOrder (a b : MemoScope × Nat) : Prop :=
  a.1.header < b.1.header ∨ a.1.header = b.1.header ∧ b.1.exit ≤ a.1.exit

instance (a b : MemoScope × Nat) : Decidable (scopeOrder a b) :=
  inferInstanceAs (Decidable (_ ∨ _))

/-- The next scope against the stack of those that are open at its header. -/
def checkNesting (stack : List (MemoScope × Nat)) (entry : MemoScope × Nat) :
    Check (List (MemoScope × Nat)) :=
  let stack := stack.dropWhile fun parent => parent.1.exit ≤ entry.1.header
  match stack with
  | [] => return [entry]
  | parent :: _ => do
    ensure (parent.1.header < entry.1.header ∧ entry.1.exit ≤ parent.1.exit) (invalidIr
      s!"memo scopes {parent.2} [{parent.1.header}, {parent.1.exit}) and {entry.2} [{entry.1.header}, {entry.1.exit}) overlap without strict nesting")
    return entry :: stack

def validateMemoScopes (owners : List (Option Nat)) : Check Unit := do
  let slotScopes ← program.memoScopes.zipIdx.foldlM (checkMemoScope program owners)
    (List.replicate owners.length none)
  slotScopes.zipIdx.forM fun (scope, slot) =>
    ensure (scope.isSome = true) (invalidIr
      s!"MemoizedHostCall memo_slot {slot} does not belong to a memo scope")
  let _ ← (program.memoScopes.zipIdx.insertionSort scopeOrder).foldlM checkNesting []

/-! ## Results, assignment and resume liveness -/

/-- The returns with their result classes. -/
def returns : List (Nat × JitValueType) :=
  program.code.zipIdx.filterMap fun
    | (.return src, ip) => some (ip, program.regType src)
    | _ => none

/-- One return against the class of the reachable ones before it. -/
def joinReturnType (reachable : Finset Nat) (found : Option JitValueType)
    (entry : Nat × JitValueType) : Check (Option JitValueType) :=
  if entry.1 ∈ reachable then
    match found with
    | none => return some entry.2
    | some expected => do
      ensure (expected = entry.2) (invalidIr
        s!"Return: inconsistent result types ({expected.debug} vs {entry.2.debug})")
      return found
  else return found

/-- Reachable returns have one type. -/
def reachableReturnType : Check (Option JitValueType) :=
  (returns program).foldlM (joinReturnType program.reachableJitInstrs) none

/-- A read of a reachable instruction; indexing the facts with a register out of range panics. -/
def checkUse (assignedIn : List (Finset Nat)) (ip used : Nat) : Check Unit :=
  if used < program.nRegs then
    ensure (used ∈ assignedIn.getD ip ∅) (invalidIr
      s!"instruction {ip} reads register {used} before it is definitely assigned")
  else throw .panic

/-- Reachable instructions read assigned registers only. -/
def checkAssigned (assignedIn : List (Finset Nat)) : Check Unit :=
  program.code.zipIdx.forM fun (instr, ip) =>
    if ip ∈ program.reachableJitInstrs then
      instr.usedRegisters.forM (checkUse program assignedIn ip)
    else return ()

/-- One register of a resume list; `previous` is the one before it. -/
def checkResumeReg (ip : Nat) (previous : Option Nat) (reg : Nat) : Check (Option Nat) := do
  ensure (reg < program.nRegs) (invalidIr
    s!"resume liveness at instruction {ip} names out-of-range register {reg}")
  ensure (∀ before ∈ previous, before < reg) (invalidIr
    s!"resume liveness at instruction {ip} must be sorted and unique")
  return some reg

/-- A sorted list of registers for each instruction, or no lists at all. -/
def checkResumeLive : Check Unit := do
  ensure (program.resumeLiveRegs.isEmpty = true ∨
      program.resumeLiveRegs.length = program.code.length) (invalidIr
    s!"resume liveness has {program.resumeLiveRegs.length} entries for {program.code.length} instructions")
  program.resumeLiveRegs.zipIdx.forM fun (regs, ip) => do
    let _ ← regs.foldlM (checkResumeReg program ip) none

/-! ## Validation -/

/-- What validation hands to code generation. -/
structure ValidationFacts where
  assignedIn : List (Finset Nat)
  deoptIn : List (Finset Nat)
  returnType : Option JitValueType

/-- The registers a deopt captures: all assigned ones, or those that are live here
or for the interpreter that resumes. -/
def deoptSets (assignedIn : List (Finset Nat)) : List (Finset Nat) :=
  if program.resumeLiveRegs.isEmpty then assignedIn
  else ((assignedIn.zip program.registerLiveness).zip program.resumeLiveRegs).map
    fun ((assigned, localLive), sourceLive) =>
      assigned.filter fun reg => reg ∈ localLive ∨ reg ∈ sourceLive

def validateWithLimits (osr : Bool) (limits : JitLimits) : Check ValidationFacts := do
  checkOrigins program
  checkDimensions program limits
  checkWork program limits
  program.zeroInitRegs.forM (checkZeroInitReg program)
  program.coldBlocks.forM (checkColdBlock program)
  let owners ← memoSlotOwners program limits
  program.code.zipIdx.forM fun (instr, ip) => checkInstr program osr ip instr
  validateMemoScopes program owners
  let returnType ← reachableReturnType program
  let assignedIn := program.definiteAssignment osr
  checkAssigned program assignedIn
  checkResumeLive program
  return { assignedIn, deoptIn := deoptSets program assignedIn, returnType }

end

/-! ## What acceptance means -/

/-- The checks an accepted function passed, as later modules use them. -/
structure Accepted (program : JitFunction) (osr : Bool) (facts : ValidationFacts) : Prop where
  origins : checkOrigins program = .ok ()
  types : program.regTypes.length = program.nRegs
  params : program.nParams ≤ program.nRegs
  zeroInit : ∀ reg ∈ program.zeroInitRegs, reg < program.nRegs
  instrs : ∀ {ip instr}, program.code[ip]? = some instr → checkInstr program osr ip instr = .ok ()
  uses : ∀ {ip instr}, ip ∈ program.reachableJitInstrs → program.code[ip]? = some instr →
    ∀ reg ∈ instr.usedRegisters, reg < program.nRegs ∧
      reg ∈ (program.definiteAssignment osr).getD ip ∅
  resume : program.resumeLiveRegs.isEmpty = true ∨
    program.resumeLiveRegs.length = program.code.length
  assignedIn : facts.assignedIn = program.definiteAssignment osr
  deoptIn : facts.deoptIn = deoptSets program (program.definiteAssignment osr)

theorem accepted_of_validate (h : validateWithLimits program osr limits = .ok facts) :
    Accepted program osr facts := by
  simp only [validateWithLimits, bind_eq_ok, pure_eq_ok, forM_eq_ok] at h
  obtain ⟨_, horigins, _, hdims, _, hwork, _, hzero, _, hcold, owners, howners, _, hinstrs, _, hmemo,
    returnType, hreturn, _, hassigned, _, hresume, rfl⟩ := h
  simp only [checkDimensions, bind_eq_ok, ensure_eq_ok] at hdims
  obtain ⟨_, htypes, _, hparams, _⟩ := hdims
  have hat : ∀ {ip instr}, program.code[ip]? = some instr →
      (instr, ip) ∈ program.code.zipIdx := List.mk_mem_zipIdx_iff_getElem?.mpr
  refine ⟨horigins, htypes, hparams, fun reg hreg => ?_, fun hget => hinstrs _ (hat hget),
    fun {ip instr} hip hget reg hreg => ?_, ?_, rfl, rfl⟩
  · have hcheck := hzero reg hreg
    simp only [checkZeroInitReg, bind_eq_ok, ensure_eq_ok] at hcheck
    obtain ⟨_, hlt, _⟩ := hcheck
    exact hlt
  · have hchecked := forM_eq_ok.mp hassigned _ (hat hget)
    simp only [if_pos hip] at hchecked
    have huse := forM_eq_ok.mp hchecked reg hreg
    unfold checkUse at huse
    split at huse <;> simp_all
  · simp only [checkResumeLive, bind_eq_ok, ensure_eq_ok] at hresume
    obtain ⟨_, hlength, _⟩ := hresume
    exact hlength

/-- A captured register is assigned. -/
theorem mem_assigned_of_deopt (h : reg ∈ (deoptSets program assignedIn).getD ip ∅) :
    reg ∈ assignedIn.getD ip ∅ := by
  unfold deoptSets at h
  split at h
  · exact h
  · rw [List.getD_eq_getElem?_getD, List.getElem?_map] at h
    cases hget : ((assignedIn.zip program.registerLiveness).zip program.resumeLiveRegs)[ip]? with
    | none => simp [hget] at h
    | some entry =>
      obtain ⟨⟨assigned, live⟩, source⟩ := entry
      obtain ⟨hpair, _⟩ := List.getElem?_zip_eq_some.mp hget
      obtain ⟨hassigned, _⟩ := List.getElem?_zip_eq_some.mp hpair
      simp only [hget, Option.map_some, Option.getD_some, Finset.mem_filter] at h
      simpa [List.getD_eq_getElem?_getD, hassigned] using h.1

/-- An assigned register that is live is captured. -/
theorem mem_deopt_of_live (haccepted : Accepted program osr facts) (hip : ip < program.code.length)
    (hassigned : reg ∈ (program.definiteAssignment osr).getD ip ∅)
    (hlive : reg ∈ program.registerLiveness.getD ip ∅) :
    reg ∈ (deoptSets program (program.definiteAssignment osr)).getD ip ∅ := by
  unfold deoptSets
  split
  · exact hassigned
  · rename_i hnonempty
    have hlength := haccepted.resume.resolve_left hnonempty
    have hrow : (program.definiteAssignment osr)[ip]? =
        some ((program.definiteAssignment osr).getD ip ∅) := by
      simp [JitFunction.definiteAssignment, hip]
    have hliverow : program.registerLiveness[ip]? = some (program.registerLiveness.getD ip ∅) := by
      simp [JitFunction.registerLiveness, hip]
    obtain ⟨source, hsource⟩ : ∃ source, program.resumeLiveRegs[ip]? = some source :=
      ⟨_, List.getElem?_eq_getElem (hlength ▸ hip)⟩
    have hget : ((((program.definiteAssignment osr).zip program.registerLiveness).zip
        program.resumeLiveRegs)[ip]?) = some (((program.definiteAssignment osr).getD ip ∅,
          program.registerLiveness.getD ip ∅), source) :=
      List.getElem?_zip_eq_some.mpr ⟨List.getElem?_zip_eq_some.mpr ⟨hrow, hliverow⟩, hsource⟩
    rw [List.getD_eq_getElem?_getD, List.getElem?_map, hget]
    exact Finset.mem_filter.mpr ⟨hassigned, .inl hlive⟩

/-- In an accepted function no path reads a register it did not assign, and what a
deopt captures lies between the registers that every path assigns and those of
them that some path still reads. -/
theorem accepted_reads_assigned (program : JitFunction) (osr : Bool) (limits : JitLimits)
    (facts : ValidationFacts) (h : validateWithLimits program osr limits = .ok facts) :
    (∀ written ip instr, program.Path written ip → program.code[ip]? = some instr →
      ∀ reg ∈ instr.usedRegisters, program.Assigned osr written reg) ∧
    ∀ ip < program.code.length, ∀ reg,
      (reg ∈ facts.deoptIn.getD ip ∅ →
        ∀ written, program.Path written ip → program.Assigned osr written reg) ∧
      (reg < program.nRegs →
        (∀ written, program.Path written ip → program.Assigned osr written reg) →
        program.ReadsBeforeWriting reg ip → reg ∈ facts.deoptIn.getD ip ∅) := by
  have haccepted := accepted_of_validate h
  have hsound : ∀ {ip reg}, ip < program.code.length →
      reg ∈ (program.definiteAssignment osr).getD ip ∅ →
      ∀ written, program.Path written ip → program.Assigned osr written reg := by
    intro ip reg hip hmem written hpath
    refine JitFunction.assigned_of_mem hpath ?_
    simpa [JitFunction.definiteAssignment, List.getD_eq_getElem?_getD,
      List.getElem?_range hip] using hmem
  refine ⟨fun written ip instr hpath hget reg hreg => ?_, fun ip hip reg => ⟨fun hmem => ?_, ?_⟩⟩
  · have hip := (List.getElem?_eq_some_iff.mp hget).1
    have hreachable := JitFunction.reachable_of_path (Nat.zero_lt_of_lt hip) hpath
    exact hsound hip (haccepted.uses hreachable hget reg hreg).2 written hpath
  · rw [haccepted.deoptIn] at hmem
    exact hsound hip (mem_assigned_of_deopt hmem)
  · intro hreg hassigned hreads
    rw [haccepted.deoptIn]
    exact mem_deopt_of_live haccepted hip ((JitFunction.mem_definiteAssignment hip hreg).mpr hassigned)
      (JitFunction.mem_registerLiveness hreg hreads)

/-- A lookup whose value is read on the `Some` edge and loaded on the other. -/
def lookupOrZero : JitFunction where
  nParams := 2
  nRegs := 3
  regTypes := [.handle, .int, .int]
  zeroInitRegs := []
  code := [.matchMapGetInt 0 1 2 1 2, .return 2, .loadInt 2 0, .return 2]
  instructionOrigins := []
  sourceInstructionCount := 0
  memoScopes := []
  coldBlocks := []
  resumeLiveRegs := [[], [], [], []]

theorem lookupOrZero_reads_assigned :
    ∃ facts, validateWithLimits lookupOrZero false .default = .ok facts ∧
      facts.deoptIn.getD 1 ∅ = {2} ∧
      lookupOrZero.Path [2] 1 ∧ lookupOrZero.Assigned false [2] 2 := by
  have hpath : lookupOrZero.Path [2] 1 := by
    have hedge : (1, some 2) ∈ lookupOrZero.edges 0 := by decide
    have hentry : lookupOrZero.Path [] 0 := FlowGraph.Run.entry
    exact hentry.step hedge
  obtain ⟨facts, hvalid, hdeopt⟩ : ∃ facts,
      validateWithLimits lookupOrZero false .default = .ok facts ∧
        facts.deoptIn.getD 1 ∅ = {2} := ⟨_, rfl, by decide +kernel⟩
  obtain ⟨hreads, _⟩ := accepted_reads_assigned lookupOrZero false .default facts hvalid
  exact ⟨facts, hvalid, hdeopt, hpath, hreads [2] 1 (.return 2) hpath rfl 2 (by simp [JitInstr.usedRegisters])⟩

end Jit
