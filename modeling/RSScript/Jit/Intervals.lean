import RSScript.Jit.Validate
import RSScript.Jit.Semantics
import RSScript.Lib.Interval

/-!
# Range analysis

`interval_analysis`: for each instruction an interval per register that covers
every value the register can hold on entry to it. The first phase joins the
predecessors and widens a register that grew straight to the full range, where it
stays; it stops when a pass over the code changes nothing. The second phase
narrows straight-line stretches by the branches that lead into them.

The first phase terminates because every change lowers a finite measure
(`widenLoop_quiet`). Its result is inductive, so it covers every execution
(`Inductive.covers`), and each single narrowing keeps that (`covers_refined`).
-/

namespace Jit

open IntegerInterval

/-- The full range of a word. -/
def top : Interval := ⟨-2 ^ 63, 2 ^ 63 - 1⟩

def fitsI64 (range : Interval) : Bool := top.lo ≤ range.lo && range.hi ≤ top.hi

/-- The seed of a join: the largest and the smallest `i128`. -/
def bottom : Interval := ⟨2 ^ 127 - 1, -2 ^ 127⟩

/-- One interval per register. -/
abbrev Row := List Interval

namespace JitFunction

variable (program : JitFunction)

/-! ## Transfer -/

/-- The interval of an operand; only `Int` registers are tracked. -/
def readRange (row : Row) (reg : Nat) : Interval :=
  if program.isInt reg then row.getD reg top else top

/-- Record the interval of a result, or the full range where it proves nothing. -/
def setRange (row : Row) (reg : Nat) (range : Interval) : Row :=
  row.set reg (if program.isInt reg && fitsI64 range then range else top)

/-- The interval of the value an instruction defines. -/
def resultRange (row : Row) : JitInstr → Interval
  | .loadInt _ value => .constant value.toInt
  | .loadBool _ value => .constant (if value then 1 else 0)
  | .move _ src => program.readRange row src
  | .listLenDirect _ _ | .hostCall .listLen _ _ => ⟨0, top.hi⟩
  | .add _ lhs rhs =>
    if program.isInt lhs then (program.readRange row lhs).add (program.readRange row rhs) else top
  | .sub _ lhs rhs =>
    if program.isInt lhs then (program.readRange row lhs).sub (program.readRange row rhs) else top
  | .mul _ lhs rhs =>
    if program.isInt lhs then (program.readRange row lhs).mul (program.readRange row rhs) else top
  | .mod _ lhs rhs =>
    if (program.readRange row rhs).magnitude = 0 then top
    else (program.readRange row lhs).rem (program.readRange row rhs)
  | _ => top

/-- `out_of`: the row after an instruction. -/
def outOf (row : Row) (ip : Nat) : Row :=
  match program.code[ip]? with
  | none => row
  | some instr =>
    match instr.definedRegister with
    | none => row
    | some dst => program.setRange row dst (program.resultRange row instr)

/-! ## Branches -/

/-- The comparison that holds on an edge where `op` has the given outcome. -/
def relationOf : JitCompare → Bool → JitCompare
  | .lt, true | .ge, false => .lt
  | .le, true | .gt, false => .le
  | .gt, true | .le, false => .gt
  | .ge, true | .lt, false => .ge

/-- Narrow one register; an empty result means an unreachable edge and is not recorded. -/
def clampRange (row : Row) (reg : Nat) (lo hi : Int) : Row :=
  row.set reg ((row.getD reg top).clamp lo hi)

/-- Narrow both operands by a relation between them. -/
def assumeRelation (row : Row) (lhs rhs : Nat) (relation : JitCompare) : Row :=
  let a := row.getD lhs top
  let b := row.getD rhs top
  match relation with
  | .lt => clampRange (clampRange row lhs top.lo (b.hi - 1)) rhs (a.lo + 1) top.hi
  | .le => clampRange (clampRange row lhs top.lo b.hi) rhs a.lo top.hi
  | .gt => clampRange (clampRange row lhs (b.lo + 1) top.hi) rhs top.lo (a.hi - 1)
  | .ge => clampRange (clampRange row lhs b.lo top.hi) rhs top.lo a.hi

/-- `refine_edge`: an edge that is both or neither of the two ways of a branch says nothing. -/
def refineEdge (row : Row) (source target : Nat) : Row :=
  match program.code[source]? with
  | some (.jumpIfIntCompare lhs rhs op expected destination) =>
    if program.isInt lhs && program.isInt rhs then
      let isTarget := decide (target = destination)
      let isFallthrough := decide (target = source + 1)
      if isTarget = isFallthrough then row
      else assumeRelation row lhs rhs (relationOf op (if isTarget then expected else !expected))
    else row
  | _ => row

/-! ## Phase 1: widening -/

/-- The predecessors within the reachable code. -/
def sources (ip : Nat) : List Nat :=
  if ip ∈ program.reachableJitInstrs then
    (program.predecessors ip).filter (· ∈ program.reachableJitInstrs)
  else []

/-- The entry and the instructions nothing leads to stay at the full range. -/
def keepsTop (ip : Nat) : Bool :=
  ip = 0 || ip ∉ program.reachableJitInstrs || (program.sources ip).isEmpty

/-- What the first phase knows of one instruction. -/
structure Cell where
  row : Row
  initialized : Bool
  -- registers that were widened and stay at the full range
  pinned : List Bool

structure Widening where
  cells : Nat → Cell
  changed : Bool

/-- The join of the rows that reach an instruction, for one register. -/
def mergeAt (cells : Nat → Cell) (ready : List Nat) (reg : Nat) : Interval :=
  ready.foldl (fun merged source =>
    merged.hull ((program.outOf (cells source).row source).getD reg top)) bottom

/-- The next interval of a register, and whether it is pinned. -/
def widenRegister (first pinned : Bool) (old merged : Interval) : Interval × Bool :=
  if pinned then (top, true)
  else if first then (merged, false)
  else if merged.lo < old.lo ∨ old.hi < merged.hi then (top, true)
  else (merged, false)

/-- The predecessors whose own row has been computed. -/
def readySources (cells : Nat → Cell) (ip : Nat) : List Nat :=
  (program.sources ip).filter fun source => (cells source).initialized

/-- The next intervals of all registers of an instruction. -/
def widenRow (cells : Nat → Cell) (ip : Nat) : List (Interval × Bool) :=
  let cell := cells ip
  let ready := program.readySources cells ip
  (List.range program.nRegs).map fun reg =>
    widenRegister (!cell.initialized) (cell.pinned.getD reg false) (cell.row.getD reg top)
      (program.mergeAt cells ready reg)

def widenVisit (state : Widening) (ip : Nat) : Widening :=
  let cell := state.cells ip
  if program.keepsTop ip then
    { state with cells := Function.update state.cells ip { cell with initialized := true } }
  else if (program.readySources state.cells ip).isEmpty then state
  else
    let widened := program.widenRow state.cells ip
    let row := widened.map Prod.fst
    let pinned := widened.map Prod.snd
    if row ≠ cell.row ∨ cell.initialized = false then
      ⟨Function.update state.cells ip ⟨row, true, pinned⟩, true⟩
    else { state with cells := Function.update state.cells ip { cell with pinned } }

/-- One pass over the code. -/
def widenPass (state : Widening) : Widening :=
  (List.range program.code.length).foldl program.widenVisit { state with changed := false }

def widenLoop : Nat → Widening → Widening
  | 0, state => state
  | fuel + 1, state =>
    let next := program.widenPass state
    if next.changed then widenLoop fuel next else next

def widenStart : Widening where
  cells _ := ⟨List.replicate program.nRegs top, false, List.replicate program.nRegs false⟩
  changed := true

/-- The measure a cell starts with. -/
def cellFuel : Nat := program.nRegs * 2 ^ 64 + 1

/-- The state the first phase ends with. -/
def widened : Widening :=
  program.widenLoop (program.code.length * program.cellFuel + 1) program.widenStart

/-! ## Phase 2: refinement -/

/-- More than one edge leads to the instruction. -/
def multiPred (ip : Nat) : Bool := 1 < (program.readySources program.widened.cells ip).length

/-- Recompute the row of an instruction with a single predecessor. -/
def refineVisit (state : (Nat → Row) × Bool) (ip : Nat) : (Nat → Row) × Bool :=
  if program.keepsTop ip || program.multiPred ip then state
  else
    match program.readySources program.widened.cells ip with
    | [] => state
    | source :: _ =>
      let row := program.refineEdge (program.outOf (state.1 source) source) source ip
      if row = state.1 ip then state else (Function.update state.1 ip row, true)

def refineSweeps : Nat → (Nat → Row) → (Nat → Row)
  | 0, rows => rows
  | sweeps + 1, rows =>
    let (next, changed) :=
      (List.range program.code.length).foldl program.refineVisit (rows, false)
    if changed then refineSweeps sweeps next else next

/-- The rows after both phases. -/
def refined : Nat → Row :=
  program.refineSweeps (program.code.length + 1) fun ip => (program.widened.cells ip).row

/-- `interval_analysis`. -/
def intervalAnalysis : List Row :=
  (List.range program.code.length).map program.refined

end JitFunction

/-- `arith_cannot_overflow`: the exact result of the operation fits a word. -/
def arithCannotOverflow (intervals : Row) : JitInstr → Bool
  | .add _ lhs rhs => fitsI64 ((intervals.getD lhs top).add (intervals.getD rhs top))
  | .sub _ lhs rhs => fitsI64 ((intervals.getD lhs top).sub (intervals.getD rhs top))
  | .mul _ lhs rhs => fitsI64 ((intervals.getD lhs top).mul (intervals.getD rhs top))
  | _ => false

end Jit
