import RSScript.Jit.IntervalSoundness
import RSScript.Lib.Budget
import RSScript.Lib.SortedMap

/-!
# Bounds-check elimination

`list_bounds_plan` selects the direct list accesses that are compiled without a
bounds check. An access is selected for one of two reasons. Its index is the
remainder of a non-negative number by a constant, which the entry of the function
then compares with the length of the list, or by that length itself. Or it stands
between the guard and the update of a counted loop over the list
(`add_canonical_induction_bounds`).
-/

namespace Jit

open Budget

/-- What the only definition of a register makes of it. -/
inductive UniqueValueOrigin where
  | unknown
  | constant (value : Int64)
  | listLen (base : Nat)
  | mod (ip numerator divisor : Nat)
  deriving DecidableEq, Repr

structure ListBoundsPlan where
  uncheckedIps : Finset Nat
  -- the minimum entry length of each base, in key order
  entryMinLen : List (Nat × Int)

namespace JitFunction

variable (program : JitFunction)

/-- The register the instruction at a position defines. -/
def defAt (ip : Nat) : Option Nat := program.code[ip]?.bind JitInstr.definedRegister

/-! ## Remainders -/

/-- The reachable definitions of a register. -/
def definitions (reg : Nat) : List Nat :=
  (List.range program.code.length).filter fun ip =>
    ip ∈ program.reachableJitInstrs ∧ program.defAt ip = some reg

/-- More than one definition; the values on entry are definitions too. -/
def ambiguous (osrEntry : Bool) (reg : Nat) : Bool :=
  osrEntry || reg < program.nParams || reg ∈ program.zeroInitRegs ||
    1 < (program.definitions reg).length

/-- `unique_value_origin`; a chain of moves visits each register once, so that one
more step than there are registers is enough (`uniqueValueOrigin_fuel`). -/
def uniqueValueOrigin (osrEntry : Bool) : Nat → List Nat → Nat → UniqueValueOrigin
  | 0, _, _ => .unknown
  | fuel + 1, visiting, reg =>
    if program.nRegs ≤ reg ∨ program.ambiguous osrEntry reg ∨ reg ∈ visiting then .unknown
    else
      match (program.definitions reg).getLast? with
      | none => .unknown
      | some ip =>
        match program.code[ip]? with
        | some (.loadInt _ value) => .constant value
        | some (.listLenDirect _ base) => .listLen base
        | some (.move _ src) => uniqueValueOrigin osrEntry fuel (reg :: visiting) src
        | some (.mod _ numerator divisor) => .mod ip numerator divisor
        | _ => .unknown

def origin (osrEntry : Bool) (reg : Nat) : UniqueValueOrigin :=
  program.uniqueValueOrigin osrEntry (program.nRegs + 1) [] reg

/-- The strongest guard of a base. -/
def requireLength (base : Nat) (length : Int) (lengths : List (Nat × Int)) : List (Nat × Int) :=
  match SortedMap.get base lengths with
  | some minimum => SortedMap.insert base (max minimum length) lengths
  | none => SortedMap.insert base length lengths

/-- The interval of a register at an instruction starts at zero or above. -/
def nonnegativeAt (intervals : List Row) (ip reg : Nat) : Bool :=
  (intervals[ip]?.bind (·[reg]?)).any fun range => 0 ≤ range.lo

/-- Select the access at an instruction if its index is a remainder in range. -/
def planRemainder (intervals : List Row) (osrEntry : Bool) (plan : ListBoundsPlan) (ip : Nat) :
    ListBoundsPlan :=
  if ip ∈ program.reachableJitInstrs then
    match program.code[ip]?.bind JitInstr.directAccess with
    | none => plan
    | some (base, index) =>
      match program.origin osrEntry index with
      | .mod modIp numerator divisor =>
        if nonnegativeAt intervals modIp numerator then
          match program.origin osrEntry divisor with
          | .constant value =>
            if 0 < value.toInt then
              ⟨insert ip plan.uncheckedIps, requireLength base value.toInt plan.entryMinLen⟩
            else plan
          | .listLen lenBase =>
            if lenBase = base then { plan with
    uncheckedIps := insert ip plan.uncheckedIps }
            else plan
          | _ => plan
        else plan
      | _ => plan
  else plan

/-! ## Counted loops -/

/-- The instructions that end the search for the guard of a loop. -/
def endsSearch : JitInstr → Bool
  | .jump _ | .jumpIfBool _ _ _ | .jumpIfIntCompare _ _ _ _ _ | .return _ | .bail => true
  | _ => false

/-- The counter, the bound and the exit of a guard that leaves unless the counter is below. -/
def guardOf : JitInstr → Option (Nat × Nat × Nat)
  | .jumpIfIntCompare lhs rhs .lt false target => some (lhs, rhs, target)
  | .jumpIfIntCompare lhs rhs .gt false target => some (rhs, lhs, target)
  | _ => none

def loadedInt : JitInstr → Option Int64
  | .loadInt _ value => some value
  | _ => none

def lengthBase : JitInstr → Option Nat
  | .listLenDirect _ base => some base
  | _ => none

/-- What the last definition of a register in some code makes of it. -/
def lastDefinition {α : Type} (value : JitInstr → Option α) (reg : Nat) (code : List JitInstr) :
    Option α :=
  code.foldl (fun found instr =>
    if instr.definedRegister = some reg then value instr else found) none

/-- The last instruction that leads back to a header. -/
def bodyEnd (header : Nat) : Option Nat :=
  ((program.predecessors header).filter (header ≤ ·)).max?

/-- The first instruction from a position on that ends the search; it is cut off past the body. -/
def findCondition : Nat → Nat → Work Nat
  | 0, condition => pure condition
  | steps + 1, condition =>
    if (program.code[condition]?).any endsSearch then pure condition
    else do
      charge 1
      findCondition steps (condition + 1)

/-- The register that an update adds to the counter, if the code before the loop loads 1 into it. -/
def stepOf (header induction : Nat) : JitInstr → Option Nat
  | .add dst lhs rhs =>
    if dst = induction ∧ (lhs = induction ∨ rhs = induction) then
      let step := if lhs = induction then rhs else lhs
      if lastDefinition loadedInt step (program.code.take header) = some 1 then some step else none
    else none
  | _ => none

/-- The only position of a body that writes a register. -/
def onlyWrite (body : List Nat) (reg : Nat) : Option Nat :=
  match body.filter (program.defAt · = some reg) with
  | [ip] => some ip
  | _ => none

/-- A counted loop, with the positions and registers its accesses are judged by. -/
structure CountedLoop where
  header : Nat
  condition : Nat
  update : Nat
  exit : Nat
  induction : Nat
  bound : Nat
  base : Nat
  step : Nat

/-- Recognise the counted loop at a header whose last backward edge is given. -/
def countedLoop (header bodyEnd : Nat) : Work CountedLoop := do
  charge 1
  let condition ← program.findCondition (bodyEnd + 1 - header) header
  let (induction, bound, exit) ← some? (program.code[condition]?.bind guardOf)
  require (bodyEnd < exit ∧ exit < program.code.length)
  let body := List.range' header (exit - header)
  -- a single entry and a single normal exit
  (List.range' (header + 1) (exit - (header + 1))).forM fun ip => do
    charge (max (program.predecessors ip).length 1)
    require (∀ source ∈ program.predecessors ip, header ≤ source ∧ source < exit)
  body.forM fun ip => do
    charge (max (program.successors ip).length 1)
    require (∀ target ∈ program.successors ip, header ≤ target ∧ target < exit ∨ target = exit)
  -- straight-line code up to the header
  require (∀ instr ∈ program.code.take header, instr.controlFlow = .fallthrough)
  let before := program.code.take (condition + 1)
  before.forM fun _ => charge 1
  let initial ← some? (lastDefinition loadedInt induction before)
  let base ← some? (lastDefinition lengthBase bound before)
  require (0 ≤ initial.toInt)
  body.forM fun _ => charge 1
  -- one update by 1, and a bound, a list and a step that the loop does not change
  let update ← some? (program.onlyWrite body induction)
  let step ← some? (program.code[update]?.bind (program.stepOf header induction))
  require (∀ ip ∈ body, program.defAt ip ≠ some base ∧ program.defAt ip ≠ some bound)
  require (∀ ip ∈ body, program.defAt ip ≠ some step)
  return { header, condition, update, exit, induction, bound, base, step }

/-- The search over all headers. -/
structure Search where
  remaining : Nat
  uncheckedIps : Finset Nat
  stopped : Bool

/-- Select the instruction if it accesses the list of the loop by its counter. -/
def visitAccess (loop : CountedLoop) (search : Search) (ip : Nat) : Search :=
  if search.stopped || ip ∉ program.reachableJitInstrs then search
  else
    match charge 1 search.remaining with
    | (.error _, remaining) => { search with remaining, stopped := true }
    | (.ok _, remaining) =>
      if program.code[ip]?.bind JitInstr.directAccess = some (loop.base, loop.induction) then
        { search with remaining, uncheckedIps := insert ip search.uncheckedIps }
      else { search with remaining }

def visitHeader (search : Search) (header : Nat) : Search :=
  if search.stopped then search
  else
    match program.bodyEnd header with
    | none => search
    | some bodyEnd =>
      match program.countedLoop header bodyEnd search.remaining with
      | (.ok loop, remaining) =>
        (List.range' (loop.condition + 1) (loop.update - (loop.condition + 1))).foldl
          (program.visitAccess loop) { search with remaining }
      | (.error .skip, remaining) => { search with remaining }
      | (.error .stop, remaining) => { search with remaining, stopped := true }

/-- `add_canonical_induction_bounds`. -/
def addCanonicalInductionBounds (plan : ListBoundsPlan) : ListBoundsPlan :=
  let start : Search := ⟨min (program.code.length * 24) 2000000, plan.uncheckedIps, false⟩
  { plan with
    uncheckedIps :=
      ((List.range program.code.length).foldl program.visitHeader start).uncheckedIps }

/-- `list_bounds_plan`. -/
def listBoundsPlan (intervals : List Row) (osrEntry : Bool) : ListBoundsPlan :=
  program.addCanonicalInductionBounds
    ((List.range program.code.length).foldl (program.planRemainder intervals osrEntry) ⟨∅, []⟩)

end JitFunction

end Jit
