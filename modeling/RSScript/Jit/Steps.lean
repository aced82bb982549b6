import RSScript.Jit.Validate
import RSScript.Lib.Precharge

/-!
# Step accounting

Generated code counts the source instructions, and the intrinsic calls, that the
interpreter would have counted. It charges in advance: in the segment model up to
the next instruction that can bail, in the block model up to the end of the basic
block. When it bails, the interpreter goes on at the resume anchor of the bailing
instruction, with the count that was reported. The segment model reports what it
published last at an instruction that was not inlined; the block model corrects
its running count by a constant.

A path is a list of visits, the last one first, each with what the helper or the
native callee charged on its own. `reported_exact_iff` says for which paths the two
models report what the instructions before the anchor were charged.

Generated code keeps a counter of intrinsic calls only if some instruction of the region
costs one (`region_has_intrinsics`). That test is left out: here every region keeps the
counter, and without such an instruction only callees change it.
-/

namespace Jit

open Precharge

/-- The two counters of the limits cell. -/
inductive Meter where
  | steps
  | intrinsics
  deriving DecidableEq, Repr

/-- Where an instruction can bail: at a poll or a reservation before it, or in its body. -/
inductive BailPoint where
  | control
  | body
  deriving DecidableEq, Repr

/-- The targets a control transfer names. -/
def jumpTargets : JitControlFlow → List Nat
  | .jump target | .conditional target => [target]
  | .split first second => [first, second]
  | .terminal | .fallthrough => []

/-- The instructions after which generated code adopts a count from the limits cell. -/
def JitInstr.adoptsCount (meter : Meter) : JitInstr → Bool
  | .callNative _ _ _ => true
  | .hostCall helper _ _ => meter = .steps && helper.chargesDataDependentWork
  | _ => false

namespace JitFunction

variable (program : JitFunction)

def cost (meter : Meter) (ip : Nat) : Nat :=
  match meter with
  | .steps => (program.instructionOrigin ip).sourceCost
  | .intrinsics => (program.instructionOrigin ip).intrinsicCost

def inlined (ip : Nat) : Bool := (program.instructionOrigin ip).inlined

/-- The instruction cannot bail. -/
def batchSafe (ip : Nat) : Bool := (program.code[ip]?).any JitInstr.stepBatchSafe

/-- Block leaders: instruction 0, every jump target, and what follows a control transfer. -/
def isLeader (ip : Nat) : Bool :=
  ip = 0 || program.code.any (ip ∈ jumpTargets ·.controlFlow) ||
    0 < ip && (program.code[ip - 1]?).any (·.controlFlow ≠ .fallthrough)

/-! ## Segments -/

/-- The boundary of an inlined region, or between two of them. -/
def originChanges (ip : Nat) : Bool :=
  let previous := program.instructionOrigin (ip - 1)
  let current := program.instructionOrigin ip
  current.inlined != previous.inlined || current.inlined && current.sourceIp != previous.sourceIp

/-- A leader, an instruction after one that can bail, or a boundary of inlined code. -/
def opensSegment (ip : Nat) : Bool :=
  program.isLeader ip || 0 < ip && (!program.batchSafe (ip - 1) || program.originChanges ip)

/-- The scan that also cuts a segment whose source cost would pass the limit: whether
the instruction starts a segment, and the cost accumulated with it. -/
def segmentScan : Nat → Bool × Nat
  | 0 => (program.opensSegment 0, program.cost .steps 0)
  | ip + 1 =>
    let accumulated := if program.opensSegment (ip + 1) then 0 else (segmentScan ip).2
    let cost := program.cost .steps (ip + 1)
    let cut := accumulated ≠ 0 && accumulated + cost > 512
    (program.opensSegment (ip + 1) || cut, (if cut then 0 else accumulated) + cost)

def startsSegment (ip : Nat) : Bool := (program.segmentScan ip).1

/-- The end of the segment of an instruction. -/
def segmentEnd (ip : Nat) : Nat := stretchEnd program.startsSegment program.code.length ip

/-- `SegmentCosts::entry`: the cost of the whole segment at its start. -/
def segmentEntry (meter : Meter) (ip : Nat) : Nat :=
  charge program.startsSegment program.code.length (program.cost meter) ip

/-- The cost of the last instruction of a segment, if it can bail. -/
def tailGuard (meter : Meter) (ip : Nat) : Nat :=
  let last := program.segmentEnd ip - 1
  if program.batchSafe last then 0 else program.cost meter last

/-- `SegmentCosts::guard`. -/
def segmentGuard (meter : Meter) (ip : Nat) : Nat :=
  if program.startsSegment ip then program.tailGuard meter ip else 0

/-- The running count of a meter and the count a bail reports. -/
structure SegmentState where
  count : Nat
  resume : Nat
  deriving DecidableEq, Repr

/-- Both resume counts are published only if the step meter is armed. -/
def publishes (stepArmed : Bool) (ip : Nat) : Bool :=
  stepArmed && program.startsSegment ip && !program.inlined ip

/-- Publish the count before the reservation. -/
def segmentPoll (stepArmed : Bool) (state : SegmentState) (ip : Nat) : SegmentState :=
  if program.publishes stepArmed ip then { state with resume := state.count } else state

/-- Charge the segment and publish again without the cost of its guard. -/
def segmentCharge (stepArmed : Bool) (meter : Meter) (state : SegmentState) (ip : Nat) :
    SegmentState :=
  let polled := program.segmentPoll stepArmed state ip
  let cost := program.segmentEntry meter ip
  let count := polled.count + cost
  if program.publishes stepArmed ip && cost != 0 then
    ⟨count, count - program.segmentGuard meter ip⟩
  else { polled with count }

/-- The state on arrival at the instruction after some visits. -/
def segmentRun (stepArmed : Bool) (meter : Meter) (entry : Nat) : List Visit → SegmentState
  | [] => ⟨entry, entry⟩
  | visit :: visits =>
    let charged := program.segmentCharge stepArmed meter (segmentRun stepArmed meter entry visits)
      visit.ip
    { charged with count := charged.count + visit.extra }

/-- What the shared fallback writes back at a bail. -/
def segmentReported (stepArmed : Bool) (meter : Meter) (entry : Nat) (visits : List Visit)
    (ip : Nat) : BailPoint → Nat
  | .control =>
    (program.segmentPoll stepArmed (program.segmentRun stepArmed meter entry visits) ip).resume
  | .body =>
    (program.segmentCharge stepArmed meter (program.segmentRun stepArmed meter entry visits)
      ip).resume

/-- Polls and reservations stand at segment starts; a body bails only if it is not batch safe. -/
def CanBail (ip : Nat) : BailPoint → Prop
  | .control => program.startsSegment ip = true
  | .body => program.batchSafe ip = false

/-! ## Blocks -/

/-- The resume anchor: the instruction itself, or the first one of its inlined run. -/
def anchor : Nat → Nat
  | 0 => 0
  | ip + 1 =>
    let previous := program.instructionOrigin ip
    let origin := program.instructionOrigin (ip + 1)
    if !origin.inlined || !previous.inlined || previous.sourceIp != origin.sourceIp then ip + 1
    else anchor ip

/-- The leader of the block of an instruction. -/
def blockStart : Nat → Nat
  | 0 => 0
  | ip + 1 => if program.isLeader (ip + 1) then ip + 1 else blockStart ip

def blockEnd (ip : Nat) : Nat := stretchEnd program.isLeader program.code.length ip

def blockTotal (meter : Meter) (ip : Nat) : Nat :=
  span (program.cost meter) (program.blockStart ip) (program.blockEnd (program.blockStart ip))

/-- The cost of the block up to an instruction. -/
def costBefore (meter : Meter) (ip : Nat) : Nat :=
  span (program.cost meter) (program.blockStart ip) ip

/-- What a block charges at its leader, and the constant of each instruction. -/
structure BlockCosts where
  chargeAt : Meter → Nat → Nat
  adjustAt : Meter → Nat → Int

/-- `step_block_costs`: none where a total passes a `u32` or an inlined run reaches
back past a leader. -/
def stepBlockCosts : Option BlockCosts :=
  if (∀ ip < program.code.length, program.isLeader ip = true →
      program.blockTotal .steps ip < 2 ^ 32 ∧ program.blockTotal .intrinsics ip < 2 ^ 32) ∧
    ∀ ip < program.code.length, program.isLeader ip = true → program.anchor ip = ip
  then some {
    chargeAt meter ip := if program.isLeader ip then program.blockTotal meter ip else 0
    adjustAt meter ip :=
      (program.blockTotal meter ip : Int) - program.costBefore meter (program.anchor ip) }
  else none

/-- The running count on arrival at the instruction after some visits. -/
def blockRun (blocks : BlockCosts) (meter : Meter) (entry : Nat) : List Visit → Nat
  | [] => entry
  | visit :: visits =>
    blockRun blocks meter entry visits + blocks.chargeAt meter visit.ip + visit.extra

/-- What a bail site publishes on its cold edge. -/
def blockReported (blocks : BlockCosts) (meter : Meter) (entry : Nat) (visits : List Visit)
    (ip : Nat) : Int :=
  (blockRun blocks meter entry visits + blocks.chargeAt meter ip : Nat) - blocks.adjustAt meter ip

/-! ## Paths -/

/-- Control goes from a visited instruction to a successor; only an instruction
that adopts a count is charged more than its cost. -/
def Goes (meter : Meter) (visit : Visit) (target : Nat) : Prop :=
  target ∈ program.successors visit.ip ∧
    (visit.extra ≠ 0 → (program.code[visit.ip]?).any (JitInstr.adoptsCount meter) = true)

/-- The visits before the last one of the anchor of an instruction. -/
def beforeAnchor (visits : List Visit) (ip : Nat) : Option (List Visit) :=
  if program.anchor ip = ip then some visits
  else
    match visits.dropWhile (·.ip ≠ program.anchor ip) with
    | [] => none
    | _ :: before => some before

/-- The visits that the published count covers: those before the last one that was
not inlined, and that one as well if it cannot bail. -/
def publishedVisits : List Visit → List Visit
  | [] => []
  | visit :: visits =>
    if program.inlined visit.ip then publishedVisits visits
    else if program.batchSafe visit.ip then visit :: visits
    else visits

/-- The visits that a bail at an instruction reports in the segment model. -/
def reportedVisits (stepArmed : Bool) (visits : List Visit) (ip : Nat) : List Visit :=
  if !stepArmed then []
  else if program.inlined ip then program.publishedVisits visits
  else visits

end JitFunction

end Jit
