import RSScript.Vm.Calls

/-!
# Fused pipelines

A map and a filter whose result is folded right away run as one pass when their
closures have plans and the scan of the code after the fold finds no read of the
registers in between.
-/

namespace RSScript.Vm

/-- A map and a filter of its result, or the other way round. -/
structure PipelinePrefix where
  source : Nat
  first : String × Nat
  second : String × Nat
  current : Nat
  temps : List Nat

def fusablePrefix (code : List RegInstr) (ip : Nat) : Option PipelinePrefix :=
  match code[ip]?, code[ip + 1]? with
  | some (.listMap dst list mapper), some (.listFilter filterDst filterList predicate) =>
    if filterList = dst then
      some ⟨list, ("map", mapper), ("filter", predicate), filterDst, [dst, filterDst]⟩
    else none
  | some (.listFilter dst list predicate), some (.listMap mapDst mapList mapper) =>
    if mapList = dst then
      some ⟨list, ("filter", predicate), ("map", mapper), mapDst, [dst, mapDst]⟩
    else none
  | _, _ => none

/-- The fold a fused pipeline ends in. -/
structure FoldSink where
  foldIp : Nat
  dst : Nat
  state : Nat
  folder : Nat
  collect : Option Nat

def fusableFoldSink (code : List RegInstr) (afterStages : Nat) (current : Nat) : Option FoldSink :=
  match code[afterStages]? with
  | some (.listFold dst list state folder) =>
    if list = current then some ⟨afterStages, dst, state, folder, none⟩ else none
  | some (.callIntrinsic collectDst "PipelineCollect" [arg]) =>
    if arg = current then
      match code[afterStages + 1]? with
      | some (.listFold dst list state folder) =>
        if list = collectDst then some ⟨afterStages + 1, dst, state, folder, some collectDst⟩
        else none
      | _ => none
    else none
  | _ => none

/-- The plain instructions whose reads `instr_reads_register` lists; it takes any
other one to read every register. -/
def listedReads : List String := [
  "LoadUnit", "LoadInt", "LoadFloat", "LoadBool", "LoadString", "LoadChar", "LoadNone", "Move",
  "Manage", "MakeSome", "UnwrapSome", "UnwrapVariantValue", "DeepCopy", "GetField", "GetFieldSlot",
  "SetField", "SetFieldSlot", "AddInt", "SubInt", "MulInt", "DivInt", "ModInt", "BitAndInt",
  "BitOrInt", "BitXorInt", "ShiftLeftInt", "ShiftRightInt", "LessInt", "LessEqualInt", "GreaterInt",
  "GreaterEqualInt", "Equal", "NotEqual", "MakeStruct", "MakeVariant", "MakeObject", "MakeMap",
  "MakeList"]

def instrReadsRegister (register : Nat) : RegInstr → Bool
  | .plain opcode reads takes _ _ _ =>
    if opcode ∈ listedReads then register ∈ reads ∨ takes = some register else true
  | .jump _ | .runtimeError _ => false
  | .awaitJoin _ src | .ret src | .matchCase _ src _ _ _ => src = register
  | .deepCopyElided source | .resourceDrop source => source = register
  | .jumpIf _ reads _ _ => register ∈ reads
  | .matchGet _ map key _ _ _ => map = register ∨ key = register
  | .makeClosure _ _ captures => register ∈ captures
  | .callKnown _ _ args _ | .callDynamic _ _ args _ | .callExternal _ _ args _
  | .spawnTask _ _ args => register ∈ args
  | .callClosure _ closure args _ => closure = register ∨ register ∈ args
  | .selectWait handles _ _ => register ∈ handles
  | .native _ (some closure) => closure = register
  | _ => true

def pipelineTempsDeadAfter (code : List RegInstr) (start : Nat) (temps : List Nat) : Bool :=
  !(code.drop start).any fun instr => temps.any fun register => instrReadsRegister register instr

section Fusion

variable {V K : Type} (env : Environment V)

/-- `compile_pure_closure_from_reg`: the closure, and whether it has a plan. -/
def purePlanFromReg (base register argsLen : Nat) : VmM V K (Option (VmClosure V)) := do
  let closure ← expectClosure env (← reg (base + register))
  return if env.hasPurePlan closure argsLen then some closure else none

/-- The fold at the end of a fused pipeline, over the stages `first` and `second`. -/
def runFusedFold (code : List RegInstr) (ip base : Nat) (pipeline : PipelinePrefix)
    (first second : VmClosure V) : VmM V K (Option Nat) :=
  match fusableFoldSink code (ip + 2) pipeline.current with
  | none => return none
  | some sink => do
    if pipelineTempsDeadAfter code (sink.foldIp + 1) (pipeline.temps ++ sink.collect.toList) then
      let list ← reg (base + pipeline.source)
      liftResult (env.expectList list)
      let state ← reg (base + sink.state)
      match ← purePlanFromReg env base sink.folder 2 with
      | none => return none
      | some folder =>
        match ← hostCall (.runPipeline [first, second] folder list state) with
        | none => return none
        | some value =>
          setReg (base + sink.dst) value
          return some (sink.foldIp + 1)
    else return none

/-- Run a map, a filter and a fold at once if they can be; the result is where
execution goes on. -/
def tryFuseIntListPipelineAt (code : List RegInstr) (ip base : Nat) : VmM V K (Option Nat) :=
  match fusablePrefix code ip with
  | none => return none
  | some pipeline => do
    match ← purePlanFromReg env base pipeline.first.2 1 with
    | none => return none
    | some first =>
      match ← purePlanFromReg env base pipeline.second.2 1 with
      | none => return none
      | some second =>
        if env.compilesStage pipeline.first.1 first ∧ env.compilesStage pipeline.second.1 second
        then runFusedFold env code ip base pipeline first second
        else return none

end Fusion

end RSScript.Vm
