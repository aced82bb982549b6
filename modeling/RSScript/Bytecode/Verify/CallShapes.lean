import Mathlib.Data.Finset.Sort
import RSScript.Bytecode.Verify.Instruction

/-!
# Call shapes

Every call passes as many arguments as its target takes: closures as many
captures, direct and dynamic calls as many arguments as parameters, external
calls what the import's signature says, including which arguments are `mut`.
-/

namespace RSScript.Bytecode

open RSScript.Abi Guards Outcome Graceful

/-- The parameter and capture counts of a function. -/
def functionInputs (functions : List Value) (target : Nat) : Checked (Nat × Nat) := do
  let function ← orInvalid (functions[target]?.bind Value.asObject) s!"missing function {target}"
  let params ← requiredIndex function "params"
  let captures ← requiredIndex function "captures"
  return (params, captures)

/-- The positions of `mut` arguments, in range and without repetition. -/
def mutArgumentIndexes (fields : Fields) (argumentCount : Nat) : Checked (Finset Nat) :=
  match SortedMap.get "mut_args" fields with
  | none => return ∅
  | some values => do
    let values ← orInvalid values.asArray "mut_args is not an array"
    values.foldlM (fun indexes value => do
      let index ← jsonUsize value "mut_args"
      ensure (index < argumentCount) <| invalidPayload
        s!"index {index} exceeds argument count {argumentCount}"
      ensure (index ∉ indexes) <| invalidPayload s!"duplicate index {index}"
      return insert index indexes) ∅

def verifyMutArgumentIndexes (functionId ip : Nat) (fields : Fields) (argumentCount : Nat) :
    Checked Unit :=
  match mutArgumentIndexes fields argumentCount with
  | .ok _ => return ()
  | .error (.error error) => throw <| invalidPayload
      s!"function {functionId} instruction {ip} has invalid mut_args: {error.text}"
  | .error fault => throw fault

def requireArity (functionId ip : Nat) (opcode : String) (expected actual : Nat) : Checked Unit :=
  ensure (actual = expected) <| invalidPayload <|
    s!"function {functionId} instruction {ip} `{opcode}` has {actual} argument(s), " ++
      s!"expected {expected}"

/-- The `Debug` text of a set of indices. -/
def debugIndexes (indexes : Finset Nat) : String :=
  "\x7b" ++ ", ".intercalate ((indexes.sort (· ≤ ·)).map toString) ++ "\x7d"

/-- The import a symbol names; of several with one symbol the map keeps the last. -/
def importOf (imports : List ExternalImport) (symbol : String) : Option ExternalImport :=
  imports.reverse.find? fun entry => entry.symbol = symbol

/-- The positions of the parameters an import may mutate. -/
def mutParameters (signature : FunctionSignature) : Finset Nat :=
  ((signature.parameters.zipIdx.filter fun (parameter, _) => parameter.effect = .mut).map
    Prod.snd).toFinset

section Shapes

variable (functionId : Nat) (functions : List Value) (imports : List ExternalImport) (ip : Nat)
  (opcode : String) (fields : Fields) (args : Option (List Value))

/-- A closure captures as many values as its function takes. -/
def verifyClosureShape : Checked Unit := do
  let target ← requiredIndex fields "function"
  let (_, captures) ← functionInputs functions target
  let actual ← orInvalid ((SortedMap.get "captures" fields).bind Value.asArray)
    "MakeClosure captures is not an array"
  requireArity functionId ip opcode captures actual.length

/-- A direct call is of a function without captures and passes all parameters. -/
def verifyDirectCallShape : Checked Unit := do
  let target ← requiredIndex fields "function"
  let (parameters, captures) ← functionInputs functions target
  ensure (captures = 0) <| invalidPayload <|
    s!"function {functionId} instruction {ip} `{opcode}` directly calls function {target} " ++
      s!"with {captures} capture(s)"
  let args ← orInvalid args s!"{opcode} args is not an array"
  requireArity functionId ip opcode parameters args.length

/-- Every target of a dynamic call takes as many arguments and has no captures. -/
def verifyDynamicCallShape : Checked Unit := do
  let args ← orInvalid args "CallDynamic args is not an array"
  let entries ← orInvalid ((SortedMap.get "dispatch" fields).bind Value.asArray)
    "CallDynamic dispatch is not an array"
  entries.forM fun entry => do
    let tuple ← orInvalid (entry.asArray.filter fun tuple => tuple.length = 2)
      "CallDynamic dispatch entry is invalid"
    let target ← jsonUsize (← at_ tuple 1) "dispatch target"
    let (parameters, captures) ← functionInputs functions target
    ensure (captures = 0) <| invalidPayload <|
      s!"function {functionId} instruction {ip} dynamic target {target} has captures"
    requireArity functionId ip opcode parameters args.length

/-- An external call agrees with its import in arity and in `mut` arguments. -/
def verifyExternalCallShape : Checked Unit := do
  let symbol ← orInvalid ((SortedMap.get "key" fields).bind Value.asStr)
    "CallExternal key is not a string"
  let entry ← orInvalid (importOf imports symbol) s!"CallExternal `{symbol}` has no import"
  let args ← orInvalid args "CallExternal args is not an array"
  requireArity functionId ip opcode entry.signature.parameters.length args.length
  let actualMut ← mutArgumentIndexes fields args.length
  let expectedMut := mutParameters entry.signature
  ensure (actualMut = expectedMut) <| invalidPayload <|
    s!"function {functionId} instruction {ip} external `{symbol}` mut_args differ: " ++
      s!"actual={debugIndexes actualMut}, expected={debugIndexes expectedMut}"

/-- The arity check of each kind of call. -/
def verifyCallArity : Checked Unit :=
  if opcode = "MakeClosure" then verifyClosureShape functionId functions ip opcode fields
  else if opcode ∈ ["CallKnown", "SpawnTask"] then
    verifyDirectCallShape functionId functions ip opcode fields args
  else if opcode = "CallDynamic" then
    verifyDynamicCallShape functionId functions ip opcode fields args
  else if opcode = "CallExternal" then
    verifyExternalCallShape functionId imports ip opcode fields args
  else return ()

def verifyCallShape (instruction : Value) : Checked Unit := do
  let (opcode, fields) ← instructionParts functionId ip instruction
  let args := (SortedMap.get "args" fields).bind Value.asArray
  (args.toList.forM fun args => verifyMutArgumentIndexes functionId ip fields args.length)
  verifyCallArity functionId functions imports ip opcode fields args

def verifyCallShapes (code : List Value) : Checked Unit :=
  code.zipIdx.forM fun (instruction, ip) =>
    verifyCallShape functionId functions imports ip instruction

end Shapes

/-! ## The check always answers -/

theorem functionInputs_graceful : Graceful (functionInputs functions target) :=
  Graceful.valid fun _ _ => (Graceful.requiredIndex _ _).bind fun _ _ =>
    (Graceful.requiredIndex _ _).bind fun _ _ => Graceful.pure _

theorem requireArity_graceful : Graceful (requireArity functionId ip opcode expected actual) :=
  ensure _

theorem mutArgumentIndexes_graceful (fields : Fields) (argumentCount : Nat) :
    Graceful (mutArgumentIndexes fields argumentCount) := by
  unfold mutArgumentIndexes
  split
  · exact pure ∅
  · refine valid fun values _ => foldlM fun indexes value _ => ?_
    exact valid fun _ _ => ensured fun _ _ =>
      ensured fun _ _ => pure _

private theorem verifyMutArgumentIndexes_graceful :
    Graceful (verifyMutArgumentIndexes functionId ip fields argumentCount) := by
  have hindexes := mutArgumentIndexes_graceful fields argumentCount
  unfold verifyMutArgumentIndexes
  split
  · exact pure ()
  · exact throw _
  case h_3 fault hne hfault =>
    obtain ⟨error, rfl⟩ := hindexes fault hfault
    exact absurd rfl (hne error)

private theorem verifyClosureShape_graceful :
    Graceful (verifyClosureShape functionId functions ip opcode fields) := by
  refine (Graceful.requiredIndex _ _).bind fun target _ => ?_
  refine (functionInputs_graceful).bind fun inputs _ => ?_
  exact valid fun _ _ => requireArity_graceful

private theorem verifyDirectCallShape_graceful :
    Graceful (verifyDirectCallShape functionId functions ip opcode fields args) := by
  refine (Graceful.requiredIndex _ _).bind fun target _ => ?_
  refine (functionInputs_graceful).bind fun inputs _ => ?_
  refine ensured fun _ _ => ?_
  exact valid fun _ _ => requireArity_graceful

private theorem verifyDynamicCallShape_graceful :
    Graceful (verifyDynamicCallShape functionId functions ip opcode fields args) := by
  refine valid fun args _ => ?_
  refine valid fun entries _ => forM fun entry _ => ?_
  refine valid fun tuple htuple => ?_
  refine (dispatchTarget_graceful htuple).bind fun _ _ => ?_
  refine valid fun target _ => ?_
  refine (functionInputs_graceful).bind fun inputs _ => ?_
  exact ensured fun _ _ => requireArity_graceful

private theorem verifyExternalCallShape_graceful :
    Graceful (verifyExternalCallShape functionId imports ip opcode fields args) := by
  refine valid fun symbol _ => ?_
  refine valid fun entry _ => ?_
  refine valid fun args _ => ?_
  refine requireArity_graceful.bind fun _ _ => ?_
  exact (mutArgumentIndexes_graceful _ _).bind fun _ _ => ensure _

private theorem verifyCallArity_graceful :
    Graceful (verifyCallArity functionId functions imports ip opcode fields args) := by
  unfold verifyCallArity
  split
  · exact verifyClosureShape_graceful
  split
  · exact verifyDirectCallShape_graceful
  split
  · exact verifyDynamicCallShape_graceful
  split
  · exact verifyExternalCallShape_graceful
  · exact pure ()

theorem verifyCallShapes_graceful :
    Graceful (verifyCallShapes functionId functions imports code) := by
  refine forM fun entry _ => ?_
  refine valid fun parts _ => ?_
  refine (forM fun args _ => verifyMutArgumentIndexes_graceful).bind fun _ _ => ?_
  exact verifyCallArity_graceful

end RSScript.Bytecode
