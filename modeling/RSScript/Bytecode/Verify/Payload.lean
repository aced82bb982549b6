import RSScript.Bytecode.Verify.Metadata
import RSScript.Bytecode.Verify.RegisterInitialization
import RSScript.Bytecode.Verify.ResourceScopes

/-!
# The executable payload

`verifyExecutablePayload` decodes a payload and runs every pass over it, each
function's instructions before its dataflow passes and the function map before
the native signatures. That order is what keeps the raw indexing of the later
passes in range: `verifyExecutablePayload_answers`. What a unit that passes has is
`FunctionsSafe`.
-/

namespace RSScript.Bytecode

open ByteCodec CanonicalCbor RSScript.Abi Guards Outcome Graceful Answers

/-- Where the verifier polls for cancellation and its deadline. -/
inductive CheckPoint where
  | entry
  | function (functionId : Nat)
  | instruction (functionId ip : Nat)
  | functionMap
  deriving DecidableEq, Repr

inductive Interruption where
  | cancelled
  | deadlineExceeded
  deriving DecidableEq, Repr

/-- What each poll of one verification finds. -/
abbrev VerificationContext := CheckPoint → Option Interruption

def VerificationContext.check (context : VerificationContext) (point : CheckPoint) : Checked Unit :=
  match context point with
  | some .cancelled => throw (.error .cancelled)
  | some .deadlineExceeded => throw (.error .deadlineExceeded)
  | none => return ()

/-- The instructions of a body poll once every 256. -/
def VerificationContext.poll (context : VerificationContext) (functionId ip : Nat) : Checked Unit :=
  if ip % 256 = 0 then context.check (.instruction functionId ip) else return ()

/-- `usize` arithmetic is on 64 bits. -/
def checkedAdd (left right : Nat) : Option Nat :=
  if left + right < 2 ^ 64 then some (left + right) else none

/-! ## One function -/

/-- What the loop over the functions carries along. -/
structure UnitProgress where
  totalInstructions : Nat
  calledImports : Finset String
  functionNames : Finset String

/-- The parts of a function the passes work on. -/
structure FunctionBody where
  registers : Nat
  initializedInputs : Nat
  code : List Value

/-- The header of a function: its fields, a fresh name and its register counts. -/
def verifyFunctionHeader (limits : BytecodeLimits) (functionId : Nat) (names : Finset String)
    (value : Value) : Checked (String × FunctionBody) := do
  let function ← orInvalid value.asObject s!"function {functionId} is not an object"
  requireObjectFields function ["name", "params", "captures", "regs", "local_regs", "code"]
    s!"function {functionId}"
  let name ← orInvalid (← index function "name").asStr
    s!"function {functionId} name is not a string"
  ensure (¬(name.isEmpty ∨ name ∈ names)) <| invalidPayload
    s!"function {functionId} has an empty or duplicate name `{name}`"
  let registers ← jsonUsize (← index function "regs") "register count"
  let params ← jsonUsize (← index function "params") "parameter count"
  let captures ← jsonUsize (← index function "captures") "capture count"
  ensure (registers ≤ limits.maxRegistersPerFunction) <| limitExceeded "register count"
  let initializedInputs ← orInvalid (checkedAdd params captures)
    s!"function {functionId} input count overflow"
  ensure (initializedInputs ≤ registers) <| invalidPayload
    s!"function {functionId} has more parameters and captures than registers"
  let locals ← orInvalid (← index function "local_regs").asObject
    s!"function {functionId} locals is not an object"
  locals.forM fun (name, register) => do
    verifyRegister functionId registers (← jsonUsize register name) name
  let code ← orInvalid (← index function "code").asArray
    s!"function {functionId} code is not an array"
  return (name, ⟨registers, initializedInputs, code⟩)

/-- Every instruction of a body on its own. -/
def verifyInstructions (context : VerificationContext) (functionId registers functionCount : Nat)
    (code : List Value) (calledImports : Finset String) : Checked (Finset String) :=
  code.zipIdx.foldlM (fun calledImports (instruction, ip) => do
    context.poll functionId ip
    verifyWireInstruction ⟨functionId, ip, registers, code.length, functionCount⟩ instruction
      calledImports) calledImports

/-- The running instruction count. -/
def addInstructions (limits : BytecodeLimits) (total count : Nat) : Checked Nat :=
  match checkedAdd total count with
  | none => throw (limitExceeded "instruction count")
  | some total => do
    ensure (total ≤ limits.maxInstructions) <| limitExceeded "instruction count"
    return total

/-- The registers a body may read at its entry. -/
def initializedRegisters (resourceInputs : List (Nat × Finset Nat)) (functionId : Nat)
    (initializedInputs : Nat) : Finset Nat :=
  Finset.range initializedInputs ∪ (SortedMap.get functionId resourceInputs).getD ∅

def verifyFunction (fuel : Nat) (context : VerificationContext) (limits : BytecodeLimits)
    (imports : List ExternalImport) (functions : List Value)
    (resourceInputs : List (Nat × Finset Nat)) (progress : UnitProgress)
    (entry : Value × Nat) : Checked UnitProgress := do
  let (value, functionId) := entry
  context.check (.function functionId)
  let (name, body) ← verifyFunctionHeader limits functionId progress.functionNames value
  let totalInstructions ← addInstructions limits progress.totalInstructions body.code.length
  let calledImports ← verifyInstructions context functionId body.registers functions.length
    body.code progress.calledImports
  verifyRegisterInitialization fuel functionId
    (initializedRegisters resourceInputs functionId body.initializedInputs) body.code
  verifyResourceScopeLifetimes fuel functionId body.code
  verifyCallShapes functionId functions imports body.code
  return ⟨totalInstructions, calledImports, insert name progress.functionNames⟩

/-! ## The unit -/

def unitFields : List String :=
  ["functions", "function_ids", "resource_drop_functions", "types", "native_signatures",
    "closure_identity_observable"]

/-- Decode a payload that must be spelled canonically. -/
def decodeUnit (payload : Bytes) : Checked Value :=
  match decode payload with
  | .error error => throw <| invalidPayload (BytecodeError.cbor error.message).text
  | .ok value =>
    match encodeExecutablePayload value with
    | .error error => throw (.error error)
    | .ok canonical => do
      ensure (canonical = payload) <| invalidPayload "executable CBOR is not canonical"
      return value

/-- Every pass over a decoded unit. -/
def verifyUnit (fuel : Nat) (imports : List ExternalImport) (limits : BytecodeLimits)
    (context : VerificationContext) (value : Value) : Checked Unit := do
  let unit ← orInvalid value.asObject "unit is not an object"
  requireObjectFieldsWithOptional unit unitFields ["source_map", "variant_layouts"] "unit"
  let functions ← orInvalid (← index unit "functions").asArray "functions is not an array"
  ensure (functions.length ≤ limits.maxFunctions) <| limitExceeded "function count"
  let resourceInputs ← resourceDropInputs unit functions
  let progress ← functions.zipIdx.foldlM
    (verifyFunction fuel context limits imports functions resourceInputs) ⟨0, ∅, ∅⟩
  verifyFunctionMap unit "function_ids" functions true
  context.check .functionMap
  verifyFunctionMap unit "resource_drop_functions" functions false
  verifyTypeMetadata unit limits
  let variantCases ← verifyVariantLayoutMetadata unit limits
  verifyVariantInstructionLayouts functions variantCases
  verifyNativeSignatures unit functions limits
  verifySourceMap unit functions progress.totalInstructions
  let declaredImports := (imports.map ExternalImport.symbol).toFinset
  ensure (progress.calledImports = declaredImports) <| invalidPayload <|
    s!"external call table mismatch: instructions={debugSet (progress.calledImports.sort (· ≤ ·))}, " ++
      s!"imports={debugSet (imports.map ExternalImport.symbol)}"

def verifyExecutablePayload (fuel : Nat) (payload : Bytes) (imports : List ExternalImport)
    (limits : BytecodeLimits) (context : VerificationContext) : Checked Unit := do
  context.check .entry
  let value ← decodeUnit payload
  verifyUnit fuel imports limits context value

/-! ## The verifier always answers -/

section Answers

variable {context : VerificationContext} {limits : BytecodeLimits} {imports : List ExternalImport}
  {functions : List Value}

theorem check_graceful : Graceful (context.check point) := by
  unfold VerificationContext.check
  split
  · exact throw _
  · exact throw _
  · exact pure ()

theorem poll_graceful : Graceful (context.poll functionId ip) := by
  unfold VerificationContext.poll
  split
  · exact check_graceful
  · exact pure ()

theorem verifyFunctionHeader_graceful (value : Value) :
    Graceful (verifyFunctionHeader limits functionId names value) := by
  refine object fun function hfields => ?_
  refine (hfields "name" (by simp)).member fun name => ensured fun _ _ => ?_
  refine (hfields "regs" (by simp)).member fun registers => ?_
  refine (hfields "params" (by simp)).member fun params => ?_
  refine (hfields "captures" (by simp)).member fun captures => ensured fun _ _ => ?_
  refine valid fun inputs _ => ensured fun _ _ => ?_
  refine (hfields "local_regs" (by simp)).member fun locals => ?_
  refine (Graceful.forM fun _ _ =>
    valid fun _ _ => ensure _).bind fun _ _ => ?_
  exact (hfields "code" (by simp)).member fun _ => pure _

theorem verifyInstructions_graceful :
    Graceful (verifyInstructions context functionId registers functionCount code calledImports) :=
  foldlM fun _ _ _ => (poll_graceful).bind fun _ _ =>
    verifyWireInstruction_graceful _

/-- The loop over the instructions accepts each of them. -/
theorem bodyAccepted_of_verifyInstructions
    (h : verifyInstructions context functionId registers functionCount code before = .ok after) :
    BodyAccepted functionId registers functionCount code := by
  intro ip instruction hinstruction
  have hmem : (instruction, ip) ∈ code.zipIdx := List.mem_zipIdx_iff_getElem?.mpr hinstruction
  obtain ⟨before, after, hstep⟩ := exists_of_foldlM_eq_ok h hmem
  obtain ⟨_, -, haccepted⟩ := bind_eq_ok.mp hstep
  exact ⟨before, after, haccepted⟩

theorem addInstructions_graceful : Graceful (addInstructions limits total count) := by
  unfold addInstructions
  split
  · exact throw _
  · exact ensured fun _ _ => pure _

theorem verifyFunction_answers : Answers fun fuel =>
      verifyFunction fuel context limits imports functions resourceInputs progress entry := by
  refine bind_graceful check_graceful fun _ _ => ?_
  refine bind_graceful (verifyFunctionHeader_graceful _) fun header _ => ?_
  refine bind_graceful addInstructions_graceful fun total _ => ?_
  refine bind_graceful verifyInstructions_graceful fun called hcalled => ?_
  have hbody := (bodyAccepted_of_verifyInstructions hcalled).verified
  refine bind (verifyRegisterInitialization_answers _ _ hbody) fun _ _ => ?_
  refine bind (verifyResourceScopeLifetimes_answers hbody) fun _ _ => ?_
  refine bind_graceful verifyCallShapes_graceful fun _ _ => ?_
  exact of_graceful (pure _)

theorem decodeUnit_graceful : Graceful (decodeUnit payload) := by
  unfold decodeUnit
  split
  · exact throw _
  split
  · exact throw _
  · exact ensured fun _ _ => pure _

theorem verifyUnit_answers (imports : List ExternalImport) (limits : BytecodeLimits)
    (context : VerificationContext) (value : Value) :
    Answers fun fuel => verifyUnit fuel imports limits context value := by
  refine Answers.bind_graceful (Graceful.orInvalid _ _) fun unit _ => ?_
  refine Answers.bind_graceful (Graceful.requireObjectFieldsWithOptional _ _ _ _)
    fun _ hfields => ?_
  -- Every field a later pass indexes by name is there from here on.
  have hfield : ∀ key ∈ unitFields, ∃ value, SortedMap.get key unit = some value :=
    fun key hkey => exists_of_requireObjectFieldsWithOptional hfields hkey
  obtain ⟨_, hfunctions⟩ := hfield "functions" (by simp [unitFields])
  obtain ⟨_, hids⟩ := hfield "function_ids" (by simp [unitFields])
  obtain ⟨_, hdrops⟩ := hfield "resource_drop_functions" (by simp [unitFields])
  obtain ⟨_, htypes⟩ := hfield "types" (by simp [unitFields])
  obtain ⟨_, hsignatures⟩ := hfield "native_signatures" (by simp [unitFields])
  refine Answers.bind_graceful (Graceful.index hfunctions) fun _ _ => ?_
  refine Answers.bind_graceful (Graceful.orInvalid _ _) fun functions _ => ?_
  refine bind_graceful (ensure _) fun _ _ => ?_
  refine bind_graceful (resourceDropInputs_graceful hdrops htypes) fun inputs _ => ?_
  refine bind (foldlM fun _ _ _ => verifyFunction_answers) fun progress _ => ?_
  refine bind_graceful (verifyFunctionMap_graceful hids) fun _ hmap => ?_
  refine bind_graceful check_graceful fun _ _ => ?_
  refine bind_graceful (verifyFunctionMap_graceful hdrops) fun _ _ => ?_
  refine bind_graceful (verifyTypeMetadata_graceful _ htypes) fun _ _ => ?_
  refine bind_graceful (verifyVariantLayoutMetadata_graceful _) fun cases _ => ?_
  refine bind_graceful verifyVariantInstructionLayouts_graceful fun _ _ => ?_
  refine bind_graceful (verifyNativeSignatures_graceful _ hsignatures hids hmap)
    fun _ _ => ?_
  refine bind_graceful verifySourceMap_graceful fun _ _ => ?_
  exact of_graceful (ensure _)

/-- Whatever the payload, the imports, the limits and the polls: the verifier
comes to an end, with `Ok` or with an error, and never indexes out of range. -/
theorem verifyExecutablePayload_answers (payload : Bytes) (imports : List ExternalImport)
    (limits : BytecodeLimits) (context : VerificationContext) :
    ∃ bound, ∀ fuel, bound ≤ fuel →
      verifyExecutablePayload fuel payload imports limits context ≠ .error .panic ∧
      verifyExecutablePayload fuel payload imports limits context ≠ .error .outOfFuel := by
  have hanswers : Answers fun fuel => verifyExecutablePayload fuel payload imports limits context := by
    refine bind_graceful check_graceful fun _ _ => ?_
    refine bind_graceful decodeUnit_graceful fun value _ => ?_
    exact verifyUnit_answers _ _ _ _
  obtain ⟨bound, result, hgraceful, hresult⟩ := hanswers
  refine ⟨bound, fun fuel hfuel => ?_⟩
  rw [show verifyExecutablePayload fuel payload imports limits context = result from
    hresult fuel hfuel]
  constructor
  · intro hpanic
    obtain ⟨_, herror⟩ := hgraceful _ hpanic
    exact absurd herror (by simp)
  · intro hfuel
    obtain ⟨_, herror⟩ := hgraceful _ hfuel
    exact absurd herror (by simp)

/-- Every instruction of a function reads as one with its targets inside the body, and no path
through it reads a register that is neither an input nor written on the way. -/
def FunctionsSafe (limits : BytecodeLimits) (value : Value) : Prop :=
  ∃ unit functions inputs, value.asObject = some unit ∧
    (SortedMap.get "functions" unit).bind Value.asArray = some functions ∧
    resourceDropInputs unit functions = .ok inputs ∧
    ∀ entry ∈ functions.zipIdx, ∃ names name body,
      verifyFunctionHeader limits entry.2 names entry.1 = .ok (name, body) ∧
      BodyVerified body.code ∧ InitializedOnPaths
        (initializedRegisters inputs entry.2 body.initializedInputs) body.code

/-- The functions of an accepted unit are safe, whatever the fuel, the imports and the polls. -/
theorem functionsSafe_of_accepted {value : Value}
    (h : verifyUnit fuel imports limits context value = .ok ()) : FunctionsSafe limits value := by
  obtain ⟨unit, hunit, h⟩ := bind_eq_ok.mp h
  obtain ⟨_, -, h⟩ := bind_eq_ok.mp h
  obtain ⟨field, hfield, h⟩ := bind_eq_ok.mp h
  obtain ⟨functions, hfunctions, h⟩ := bind_eq_ok.mp h
  obtain ⟨_, -, h⟩ := bind_eq_ok.mp h
  obtain ⟨inputs, hinputs, h⟩ := bind_eq_ok.mp h
  obtain ⟨_, hfold, -⟩ := bind_eq_ok.mp h
  refine ⟨unit, functions, inputs, orInvalid_eq_ok.mp hunit,
    by simp [index_eq_ok.mp hfield, orInvalid_eq_ok.mp hfunctions], hinputs, fun _ hentry => ?_⟩
  obtain ⟨progress, _, h⟩ := exists_of_foldlM_eq_ok hfold hentry
  obtain ⟨_, -, h⟩ := bind_eq_ok.mp h
  obtain ⟨⟨name, body⟩, hheader, h⟩ := bind_eq_ok.mp h
  obtain ⟨_, -, h⟩ := bind_eq_ok.mp h
  obtain ⟨_, hcode, h⟩ := bind_eq_ok.mp h
  obtain ⟨_, hinitialized, -⟩ := bind_eq_ok.mp h
  have hbody := (bodyAccepted_of_verifyInstructions hcode).verified
  exact ⟨_, name, body, hheader, hbody, initializedOnPaths_of_accepted hbody hinitialized⟩

/-- A unit with one function that loops over a lookup. -/
def lookupUnit : Value :=
  .object [
    ("closure_identity_observable", .bool false),
    ("function_ids", .object [("main", .number (.posInt 0))]),
    ("functions", .array [.object [
      ("captures", .number (.posInt 0)), ("code", .array lookupLoop), ("local_regs", .object []),
      ("name", .string "main"), ("params", .number (.posInt 2)), ("regs", .number (.posInt 3))]]),
    ("native_signatures", .object [("main", .object [
      ("params", .array [.string "Map", .string "Int"]), ("return_type", .null)])]),
    ("resource_drop_functions", .object []),
    ("types", .object [])]

example : verifyUnit 9 [] {} (fun _ => none) lookupUnit = .ok () := by decide +kernel

theorem lookupUnit_safe : FunctionsSafe {} lookupUnit :=
  functionsSafe_of_accepted
    (show verifyUnit 9 [] {} (fun _ => none) lookupUnit = .ok () by decide +kernel)

example : verifyUnit 9 [] {} (fun point => if point = .functionMap then some .cancelled else none)
    lookupUnit = .error (.error .cancelled) := by decide +kernel

end Answers

end RSScript.Bytecode
