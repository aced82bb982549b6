import RSScript.Bytecode.Verify.Basic

/-!
# Wire instructions

An instruction is the JSON object `{opcode: {field: value, ..}}`, or the bare
string of the one opcode without fields. `verifyWireInstruction` checks one
instruction on its own: its opcode and field names, its jump targets, the
functions it names and every register it mentions. The later passes read
registers and targets again through the same field classification, so what it
accepts they can read: that is `WireVerified`.
-/

namespace RSScript.Bytecode

open CanonicalCbor Guards Outcome Graceful

/-! ## The instruction set -/

def knownOpcodes : List String := [
  "LoadUnit", "LoadInt", "LoadFloat", "LoadBool", "LoadString", "LoadChar", "Move", "DeepCopy",
  "DeepCopyElided", "Manage", "GetField", "GetFieldSlot", "SetFieldSlot", "SetField",
  "MakeStruct", "ResourceDrop", "ResourceAcquire", "MakeVariant", "MakeList", "MakeObject",
  "MakeMap", "AddInt", "SubInt", "MulInt", "DivInt", "ModInt", "BitAndInt", "BitOrInt",
  "BitXorInt", "ShiftLeftInt", "ShiftRightInt", "LessInt", "LessEqualInt", "GreaterInt",
  "GreaterEqualInt", "Equal", "NotEqual", "Jump", "JumpIfBool", "JumpIfIntCompare", "MatchOption",
  "MatchResult", "MatchVariant", "RuntimeError", "MatchMapGet", "MatchSortedMapGet", "UnwrapSome",
  "UnwrapVariantValue", "MakeClosure", "MakeSome", "LoadNone", "CallKnown", "CallDynamic",
  "SpawnTask", "AwaitJoin", "CancelTask", "JoinTasks", "SelectWait", "CallExternal",
  "CallClosure", "NativeGuardClosureId", "NativeClosureId", "NativeClosureCapture",
  "NativeFieldClosureId", "NativeFieldClosureCapture", "ListFilter", "ListFold", "ListGet",
  "ListLen", "ListMap", "ListAppend", "ListClear", "ListPop", "ListPush", "ListRemoveAt",
  "ListSet", "ListSort", "ListSortBy", "ListSortWith", "DequeClear", "DequePopBack",
  "DequePopFront", "DequePushBack", "DequePushFront", "SetClear", "SetForEach", "SetInsert",
  "SetRemove", "SortedSetClear", "SortedSetInsert", "SortedSetRemove", "SortedMapClear",
  "SortedMapInsert", "SortedMapRemove", "MapGet", "MapClear", "MapInsertOld", "MapRemove",
  "BufferClear", "MapInsert", "StringBuilderPush", "StringBuilderFinish", "StringConcat",
  "CallIntrinsic", "CallTypedIntrinsic", "TryResult", "Return"]

/-- The fields of each opcode, as rows of opcodes that share them. -/
def instructionTable : List (List String × List String) := [
  (["LoadUnit", "LoadNone"], ["dst"]),
  (["LoadInt", "LoadFloat", "LoadBool", "LoadString", "LoadChar"], ["dst", "value"]),
  (["Move", "Manage", "UnwrapSome", "AwaitJoin"], ["dst", "src"]),
  (["CancelTask"], ["src"]),
  (["DeepCopy", "DeepCopyElided"], ["reg"]),
  (["GetField"], ["dst", "base", "name"]),
  (["GetFieldSlot"], ["dst", "base", "slot"]),
  (["SetFieldSlot"], ["dst", "base", "slot", "value"]),
  (["SetField"], ["dst", "base", "name", "value"]),
  (["MakeStruct", "MakeVariant"], ["dst", "layout", "fields"]),
  (["ResourceDrop", "ResourceAcquire"], ["resource"]),
  (["MakeList"], ["dst", "items"]),
  (["MakeObject"], ["dst", "fields"]),
  (["MakeMap"], ["dst", "entries"]),
  (["AddInt", "SubInt", "MulInt", "DivInt", "ModInt", "BitAndInt", "BitOrInt", "BitXorInt",
    "ShiftLeftInt", "ShiftRightInt", "LessInt", "LessEqualInt", "GreaterInt", "GreaterEqualInt",
    "Equal", "NotEqual"],
    ["dst", "lhs", "rhs"]),
  (["Jump"], ["target"]),
  (["JumpIfBool"], ["cond", "expected", "target"]),
  (["JumpIfIntCompare"], ["lhs", "rhs", "op", "expected", "target"]),
  (["MatchOption"], ["src", "some_ip", "none_ip"]),
  (["MatchResult"], ["src", "ok_ip", "err_ip"]),
  (["MatchVariant"], ["src", "expected", "match_ip", "else_ip"]),
  (["RuntimeError"], ["message"]),
  (["MatchMapGet", "MatchSortedMapGet"], ["map", "key", "value_dst", "some_ip", "none_ip"]),
  (["UnwrapVariantValue"], ["dst", "src", "expected"]),
  (["MakeClosure"], ["dst", "function", "captures"]),
  (["MakeSome"], ["dst", "value"]),
  (["CallKnown"], ["dst", "function", "args", "mut_args"]),
  (["CallDynamic"], ["dst", "dispatch", "args", "mut_args"]),
  (["SpawnTask"], ["dst", "function", "args"]),
  (["SelectWait"], ["handles", "winner", "value"]),
  (["JoinTasks"], ["handles"]),
  (["CallExternal"], ["dst", "key", "args", "mut_args"]),
  (["CallClosure"], ["dst", "closure", "args", "mut_args"]),
  (["NativeGuardClosureId"], ["closure", "expected"]),
  (["NativeClosureId"], ["dst", "closure"]),
  (["NativeClosureCapture"], ["dst", "closure", "index"]),
  (["NativeFieldClosureId"], ["dst", "base", "slot"]),
  (["NativeFieldClosureCapture"], ["dst", "base", "slot", "index"]),
  (["ListFilter"], ["dst", "list", "predicate"]),
  (["ListFold"], ["dst", "list", "state", "folder"]),
  (["ListGet", "ListRemoveAt"], ["dst", "list", "index"]),
  (["ListLen", "ListClear", "ListPop", "ListSort"], ["dst", "list"]),
  (["ListMap"], ["dst", "list", "mapper"]),
  (["ListAppend"], ["dst", "list", "values"]),
  (["ListPush"], ["dst", "list", "value"]),
  (["ListSet"], ["dst", "list", "index", "value"]),
  (["ListSortBy"], ["dst", "list", "key", "compare"]),
  (["ListSortWith"], ["dst", "list", "compare"]),
  (["DequeClear", "DequePopBack", "DequePopFront"], ["dst", "deque"]),
  (["DequePushBack", "DequePushFront"], ["dst", "deque", "value"]),
  (["SetClear", "SortedSetClear"], ["dst", "set"]),
  (["SetForEach"], ["dst", "set", "callback"]),
  (["SetInsert", "SetRemove", "SortedSetInsert", "SortedSetRemove"], ["dst", "set", "value"]),
  (["SortedMapClear", "MapClear"], ["dst", "map"]),
  (["SortedMapInsert", "MapInsertOld", "MapInsert"], ["dst", "map", "key", "value"]),
  (["SortedMapRemove", "MapGet", "MapRemove"], ["dst", "map", "key"]),
  (["BufferClear"], ["dst", "buffer"]),
  (["StringBuilderPush"], ["dst", "builder", "value"]),
  (["StringBuilderFinish"], ["dst", "builder"]),
  (["StringConcat"], ["dst", "left", "right"]),
  (["CallIntrinsic"], ["dst", "intrinsic", "args"]),
  (["CallTypedIntrinsic"], ["dst", "intrinsic", "type_arg", "args"]),
  (["TryResult"], ["dst", "src", "cleanup"]),
  (["Return"], ["src"])]

def instructionFields (opcode : String) : List String :=
  ((instructionTable.find? fun row => opcode ∈ row.1).map Prod.snd).getD []

def startsWithLoad (opcode : String) : Bool := (utf8 "Load").isPrefixOf (utf8 opcode)

/-- Fields that hold one register to read. -/
def scalarRegisterField (opcode field : String) : Bool :=
  field ∈ ["src", "reg", "base", "lhs", "rhs", "cond", "resource", "map", "list", "closure", "buffer",
    "builder", "left", "right", "state", "folder", "predicate", "mapper", "values", "deque", "set",
    "callback", "compare"]
  || (field = "key" && opcode ≠ "CallExternal")
  || (field = "value" && !startsWithLoad opcode && opcode ≠ "SelectWait")
  || (field = "index" && opcode ∈ ["ListGet", "ListRemoveAt", "ListSet"])

/-- What a field says about registers, in the order both `verify_register_field`
and `register_accesses` test for it. -/
inductive FieldKind where
  | dst
  | valueDst
  | selected
  | scalar
  | registers
  | tuples (positions : List Nat)
  | other
  deriving DecidableEq, Repr

def fieldKind (opcode field : String) : FieldKind :=
  if field = "dst" then .dst
  else if field = "value_dst" then .valueDst
  else if opcode = "SelectWait" ∧ field ∈ ["winner", "value"] then .selected
  else if scalarRegisterField opcode field then .scalar
  else if field ∈ ["args", "captures", "cleanup", "handles", "items"] then .registers
  else if field = "fields" then .tuples [1]
  else if field = "entries" then .tuples [0, 1]
  else .other

def targetFields : List String :=
  ["target", "some_ip", "none_ip", "ok_ip", "err_ip", "match_ip", "else_ip"]

/-! ## Checking one instruction -/

structure WireInstructionContext where
  functionId : Nat
  ip : Nat
  registerCount : Nat
  codeLen : Nat
  functionCount : Nat

def verifyRegister (functionId registerCount register : Nat) (field : String) : Checked Unit :=
  ensure (register < registerCount) <| invalidPayload
    s!"function {functionId} field `{field}` references register {register}, limit is {registerCount}"

/-- The registers at the given positions of every tuple of a list. -/
def forTuples (value : Value) (positions : List Nat) (visit : Nat → Checked Unit) :
    Checked Unit := do
  let entries ← orInvalid value.asArray "register tuple list is not an array"
  entries.forM fun entry => do
    let tuple ← orInvalid entry.asArray "register tuple entry is not an array"
    positions.forM fun position => do
      let register ← orInvalid tuple[position]? "register tuple is incomplete"
      visit (← jsonUsize register "tuple")

def verifyRegisterField (functionId ip registerCount : Nat) (opcode field : String)
    (value : Value) : Checked Unit :=
  match fieldKind opcode field with
  | .dst | .valueDst | .selected | .scalar => do
    verifyRegister functionId registerCount (← jsonUsize value field) field
  | .registers => do
    let values ← orInvalid value.asArray
      s!"function {functionId} instruction {ip} field `{field}` is not an array"
    values.forM fun register => do
      verifyRegister functionId registerCount (← jsonUsize register field) field
  | .tuples positions =>
    forTuples value positions fun register =>
      verifyRegister functionId registerCount register "tuple"
  | .other => return ()

/-- The jump targets an instruction mentions lie inside its body. -/
def verifyTargets (context : WireInstructionContext) (fields : Fields) : Checked Unit :=
  targetFields.forM fun targetField =>
    match SortedMap.get targetField fields with
    | none => return ()
    | some target => do
      let target ← jsonUsize target targetField
      ensure (target < context.codeLen) <| invalidPayload <|
        s!"function {context.functionId} instruction {context.ip} jumps outside its body to {target}"

/-- The function an instruction names exists. -/
def verifyFunctionReference (context : WireInstructionContext) (opcode : String)
    (fields : Fields) : Checked Unit :=
  if opcode ∈ ["MakeClosure", "CallKnown", "SpawnTask"] then do
    let target ← orInvalid (SortedMap.get "function" fields) s!"{opcode} is missing function"
    let target ← jsonUsize target "function"
    ensure (target < context.functionCount) <| invalidPayload <|
      s!"function {context.functionId} instruction {context.ip} references missing function {target}"
  else return ()

/-- The functions a dynamic call may dispatch to exist. -/
def verifyDispatch (context : WireInstructionContext) (opcode : String) (fields : Fields) :
    Checked Unit :=
  if opcode = "CallDynamic" then do
    let entries ← orInvalid ((SortedMap.get "dispatch" fields).bind Value.asArray)
      "CallDynamic dispatch is not an array"
    entries.forM fun entry => do
      let tuple ← orInvalid (entry.asArray.filter fun tuple => tuple.length = 2)
        "CallDynamic dispatch entry is invalid"
      let target ← jsonUsize (← at_ tuple 1) "dispatch target"
      ensure (target < context.functionCount) <| invalidPayload
        s!"missing dispatch function {target}"
  else return ()

/-- The symbol an external call adds to the called imports. -/
def verifyExternalSymbol (opcode : String) (fields : Fields) (calledImports : Finset String) :
    Checked (Finset String) :=
  if opcode = "CallExternal" then do
    let symbol ← orInvalid ((SortedMap.get "key" fields).bind Value.asStr)
      "CallExternal key is not a string"
    return insert symbol calledImports
  else return calledImports

def verifyWireInstruction (context : WireInstructionContext) (instruction : Value)
    (calledImports : Finset String) : Checked (Finset String) :=
  let place := s!"function {context.functionId} instruction {context.ip}"
  match instruction with
  | .string opcode => do
    ensure (opcode = "TailCallGuard") <| invalidPayload
      s!"{place} has unknown unit opcode `{opcode}`"
    return calledImports
  | .object [(opcode, body)] => do
    ensure (opcode ∈ knownOpcodes) <| invalidPayload s!"{place} has unknown opcode `{opcode}`"
    let fields ← orInvalid body.asObject s!"{place} fields are not an object"
    requireObjectFields fields (instructionFields opcode) s!"{place} `{opcode}`"
    verifyTargets context fields
    verifyFunctionReference context opcode fields
    verifyDispatch context opcode fields
    let calledImports ← verifyExternalSymbol opcode fields calledImports
    fields.forM fun (field, value) =>
      verifyRegisterField context.functionId context.ip context.registerCount opcode field value
    return calledImports
  | _ => throw (invalidPayload s!"{place} has invalid encoding")

/-! ## Reading an instruction again -/

/-- The opcode and the fields of an instruction. -/
def parts? : Value → Option (String × Fields)
  | .string opcode => if opcode = "TailCallGuard" then some (opcode, []) else none
  | .object [(opcode, .object fields)] => some (opcode, fields)
  | _ => none

def instructionParts (functionId ip : Nat) (instruction : Value) : Checked (String × Fields) :=
  orInvalid (parts? instruction)
    s!"function {functionId} instruction {ip} has invalid encoding"

/-- The registers of every tuple of a list, at the given positions. -/
def collectTupleRegisters (value : Value) (positions : List Nat) : Checked (List Nat) := do
  let entries ← orInvalid value.asArray "register tuple list is not an array"
  let registers ← entries.mapM fun entry => do
    let tuple ← orInvalid entry.asArray "register tuple entry is not an array"
    positions.mapM fun position => do
      let register ← orInvalid tuple[position]? "register tuple is incomplete"
      jsonUsize register "tuple"
  return registers.flatten

/-- The registers one field reads and writes. -/
def fieldAccesses (opcode field : String) (value : Value) : Checked (Finset Nat × Finset Nat) :=
  match fieldKind opcode field with
  | .dst | .selected => do return (∅, {← jsonUsize value field})
  -- `MatchMapGet` initializes this register only on its `some` edge.
  | .valueDst => return (∅, ∅)
  | .scalar => do return ({← jsonUsize value field}, ∅)
  | .registers => do
    let values ← orInvalid value.asArray s!"{field} is not an array"
    let registers ← values.mapM fun register => jsonUsize register field
    return (registers.toFinset, ∅)
  | .tuples positions => do return ((← collectTupleRegisters value positions).toFinset, ∅)
  | .other => return (∅, ∅)

/-- The registers a sequence of fields reads and writes. -/
def fieldsAccesses (opcode : String) : Fields → Checked (Finset Nat × Finset Nat)
  | [] => return (∅, ∅)
  | (field, value) :: fields => do
    let (reads, writes) ← fieldAccesses opcode field value
    let (reads', writes') ← fieldsAccesses opcode fields
    return (reads ∪ reads', writes ∪ writes')

def registerAccesses (opcode : String) (fields : Fields) :
    Checked (Finset Nat × Finset Nat) := do
  let (reads, writes) ← fieldsAccesses opcode fields
  return (reads, if opcode ∈ ["DeepCopy", "DeepCopyElided"] then writes ∪ reads else writes)

/-! ## What an accepted instruction provides -/

/-- An instruction every later pass can read: it has an opcode and exactly the
opcode's fields, its targets are inside the body, and its registers are indices. -/
structure WireVerified (codeLen : Nat) (opcode : String) (fields : Fields) : Prop where
  field : ∀ name ∈ instructionFields opcode, ∃ value, SortedMap.get name fields = some value
  target : ∀ name ∈ targetFields, ∀ value, SortedMap.get name fields = some value →
    ∃ target, value.asU64 = some target ∧ target < codeLen
  register : ∀ name value, SortedMap.get name fields = some value →
    fieldKind opcode name ∈ [FieldKind.dst, .valueDst, .selected, .scalar] →
    ∃ register, value.asU64 = some register
  accesses : ∃ reads writes, registerAccesses opcode fields = .ok (reads, writes)

variable {opcode : String}

theorem verifyRegisterField_scalar {value : Value}
    (h : verifyRegisterField functionId ip registerCount opcode field value = .ok ())
    (hkind : fieldKind opcode field ∈ [FieldKind.dst, .valueDst, .selected, .scalar]) :
    ∃ register, value.asU64 = some register := by
  unfold verifyRegisterField at h
  simp only [List.mem_cons, List.not_mem_nil, or_false] at hkind
  rcases hkind with hkind | hkind | hkind | hkind
  all_goals
    rw [hkind] at h
    obtain ⟨register, hregister, -⟩ := bind_eq_ok.mp h
    exact ⟨register, jsonUsize_eq_ok.mp hregister⟩

private theorem collectTupleRegisters_of_forTuples {value : Value}
    (h : forTuples value positions visit = .ok ()) :
    ∃ registers, collectTupleRegisters value positions = .ok registers := by
  obtain ⟨entries, hentries, hall⟩ := bind_eq_ok.mp h
  have hmap : ∀ entry ∈ entries, ∃ registers, (do
      let tuple ← orInvalid entry.asArray "register tuple entry is not an array"
      positions.mapM fun position => do
        let register ← orInvalid tuple[position]? "register tuple is incomplete"
        jsonUsize register "tuple" : Checked (List Nat)) = .ok registers := by
    intro entry hmem
    obtain ⟨tuple, htuple, hpositions⟩ := bind_eq_ok.mp (forM_eq_ok.mp hall entry hmem)
    have hregisters : ∀ position ∈ positions, ∃ register, (do
        let register ← orInvalid tuple[position]? "register tuple is incomplete"
        jsonUsize register "tuple" : Checked Nat) = .ok register := by
      intro position hposition
      obtain ⟨found, hfound, hrest⟩ := bind_eq_ok.mp (forM_eq_ok.mp hpositions position hposition)
      obtain ⟨register, hregister, -⟩ := bind_eq_ok.mp hrest
      exact ⟨register, bind_eq_ok.mpr ⟨found, hfound, hregister⟩⟩
    obtain ⟨registers, hcollected⟩ := exists_mapM_ok hregisters
    exact ⟨registers, bind_eq_ok.mpr ⟨tuple, htuple, hcollected⟩⟩
  obtain ⟨registers, hregisters⟩ := exists_mapM_ok hmap
  exact ⟨registers.flatten, bind_eq_ok.mpr ⟨entries, hentries, bind_eq_ok.mpr ⟨_, hregisters, rfl⟩⟩⟩

/-- A field whose registers were checked can be read for its accesses. -/
theorem fieldAccesses_of_verified {value : Value}
    (h : verifyRegisterField functionId ip registerCount opcode field value = .ok ()) :
    ∃ accesses, fieldAccesses opcode field value = .ok accesses := by
  have hscalar := verifyRegisterField_scalar h
  unfold verifyRegisterField at h
  unfold fieldAccesses
  cases hkind : fieldKind opcode field with
  | dst | selected | scalar =>
    obtain ⟨register, hregister⟩ := hscalar (by simp [hkind])
    exact ⟨_, bind_eq_ok.mpr ⟨register, jsonUsize_eq_ok.mpr hregister, rfl⟩⟩
  | valueDst | other => exact ⟨_, rfl⟩
  | registers =>
    rw [hkind] at h
    obtain ⟨values, hvalues, hall⟩ := bind_eq_ok.mp h
    have hregisters : ∀ register ∈ values, ∃ n, jsonUsize register field = .ok n := by
      intro register hmem
      obtain ⟨n, hn, -⟩ := bind_eq_ok.mp (forM_eq_ok.mp hall register hmem)
      exact ⟨n, hn⟩
    obtain ⟨registers, hcollected⟩ := exists_mapM_ok hregisters
    refine ⟨_, bind_eq_ok.mpr ⟨values, ?_, bind_eq_ok.mpr ⟨registers, hcollected, rfl⟩⟩⟩
    exact orInvalid_eq_ok.mpr (orInvalid_eq_ok.mp hvalues)
  | tuples positions =>
    rw [hkind] at h
    obtain ⟨registers, hregisters⟩ := collectTupleRegisters_of_forTuples h
    exact ⟨_, bind_eq_ok.mpr ⟨registers, hregisters, rfl⟩⟩

private theorem fieldsAccesses_of_verified
    (h : ∀ field ∈ fields, ∃ accesses, fieldAccesses opcode field.1 field.2 = .ok accesses) :
    ∃ accesses, fieldsAccesses opcode fields = .ok accesses := by
  induction fields with
  | nil => exact ⟨_, rfl⟩
  | cons field fields ih =>
    obtain ⟨⟨first, hfirst⟩, htail⟩ := List.forall_mem_cons.mp h
    obtain ⟨others, hothers⟩ := ih htail
    exact ⟨_, bind_eq_ok.mpr ⟨first, hfirst, bind_eq_ok.mpr ⟨others, hothers, rfl⟩⟩⟩

theorem registerAccesses_of_fields (h : ∃ accesses, fieldsAccesses opcode fields = .ok accesses) :
    ∃ reads writes, registerAccesses opcode fields = .ok (reads, writes) := by
  obtain ⟨⟨reads, writes⟩, hfields⟩ := h
  exact ⟨_, _, bind_eq_ok.mpr ⟨(reads, writes), hfields, rfl⟩⟩

/-- What `verifyWireInstruction` checks, read off an accepted instruction. -/
theorem wireVerified_of_verifyWireInstruction
    (h : verifyWireInstruction context instruction before = .ok after) :
    ∃ opcode fields, parts? instruction = some (opcode, fields) ∧
      WireVerified context.codeLen opcode fields := by
  unfold verifyWireInstruction at h
  split at h
  next opcode =>
    obtain ⟨_, hguard, -⟩ := bind_eq_ok.mp h
    obtain rfl : opcode = "TailCallGuard" := ensure_eq_ok.mp hguard
    refine ⟨"TailCallGuard", [], rfl, ⟨?_, ?_, ?_, registerAccesses_of_fields ⟨_, rfl⟩⟩⟩
    · have hnone : instructionFields "TailCallGuard" = [] := by decide +kernel
      simp [hnone]
    · simp [SortedMap.get]
    · simp [SortedMap.get]
  next opcode body =>
    obtain ⟨_, -, h⟩ := bind_eq_ok.mp h
    obtain ⟨fields, hbody, h⟩ := bind_eq_ok.mp h
    obtain ⟨_, hnames, h⟩ := bind_eq_ok.mp h
    obtain ⟨_, htargets, h⟩ := bind_eq_ok.mp h
    obtain ⟨_, -, h⟩ := bind_eq_ok.mp h
    obtain ⟨_, -, h⟩ := bind_eq_ok.mp h
    obtain ⟨imports, -, h⟩ := bind_eq_ok.mp h
    obtain ⟨_, hregisters, -⟩ := bind_eq_ok.mp h
    have hparts : parts? (.object [(opcode, body)]) = some (opcode, fields) := by
      cases body with
      | object entries =>
        obtain rfl : entries = fields := by simpa [Value.asObject] using hbody
        rfl
      | _ => simp [Value.asObject] at hbody
    have hverified : ∀ field ∈ fields, verifyRegisterField context.functionId context.ip
        context.registerCount opcode field.1 field.2 = .ok () := forM_eq_ok.mp hregisters
    refine ⟨opcode, fields, hparts, ⟨?_, ?_, ?_, registerAccesses_of_fields ?_⟩⟩
    · exact fun name hname => exists_of_requireObjectFields hnames hname
    · intro name hname value hvalue
      have htarget := forM_eq_ok.mp htargets name hname
      rw [hvalue] at htarget
      obtain ⟨target, htarget, hlt⟩ := bind_eq_ok.mp htarget
      exact ⟨target, jsonUsize_eq_ok.mp htarget, ensure_eq_ok.mp hlt⟩
    · intro name value hvalue hkind
      exact verifyRegisterField_scalar (hverified (name, value) (SortedMap.get_mem hvalue)) hkind
    · exact fieldsAccesses_of_verified fun field hmem =>
        fieldAccesses_of_verified (hverified field hmem)
  next => exact absurd h (by simp)

/-! ## The check always answers -/

private theorem forTuples_graceful (value : Value) (h : ∀ register, Graceful (visit register)) :
    Graceful (forTuples value positions visit) := by
  refine valid fun entries _ => forM fun entry _ => ?_
  refine valid fun tuple _ => forM fun position _ => ?_
  exact valid fun _ _ => valid fun _ _ => h _

variable (opcode : String)

private theorem verifyRegisterField_graceful (value : Value) :
    Graceful (verifyRegisterField functionId ip registerCount opcode field value) := by
  have hregister : ∀ register field,
      Graceful (verifyRegister functionId registerCount register field) :=
    fun _ _ => ensure _
  unfold verifyRegisterField
  split
  case h_1 | h_2 | h_3 | h_4 => exact valid fun _ _ => hregister _ _
  case h_5 =>
    refine valid fun values _ => forM fun _ _ => ?_
    exact valid fun _ _ => hregister _ _
  case h_6 => exact forTuples_graceful _ fun _ => hregister _ _
  case h_7 => exact pure ()

variable (context : WireInstructionContext) (fields : Fields)

private theorem verifyTargets_graceful : Graceful (verifyTargets context fields) := by
  refine forM fun field _ => ?_
  split
  · exact pure ()
  · exact valid fun _ _ => ensure _

/-- A dispatch entry is indexed only after its length was checked. -/
theorem dispatchTarget_graceful {entry : Value}
    (h : orInvalid (entry.asArray.filter fun tuple => tuple.length = 2) message = .ok tuple) :
    Graceful (at_ tuple 1 : Checked Value) := by
  have hlength : tuple.length = 2 := by
    simpa using (Option.filter_eq_some_iff.mp (orInvalid_eq_ok.mp h)).2
  exact at_ (by omega)

private theorem verifyFunctionReference_graceful :
    Graceful (verifyFunctionReference context opcode fields) := by
  unfold verifyFunctionReference
  split
  · exact valid fun _ _ =>
      valid fun _ _ => ensure _
  · exact pure ()

private theorem verifyDispatch_graceful : Graceful (verifyDispatch context opcode fields) := by
  unfold verifyDispatch
  split
  · refine valid fun entries _ => forM fun entry _ => ?_
    refine valid fun tuple htuple => ?_
    refine (dispatchTarget_graceful htuple).bind fun _ _ => ?_
    exact valid fun _ _ => ensure _
  · exact pure ()

private theorem verifyExternalSymbol_graceful :
    Graceful (verifyExternalSymbol opcode fields calledImports) := by
  unfold verifyExternalSymbol
  split
  · exact valid fun _ _ => pure _
  · exact pure _

theorem verifyWireInstruction_graceful :
    Graceful (verifyWireInstruction context instruction calledImports) := by
  unfold verifyWireInstruction
  split
  case h_1 => exact ensured fun _ _ => pure _
  case h_2 =>
    refine ensured fun _ _ => ?_
    refine valid fun fields _ => ?_
    refine (Graceful.requireObjectFields _ _ _).bind fun _ _ => ?_
    refine (verifyTargets_graceful _ _).bind fun _ _ => ?_
    refine (verifyFunctionReference_graceful _ _ _).bind fun _ _ => ?_
    refine (verifyDispatch_graceful _ _ _).bind fun _ _ => ?_
    refine (verifyExternalSymbol_graceful _ _).bind fun _ _ => ?_
    exact (forM fun _ _ => verifyRegisterField_graceful _ _).bind
      fun _ _ => pure _
  case h_3 => exact throw _

end RSScript.Bytecode
