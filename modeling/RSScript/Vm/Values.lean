import RSScript.Vm.Machine

/-!
# Values

The values the interpreter itself builds and takes apart: scalars, options,
results, structs and the handles of tasks, channels and streams. Strings, lists
and structs are by value; nothing here updates one in place.
-/

namespace RSScript.Vm

open RSScript.Bytecode

inductive VmValue where
  | unit
  | int (value : Int)
  | bool (value : Bool)
  | string (text : String)
  | list (items : List VmValue)
  | optionSome (value : VmValue)
  | optionNone
  | struct (name : String) (fields : List (String × VmValue))
  | variant (name : String) (fields : List (String × VmValue))
  | native (typeName : String) (id : Int)
  | closure (handle : Nat)

namespace VmValue

mutual

def display : VmValue → String
  | .unit => "Unit"
  | .int value => toString value
  | .bool value => toString value
  | .string text => text
  | .list items => "[" ++ ", ".intercalate (displayItems items) ++ "]"
  | .optionSome value => "Some(" ++ value.display ++ ")"
  | .optionNone => "None"
  | .struct name fields | .variant name fields =>
    if fields.isEmpty then name
    else
      name ++ " \x7b " ++ ", ".intercalate ((displayFields fields).insertionSort (· ≤ ·)) ++ " \x7d"
  | .native typeName id => "<native " ++ typeName ++ "#" ++ toString id ++ ">"
  | .closure _ => "<closure>"

def displayItems : List VmValue → List String
  | [] => []
  | item :: items => item.display :: displayItems items

def displayFields : List (String × VmValue) → List String
  | [] => []
  | (name, value) :: fields => (name ++ ": " ++ value.display) :: displayFields fields

end

/-- The failure of an accessor that found a value of another kind. -/
def mismatch (expected : String) (value : VmValue) : EvalError :=
  runtime s!"{expected}, got `{value.display}`."

def expectInt : VmValue → Except EvalError Int
  | .int value => .ok value
  | other => .error (mismatch "reg VM expected Int" other)

def expectBool : VmValue → Except EvalError Bool
  | .bool value => .ok value
  | other => .error (mismatch "reg VM expected Bool" other)

def expectList : VmValue → Except EvalError Unit
  | .list _ => .ok ()
  | other => .error (mismatch "reg VM expected List" other)

/-! ## Results -/

def valueOk (value : VmValue) : VmValue := .variant "Ok" [("value", value)]

def valueErr (value : VmValue) : VmValue := .variant "Err" [("value", value)]

def channelErrorValue (message : String) : VmValue :=
  .struct "ChannelError" [("message", .string message)]

/-- What `?` makes of an option or a result. -/
def tryView : VmValue → Except EvalError (TryView VmValue)
  | .optionSome value => .ok (.payload value)
  | .optionNone => .ok (.shortCircuit .optionNone)
  | .variant "Ok" fields =>
    match fields.lookup "value" with
    | some value => .ok (.payload value)
    | none => .error (runtime "Ok value is missing.")
  | .variant "Err" fields =>
    match fields.lookup "value" with
    | some error => .ok (.shortCircuit (valueErr error))
    | none => .error (runtime "Err value is missing.")
  | other => .error (runtime s!"? expects a Result value, got `{other.display}`.")

/-! ## Handles -/

def taskHandleValue (task : Nat) : VmValue := .native "Task" task

def asTaskHandle : VmValue → Option Nat
  | .native "Task" id => some (id % 2 ^ 64).toNat
  | _ => none

/-- A field a handle has to have. -/
def handleField (kind : String) (fields : List (String × VmValue)) (field : String) :
    Except EvalError VmValue :=
  match fields.lookup field with
  | some value => .ok value
  | none => .error (runtime s!"{kind} value is missing {field}.")

def channelValue (channel : VmChannelState) : VmValue :=
  .struct "Channel" [("id", .int channel.id), ("capacity", .int channel.capacity),
    ("receiver_taken", .bool channel.receiverTaken)]

def expectChannel : VmValue → Except EvalError VmChannelState
  | .struct "Channel" fields => do
    let taken ← expectBool (← handleField "Channel" fields "receiver_taken")
    let id ← expectInt (← handleField "Channel" fields "id")
    let capacity ← expectInt (← handleField "Channel" fields "capacity")
    return ⟨id, capacity, taken⟩
  | other => .error (mismatch "expected Channel" other)

/-- The values of senders and receivers. -/
def endValue (kind : String) (channel : Int) (closed : Bool) : VmValue :=
  .struct kind [("channel_id", .int channel), ("closed", .bool closed)]

def expectEnd (kind : String) (value : VmValue) : Except EvalError (Int × Bool) := do
  match value with
  | .struct name fields =>
    if name = kind then
      let channel ← handleField kind fields "channel_id"
      let closed ← handleField kind fields "closed"
      return (← expectInt channel, ← expectBool closed)
    else .error (mismatch s!"expected {kind}" value)
  | _ => .error (mismatch s!"expected {kind}" value)

def streamValue (collectError channelId : VmValue) : VmValue :=
  .struct "Stream" [("items", .list []), ("collect_error", collectError),
    ("channel_id", channelId), ("stream_id", .optionNone)]

def expectString : VmValue → Except EvalError String
  | .string text => .ok text
  | other => .error (mismatch "reg VM expected String" other)

/-- The payload of an optional field that holds an option. -/
def optionField {α : Type} (fields : List (String × VmValue)) (field : String)
    (view : VmValue → Except EvalError α) : Except EvalError (Option α) :=
  match fields.lookup field with
  | none | some .optionNone => .ok none
  | some (.optionSome value) => (view value).map some
  | some other => .error (mismatch "expected Option" other)

def expectStream : VmValue → Except EvalError VmStreamState
  | .struct "Stream" fields => do
    expectList (← handleField "Stream" fields "items")
    let collectError ← optionField fields "collect_error" expectString
    let channelId ← optionField fields "channel_id" expectInt
    return ⟨collectError, channelId⟩
  | other => .error (mismatch "expected Stream" other)

end VmValue

open VmValue in
/-- The interpreter's view of these values; which closures have plans is left open. -/
def valueEnvironment (maxDepth : Nat) (hasPurePlan : VmClosure VmValue → Nat → Bool)
    (compilesStage : String → VmClosure VmValue → Bool) : Environment VmValue where
  maxDepth := maxDepth
  unit := .unit
  isUnit | .unit => true | _ => false
  int := .int
  display := display
  entryArgs args := .list (args.map .string)
  task := taskHandleValue
  asTaskHandle := asTaskHandle
  closure := .closure
  asClosure | .closure handle => some handle | _ => none
  asStruct | .struct name fields => some (name, fields) | _ => none
  tryView := tryView
  expectList := expectList
  expectInt := expectInt
  hasPurePlan := hasPurePlan
  compilesStage := compilesStage
  some := .optionSome
  none := .optionNone
  ok := valueOk
  err := valueErr
  list := .list
  channelError := channelErrorValue
  channel := channelValue
  expectChannel := expectChannel
  sender sender := endValue "Sender" sender.channelId sender.closed
  expectSender value := (expectEnd "Sender" value).map fun (channel, closed) => ⟨channel, closed⟩
  receiver receiver := endValue "Receiver" receiver.channelId receiver.closed
  expectReceiver value :=
    (expectEnd "Receiver" value).map fun (channel, closed) => ⟨channel, closed⟩
  streamOfChannel channel := streamValue .optionNone (.optionSome (.int channel))
  streamOfError message := streamValue (.optionSome (.string message)) .optionNone
  expectStream := expectStream

/-! ## A host for loads, moves and constructors -/

/-- The fields of a struct or variant instruction with their values. -/
def namedOperands (data : Fields) (operands : List VmValue) : List (String × VmValue) :=
  let names := ((SortedMap.get "fields" data).bind Value.asArray).getD []
  (names.filterMap fun field => (field.asArray.bind List.head?).bind Value.asStr).zip operands

/-- The type name of a struct or variant instruction. -/
def layoutName (data : Fields) : String :=
  (((SortedMap.get "layout" data).bind fun layout => layout.get "name").bind Value.asStr).getD ""

def unsupported {α : Type} (name : String) : Except EvalError α :=
  .error (runtime s!"unsupported operation `{name}`.")

def basicPlain (opcode : String) (data : Fields) (operands : List VmValue) :
    Except EvalError VmValue :=
  match opcode, operands with
  | "LoadUnit", _ => .ok .unit
  | "LoadNone", _ => .ok .optionNone
  | "LoadInt", _ =>
    match SortedMap.get "value" data with
    | some (.number number) => .ok (.int (number.asI64.getD 0))
    | _ => unsupported opcode
  | "LoadString", _ =>
    match (SortedMap.get "value" data).bind Value.asStr with
    | some text => .ok (.string text)
    | none => unsupported opcode
  | "Move", [value] => .ok value
  | "MakeSome", [value] => .ok (.optionSome value)
  | "UnwrapVariantValue", [.variant name fields] =>
    if (SortedMap.get "expected" data).bind Value.asStr = some name then
      match fields.lookup "value" with
      | some value => .ok value
      | none => .error (runtime s!"reg VM `{name}` variant is missing value.")
    else unsupported opcode
  | "MakeStruct", _ => .ok (.struct (layoutName data) (namedOperands data operands))
  | "MakeVariant", _ => .ok (.variant (layoutName data) (namedOperands data operands))
  | _, _ => unsupported opcode

/-- A host without limits whose state is the captured output. It knows the loads,
moves and constructors and `Output.write`, and refuses the rest. -/
def basicHost : Host VmValue String Empty
  | _, .tick, output | _, .accountBytes _, output | _, .accountResult _, output
  | _, .refreshLiveMemory _, output | _, .chargeProviderCall, output
  | _, .chargeIntrinsicCall, output => (.ok (), output)
  | _, .hasAllocationBudget, output | _, .cancelled _, output => (.ok false, output)
  | _, .plain opcode data operands _, output =>
    ((basicPlain opcode data operands).map fun value => ⟨value, value⟩, output)
  | _, .jumpIf opcode _ _, output | _, .matchCase opcode _ _, output => (unsupported opcode, output)
  | _, .matchGet opcode _ _, output => (unsupported opcode, output)
  | _, .runPipeline _ _ _ _, output => (.ok none, output)
  | _, .callback opcode _, output => (unsupported opcode, output)
  | _, .resume next _, _ => nomatch next
  | _, .intrinsic "OutputWrite" [some (.string text)], output =>
    (.ok (.done .unit), output ++ text ++ "\n")
  | _, .intrinsic name _, output => (unsupported name, output)
  | _, .typedIntrinsic name _ _, output => (unsupported name, output)
  | _, .streamItems name _, output => (unsupported name, output)

/-! ## Small programs -/

def loadInt (dst : Nat) (value : UInt64) : RegInstr :=
  .plain "LoadInt" [] none none (some dst) [("value", .number (.posInt value))]

/-- The payload of an `Ok`. -/
def unwrapOk (dst src : Nat) : RegInstr :=
  .plain "UnwrapVariantValue" [src] none none (some dst) [("expected", .string "Ok")]

/-- A function without captures, by its position. -/
def smallFunction (ordinal params regs : Nat) (code : List RegInstr) : RegFunction :=
  { ordinal := ordinal, params := params, captures := 0, regs := regs, localRegs := [], code := code }

/-- A unit whose first function is `main`. -/
def smallUnit (functions : List RegFunction) : RegUnit :=
  { functions := functions, functionIds := [("main", 0)], resourceDropFunctions := [], types := [],
    nativeSignatures := [], closureIdentityObservable := false }

/-- The environment of programs whose closures have no plans. -/
def smallEnvironment : Environment VmValue := valueEnvironment 64 (fun _ _ => false) fun _ _ => false

end RSScript.Vm
