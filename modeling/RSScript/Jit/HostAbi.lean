import Mathlib.Init

/-!
# Host helpers of generated code

The table of `host_helpers!`: for each helper a generated call can name, the
storage classes of its arguments and of its result, what it does to the heap, and
whether it has a private "found" output. The machine symbols and addresses of the
helpers are left out, since nothing modelled here calls through them.
-/

namespace Jit

/-- Storage class of a register. -/
inductive JitValueType where
  | int | bool | float | handle | flatInt | flatIntMut | flatFloat | flatFloatMut
  deriving DecidableEq, Repr

namespace JitValueType

/-- The `Debug` text of a storage class. -/
def debug : JitValueType → String
  | int => "Int"
  | bool => "Bool"
  | float => "Float"
  | handle => "Handle"
  | flatInt => "FlatInt"
  | flatIntMut => "FlatIntMut"
  | flatFloat => "FlatFloat"
  | flatFloatMut => "FlatFloatMut"

/-- A pointer to a flat list with its length beside it. -/
def isFlatType : JitValueType → Bool
  | flatInt | flatIntMut | flatFloat | flatFloatMut => true
  | int | bool | float | handle => false

/-- An opaque handle or a flat list: no scalar. -/
def isNonscalar : JitValueType → Bool
  | handle => true
  | ty => ty.isFlatType

end JitValueType

inductive HostHeapEffect where
  | readOnly | extendsInputHandles | allocatesResult | mutatesInput | replacesInput
  deriving DecidableEq, Repr

namespace HostHeapEffect

def writesExistingHeap : HostHeapEffect → Bool
  | mutatesInput | replacesInput => true
  | readOnly | extendsInputHandles | allocatesResult => false

end HostHeapEffect

inductive HostResult where
  | exact (ty : JitValueType)
  -- an `i64` word that an `Int` or a `Float` register takes
  | intOrFloatBits
  deriving DecidableEq, Repr

/-- One row of the helper table. -/
structure HostHelperDescriptor where
  name : String
  args : List JitValueType
  result : HostResult
  heapEffect : HostHeapEffect
  foundOut : Bool
  deriving Repr

inductive HostHelper where
  | deadlineExpired | fieldInt | fieldSetInt | fieldSetHandle | fieldSetFloat | listLen
  | listIsEmpty | listGetInt | listSetInt | listSetFloat | listPushInt | listPushHandle
  | listPushFloat | listSortInt | listNewInt | fieldFloat | listGetFloat | closureId
  | closureCapture | fieldClosureId | fieldClosureCapture | fieldHandle | listGetHandle
  | stringFromInt | stringLen | stringConcat | stringSlice | stringPadLeft | stringPadLeftLen
  | stringSplit | stringStartsWith | stringSplitCount | stringLiteral | jsonParse | jsonField
  | jsonFieldInt | bytesLen | bytesSlice | mapInsertInt | mapInsertHandleKeyInt | mapInsertFloat
  | mapGetInt | mapGetMatchInt | mapGetMatchFloat | mapContainsInt | mapLen | mapIsEmpty
  | setInsertInt | setInsertHandle | setLen | setIsEmpty | sortedSetInsertInt
  | sortedSetInsertHandle | sortedSetContainsInt | sortedSetIsEmpty | sortedMapInsertInt
  | sortedMapInsertHandleKeyInt | sortedMapGetInt | sortedMapGetFloat | sortedMapContainsKeyInt
  | sortedMapIsEmpty | sortedMapLen | dequeLen | dequeIsEmpty | dequePushBackInt
  | dequePushBackHandle | dequePushBackFloat | dequePushFrontInt | dequePushFrontHandle
  | dequePushFrontFloat | dequePopFrontInt | dequePopFrontFloat | dequePopBackFloat
  | dequePopBackInt

namespace HostHelper

def descriptor : HostHelper → HostHelperDescriptor
  | .deadlineExpired => ⟨"DeadlineExpired", [], .exact .bool, .readOnly, false⟩
  | .fieldInt => ⟨"FieldInt", [.handle, .int], .exact .int, .readOnly, false⟩
  | .fieldSetInt => ⟨"FieldSetInt", [.handle, .int, .int], .exact .handle, .replacesInput, false⟩
  | .fieldSetHandle =>
    ⟨"FieldSetHandle", [.handle, .int, .handle], .exact .handle, .replacesInput, false⟩
  | .fieldSetFloat =>
    ⟨"FieldSetFloat", [.handle, .int, .float], .exact .handle, .replacesInput, false⟩
  | .listLen => ⟨"ListLen", [.handle], .exact .int, .readOnly, false⟩
  | .listIsEmpty => ⟨"ListIsEmpty", [.handle], .exact .bool, .readOnly, false⟩
  | .listGetInt => ⟨"ListGetInt", [.handle, .int], .exact .int, .readOnly, false⟩
  | .listSetInt => ⟨"ListSetInt", [.handle, .int, .int], .exact .int, .mutatesInput, false⟩
  | .listSetFloat => ⟨"ListSetFloat", [.handle, .int, .float], .exact .int, .mutatesInput, false⟩
  | .listPushInt => ⟨"ListPushInt", [.handle, .int], .exact .int, .mutatesInput, false⟩
  | .listPushHandle => ⟨"ListPushHandle", [.handle, .handle], .exact .int, .mutatesInput, false⟩
  | .listPushFloat => ⟨"ListPushFloat", [.handle, .float], .exact .int, .mutatesInput, false⟩
  | .listSortInt => ⟨"ListSortInt", [.handle], .exact .int, .mutatesInput, false⟩
  | .listNewInt => ⟨"ListNewInt", [], .exact .handle, .allocatesResult, false⟩
  | .fieldFloat => ⟨"FieldFloat", [.handle, .int], .exact .float, .readOnly, false⟩
  | .listGetFloat => ⟨"ListGetFloat", [.handle, .int], .exact .float, .readOnly, false⟩
  | .closureId => ⟨"ClosureId", [.handle], .exact .int, .readOnly, false⟩
  | .closureCapture => ⟨"ClosureCapture", [.handle, .int], .intOrFloatBits, .readOnly, false⟩
  | .fieldClosureId => ⟨"FieldClosureId", [.handle, .int], .exact .int, .readOnly, false⟩
  | .fieldClosureCapture =>
    ⟨"FieldClosureCapture", [.handle, .int, .int], .intOrFloatBits, .readOnly, false⟩
  | .fieldHandle => ⟨"FieldHandle", [.handle, .int], .exact .handle, .extendsInputHandles, false⟩
  | .listGetHandle =>
    ⟨"ListGetHandle", [.handle, .int], .exact .handle, .extendsInputHandles, false⟩
  | .stringFromInt => ⟨"StringFromInt", [.int], .exact .handle, .allocatesResult, false⟩
  | .stringLen => ⟨"StringLen", [.handle], .exact .int, .readOnly, false⟩
  | .stringConcat => ⟨"StringConcat", [.handle, .handle], .exact .handle, .allocatesResult, false⟩
  | .stringSlice => ⟨"StringSlice", [.handle, .int, .int], .exact .handle, .allocatesResult, false⟩
  | .stringPadLeft =>
    ⟨"StringPadLeft", [.handle, .int, .handle], .exact .handle, .allocatesResult, false⟩
  | .stringPadLeftLen =>
    ⟨"StringPadLeftLen", [.handle, .int, .handle], .exact .int, .readOnly, false⟩
  | .stringSplit => ⟨"StringSplit", [.handle, .handle], .exact .handle, .allocatesResult, false⟩
  | .stringStartsWith => ⟨"StringStartsWith", [.handle, .handle], .exact .bool, .readOnly, false⟩
  | .stringSplitCount => ⟨"StringSplitCount", [.handle, .handle], .exact .int, .readOnly, false⟩
  | .stringLiteral => ⟨"StringLiteral", [.int], .exact .handle, .allocatesResult, false⟩
  | .jsonParse => ⟨"JsonParse", [.handle], .exact .handle, .allocatesResult, false⟩
  | .jsonField => ⟨"JsonField", [.handle, .handle], .exact .handle, .allocatesResult, false⟩
  | .jsonFieldInt => ⟨"JsonFieldInt", [.handle, .handle], .exact .int, .readOnly, false⟩
  | .bytesLen => ⟨"BytesLen", [.handle], .exact .int, .readOnly, false⟩
  | .bytesSlice => ⟨"BytesSlice", [.handle, .int, .int], .exact .handle, .allocatesResult, false⟩
  | .mapInsertInt => ⟨"MapInsertInt", [.handle, .int, .int], .exact .int, .mutatesInput, false⟩
  | .mapInsertHandleKeyInt =>
    ⟨"MapInsertHandleKeyInt", [.handle, .handle, .int], .exact .int, .mutatesInput, false⟩
  | .mapInsertFloat =>
    ⟨"MapInsertFloat", [.handle, .int, .float], .exact .int, .mutatesInput, false⟩
  | .mapGetInt => ⟨"MapGetInt", [.handle, .int], .exact .int, .readOnly, false⟩
  | .mapGetMatchInt => ⟨"MapGetMatchInt", [.handle, .int], .exact .int, .readOnly, true⟩
  | .mapGetMatchFloat => ⟨"MapGetMatchFloat", [.handle, .int], .exact .float, .readOnly, true⟩
  | .mapContainsInt => ⟨"MapContainsInt", [.handle, .int], .exact .bool, .readOnly, false⟩
  | .mapLen => ⟨"MapLen", [.handle], .exact .int, .readOnly, false⟩
  | .mapIsEmpty => ⟨"MapIsEmpty", [.handle], .exact .bool, .readOnly, false⟩
  | .setInsertInt => ⟨"SetInsertInt", [.handle, .int], .exact .bool, .mutatesInput, false⟩
  | .setInsertHandle => ⟨"SetInsertHandle", [.handle, .handle], .exact .bool, .mutatesInput, false⟩
  | .setLen => ⟨"SetLen", [.handle], .exact .int, .readOnly, false⟩
  | .setIsEmpty => ⟨"SetIsEmpty", [.handle], .exact .bool, .readOnly, false⟩
  | .sortedSetInsertInt =>
    ⟨"SortedSetInsertInt", [.handle, .int], .exact .bool, .mutatesInput, false⟩
  | .sortedSetInsertHandle =>
    ⟨"SortedSetInsertHandle", [.handle, .handle], .exact .bool, .mutatesInput, false⟩
  | .sortedSetContainsInt =>
    ⟨"SortedSetContainsInt", [.handle, .int], .exact .bool, .readOnly, false⟩
  | .sortedSetIsEmpty => ⟨"SortedSetIsEmpty", [.handle], .exact .bool, .readOnly, false⟩
  | .sortedMapInsertInt =>
    ⟨"SortedMapInsertInt", [.handle, .int, .int], .exact .int, .mutatesInput, false⟩
  | .sortedMapInsertHandleKeyInt =>
    ⟨"SortedMapInsertHandleKeyInt", [.handle, .handle, .int], .exact .int, .mutatesInput, false⟩
  | .sortedMapGetInt => ⟨"SortedMapGetInt", [.handle, .int], .exact .int, .readOnly, true⟩
  | .sortedMapGetFloat => ⟨"SortedMapGetFloat", [.handle, .int], .exact .float, .readOnly, true⟩
  | .sortedMapContainsKeyInt =>
    ⟨"SortedMapContainsKeyInt", [.handle, .int], .exact .bool, .readOnly, false⟩
  | .sortedMapIsEmpty => ⟨"SortedMapIsEmpty", [.handle], .exact .bool, .readOnly, false⟩
  | .sortedMapLen => ⟨"SortedMapLen", [.handle], .exact .int, .readOnly, false⟩
  | .dequeLen => ⟨"DequeLen", [.handle], .exact .int, .readOnly, false⟩
  | .dequeIsEmpty => ⟨"DequeIsEmpty", [.handle], .exact .bool, .readOnly, false⟩
  | .dequePushBackInt => ⟨"DequePushBackInt", [.handle, .int], .exact .int, .mutatesInput, false⟩
  | .dequePushBackHandle =>
    ⟨"DequePushBackHandle", [.handle, .handle], .exact .int, .mutatesInput, false⟩
  | .dequePushBackFloat =>
    ⟨"DequePushBackFloat", [.handle, .float], .exact .int, .mutatesInput, false⟩
  | .dequePushFrontInt => ⟨"DequePushFrontInt", [.handle, .int], .exact .int, .mutatesInput, false⟩
  | .dequePushFrontHandle =>
    ⟨"DequePushFrontHandle", [.handle, .handle], .exact .int, .mutatesInput, false⟩
  | .dequePushFrontFloat =>
    ⟨"DequePushFrontFloat", [.handle, .float], .exact .int, .mutatesInput, false⟩
  | .dequePopFrontInt => ⟨"DequePopFrontInt", [.handle], .exact .int, .mutatesInput, false⟩
  | .dequePopFrontFloat => ⟨"DequePopFrontFloat", [.handle], .exact .float, .mutatesInput, false⟩
  | .dequePopBackFloat => ⟨"DequePopBackFloat", [.handle], .exact .float, .mutatesInput, false⟩
  | .dequePopBackInt => ⟨"DequePopBackInt", [.handle], .exact .int, .mutatesInput, false⟩

def debug (helper : HostHelper) : String := helper.descriptor.name

def heapEffect (helper : HostHelper) : HostHeapEffect := helper.descriptor.heapEffect

/-- The helper hashes a key and charges for its size itself. -/
def chargesDataDependentWork : HostHelper → Bool
  | mapInsertHandleKeyInt | setInsertHandle => true
  | _ => false

end HostHelper

end Jit
