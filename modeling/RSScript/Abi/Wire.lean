import Mathlib.Algebra.Ring.Nat
import Mathlib.Data.List.Basic
import RSScript.Abi.Model

/-!
# Wire values

The values that cross a provider boundary, and the table that gives the types of
one linked call their numbers. Records and variants are positional and refer to
types by number only.
-/

namespace RSScript.Abi

/-! ## Equality of types -/

namespace WireType

mutual

def beq : WireType → WireType → Bool
  | .unit, .unit | .bool, .bool | .string, .string | .char, .char | .bytes, .bytes => true
  | .int bits signed, .int bits' signed' => bits == bits' && signed == signed'
  | .float bits, .float bits' => bits == bits'
  | .list element, .list element' => element.beq element'
  | .map key value, .map key' value' => key.beq key' && value.beq value'
  | .option value, .option value' => value.beq value'
  | .result ok error, .result ok' error' => ok.beq ok' && error.beq error'
  | .tuple elements, .tuple elements' => beqAll elements elements'
  | .named package name arguments, .named package' name' arguments' =>
    package == package' && name == name' && beqAll arguments arguments'
  | .resource name, .resource name' | .handle name, .handle name' => name == name'
  | .function parameters effects returned, .function parameters' effects' returned' =>
    beqAll parameters parameters' && effects == effects' && returned.beq returned'
  | .qualified qualifier value, .qualified qualifier' value' =>
    qualifier == qualifier' && value.beq value'
  | _, _ => false

def beqAll : List WireType → List WireType → Bool
  | [], [] => true
  | ty :: types, ty' :: types' => ty.beq ty' && beqAll types types'
  | _, _ => false

end

mutual

theorem beq_iff : (ty other : WireType) → (ty.beq other = true ↔ ty = other)
  | .unit, other | .bool, other | .string, other | .char, other | .bytes, other
  | .int .., other | .float _, other | .resource _, other | .handle _, other => by
    cases other <;> simp [beq]
  | .list element, other | .option element, other | .qualified _ element, other => by
    cases other <;> simp [beq, beq_iff element]
  | .map first second, other | .result first second, other => by
    cases other <;> simp [beq, beq_iff first, beq_iff second]
  | .tuple types, other | .named _ _ types, other => by
    cases other <;> simp [beq, beqAll_iff types, and_assoc]
  | .function parameters _ returned, other => by
    cases other <;> simp [beq, beqAll_iff parameters, beq_iff returned, and_assoc]

theorem beqAll_iff : (types others : List WireType) → (beqAll types others = true ↔ types = others)
  | [], others => by cases others <;> simp [beqAll]
  | ty :: types, others => by cases others <;> simp [beqAll, beq_iff ty, beqAll_iff types]

end

instance : DecidableEq WireType := fun ty other => decidable_of_iff _ (beq_iff ty other)

end WireType

deriving instance DecidableEq for ParameterSignature

deriving instance DecidableEq for FunctionSignature

/-! ## Values -/

/-- The number of a type in the table of a linked call. -/
structure WireTypeId where
  get : UInt32
  deriving DecidableEq, Repr

structure WireVariantId where
  get : UInt32
  deriving DecidableEq, Repr

structure WireResourceTypeId where
  get : UInt32
  deriving DecidableEq, Repr

/-- A resource as it crosses the boundary. -/
structure WireResourceHandle where
  resourceType : WireResourceTypeId
  slot : UInt32
  generation : UInt32
  deriving DecidableEq, Repr

/-- The values of a provider boundary. A float is its bit pattern. -/
inductive WireValue where
  | unit
  | bool (value : Bool)
  | int (value : Int64)
  | float (bits : UInt64)
  | string (text : String)
  | char (value : Char)
  | bytes (value : List UInt8)
  | list (elementType : WireTypeId) (values : List WireValue)
  | map (keyType valueType : WireTypeId) (entries : List (WireValue × WireValue))
  | tuple (values : List WireValue)
  | record (typeId : WireTypeId) (fields : List WireValue)
  | variant (typeId : WireTypeId) (variantId : WireVariantId) (payload : Option WireValue)
  | resource (handle : WireResourceHandle)

/-! ## Layouts and the table of a call -/

structure WireRecordFieldLayout where
  name : String
  ty : WireType
  deriving DecidableEq, Repr

/-- The fields of a record type, in their order. -/
structure WireRecordLayout where
  ty : WireType
  fields : List WireRecordFieldLayout
  deriving DecidableEq, Repr

structure WireVariantCaseLayout where
  name : String
  fields : List WireRecordFieldLayout
  deriving DecidableEq, Repr

/-- The cases of a variant type, in their order. -/
structure WireVariantLayout where
  ty : WireType
  variants : List WireVariantCaseLayout
  deriving DecidableEq, Repr

/-- The types and layouts of one call. Types and resources are numbered by position. -/
structure WireCallTypeTable where
  types : List WireType
  resources : List WireType
  records : List WireRecordLayout
  variants : List WireVariantLayout

namespace WireCallTypeTable

variable (table : WireCallTypeTable)

/-- The position of a type as a 32-bit number. -/
def position (types : List WireType) (ty : WireType) : Option UInt32 :=
  (types.findIdx? (· = ty)).bind fun index =>
    if index < 2 ^ 32 then some (.ofNat index) else none

def typeId (ty : WireType) : Option WireTypeId := (position table.types ty).map WireTypeId.mk

/-- A qualified resource is the resource itself. -/
def resourceTypeId (ty : WireType) : Option WireResourceTypeId :=
  let resource := match ty with
    | .qualified _ value => value
    | other => other
  (position table.resources resource).map WireResourceTypeId.mk

def recordLayout (ty : WireType) : Option WireRecordLayout :=
  table.records.find? fun record => record.ty = ty

def variantLayout (ty : WireType) : Option WireVariantLayout :=
  table.variants.find? fun layout => layout.ty = ty

def optionSomeVariant : WireVariantId := ⟨0⟩

def optionNoneVariant : WireVariantId := ⟨1⟩

def resultOkVariant : WireVariantId := ⟨0⟩

def resultErrVariant : WireVariantId := ⟨1⟩

end WireCallTypeTable

end RSScript.Abi
