/-!
# The ABI model

The types artifacts and providers exchange: wire types, data effects, function
signatures and the external imports that carry them.

How a signature hash is computed is not modelled: it is a text that is compared.
-/

namespace RSScript.Abi

/-- How a callee may use an argument. -/
inductive DataEffect where
  | read
  | mut
  | take
  deriving DecidableEq, Repr

def DataEffect.asStr : DataEffect → String
  | .read => "read"
  | .mut => "mut"
  | .take => "take"

/-- How a value of a type is handed over. -/
inductive WireQualifier where
  | fresh
  | owned
  | noEscape
  deriving DecidableEq, Repr

/-- Canonical, serializable types. -/
inductive WireType where
  | unit
  | bool
  | int (bits : UInt16) (signed : Bool)
  | float (bits : UInt16)
  | string
  | char
  | bytes
  | list (element : WireType)
  | map (key value : WireType)
  | option (value : WireType)
  | result (ok error : WireType)
  | tuple (elements : List WireType)
  | named (package : Option String) (name : String) (arguments : List WireType)
  | resource (name : String)
  | handle (name : String)
  | function (parameters : List WireType) (parameterEffects : List DataEffect) (result : WireType)
  | qualified (qualifier : WireQualifier) (value : WireType)
  deriving Repr

structure ParameterSignature where
  name : String
  effect : DataEffect
  ty : WireType
  retained : Bool
  deriving Repr

/-- The parameters and result of a function, and whether it is asynchronous. -/
structure FunctionSignature where
  parameters : List ParameterSignature
  result : WireType
  asynchronous : Bool
  deriving Repr

/-- A function that an artifact expects from a provider. -/
structure ExternalImport where
  symbol : String
  signature : FunctionSignature
  signatureHash : String
  abiVersion : UInt32
  deriving Repr

end RSScript.Abi
