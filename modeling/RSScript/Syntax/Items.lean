import RSScript.Syntax.AwaitHoist

/-!
# Items and programs

The declarations of a program, each with the file it stands in. Of a source position
only the file is kept.
-/

namespace RSScript.Syntax

structure Param where
  name : String
  effect : Option DataEffect
  ty : TypeRef
  default : Option Expr

structure ModuleDecl where
  path : List String
  file : String
  deriving DecidableEq, Repr

structure UseDecl where
  path : List String
  /-- `use a.b as name`. The keyword is `alias` in the source. -/
  localAlias : Option String
  glob : Bool
  file : String
  deriving DecidableEq, Repr

structure FieldDecl where
  name : String
  ty : TypeRef

structure TypeDecl where
  name : String
  isPublic : Bool
  fields : List FieldDecl
  dropBody : Option Block
  file : String

structure SumVariant where
  name : String
  fields : List FieldDecl

structure SumTypeDecl where
  name : String
  variants : List SumVariant
  isPublic : Bool
  file : String

structure TypeAliasDecl where
  name : String
  target : TypeRef
  isPublic : Bool
  file : String

structure ConstDecl where
  name : String
  annotatedType : Option TypeRef
  value : Expr
  isPublic : Bool
  file : String

structure FunctionDecl where
  name : String
  isPublic : Bool
  isAsync : Bool
  hasBody : Bool
  params : List Param
  returnTy : Option TypeRef
  body : Block
  file : String

/-- The items that the modelled passes look at. -/
inductive Item where
  | module (decl : ModuleDecl)
  | use (decl : UseDecl)
  | type (decl : TypeDecl)
  | sumType (decl : SumTypeDecl)
  | typeAlias (decl : TypeAliasDecl)
  | const (decl : ConstDecl)
  | function (decl : FunctionDecl)

structure ProtocolDecl where
  name : String
  file : String
  deriving DecidableEq, Repr

structure ProtocolImplMapping where
  method : String
  target : String
  deriving DecidableEq, Repr

structure ProtocolImpl where
  protocol : String
  typeName : String
  mappings : List ProtocolImplMapping
  file : String
  deriving DecidableEq, Repr

/-- A parsed program, or several merged into one. -/
structure Program where
  protocols : List ProtocolDecl
  protocolImpls : List ProtocolImpl
  items : List Item

/-- Change the functions of a program. -/
def Program.mapFunctions (f : FunctionDecl → FunctionDecl) (program : Program) : Program :=
  { program with
    items := program.items.map fun item =>
      match item with
      | .function decl => .function (f decl)
      | item => item }

/-- `hoist_async_awaits` -/
def Program.hoistAsyncAwaits (program : Program) : Program :=
  program.mapFunctions fun decl =>
    if decl.isAsync then { decl with body := Syntax.hoistAsyncAwaits decl.body } else decl

end RSScript.Syntax
