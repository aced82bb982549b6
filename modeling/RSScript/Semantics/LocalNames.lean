import RSScript.Semantics.TypeNames
import RSScript.Syntax.Ast
import Mathlib.Data.List.Infix
import Mathlib.Logic.Relation

/-!
# Local names before constants and cases

The lowering to HIR puts the value of a constant, or a payload-free case, in the place of its
name, unless the name is a local. It takes for locals the names in the map of value types,
and enters there only those binders whose type it knows (`shadowed_iff`).
-/

namespace RSScript.Semantics.LocalNames

open Syntax

/-! ### Names and the binders around them -/

/-- What brings names into scope, with what their types are found from. -/
inductive Binder where
  | let (name : String) (annotatedType : Option TypeRef) (value : Option Expr)
  | letElse (pattern : MatchPattern) (value : Expr) (bindingName : String)
  | with (resource : Expr) (binding : String)
  | for (binding : String) (iterable : Expr)
  | arm (value : Expr) (pattern : MatchPattern)
  | select (binding : String) (operation : Expr)
  | closure (params : List String)

/-- A name that is lowered, with the binders around it, the innermost first. -/
structure Use where
  name : String
  scope : List Binder

/-- The binders of a statement that are around the rest of its block. -/
def stmtBinders : Stmt → List Binder
  | .let _ name annotatedType value _ => [.let name annotatedType value]
  | .letElse pattern value _ bindingName => [.letElse pattern value bindingName]
  | _ => []

mutual

/-- The names an expression mentions, each with the binders around it. -/
def uses (scope : List Binder) : Expr → List Use
  | .ident name => [⟨name, scope⟩]
  | .objectLiteral fields => usesFields scope fields
  | .mapLiteral entries => usesEntries scope entries
  | .arrayLiteral items => usesItems scope items
  | .binary _ left right | .index left right => uses scope left ++ uses scope right
  | .call callee args => usesCallee scope callee ++ usesArgs scope args
  | .field value _ | .effect _ value | .manage value | .spawn value | .await value | .try value =>
    uses scope value
  | .closure params body => usesBlock (.closure params :: scope) body
  | .match value _ arms => uses scope value ++ usesArms scope value arms
  | .number _ | .string _ | .charLiteral _ | .multilineString _ | .unknown => []

def usesCallee (scope : List Binder) : Callee → List Use
  | .receiverCall receiver _ _ => uses scope receiver
  | .name _ | .qualified _ _ => []

def usesFields (scope : List Binder) : List (String × Expr) → List Use
  | [] => []
  | (_, value) :: fields => uses scope value ++ usesFields scope fields

def usesEntries (scope : List Binder) : List (Expr × Expr) → List Use
  | [] => []
  | (key, value) :: entries => uses scope key ++ uses scope value ++ usesEntries scope entries

def usesItems (scope : List Binder) : List Expr → List Use
  | [] => []
  | item :: items => uses scope item ++ usesItems scope items

def usesArgs (scope : List Binder) : List (Option String × Expr) → List Use
  | [] => []
  | (_, value) :: args => uses scope value ++ usesArgs scope args

def usesOptional (scope : List Binder) : Option Expr → List Use
  | none => []
  | some value => uses scope value

def usesArms (scope : List Binder) (value : Expr) : List MatchArm → List Use
  | [] => []
  | .mk pattern guard body :: arms =>
    usesOptional (.arm value pattern :: scope) guard ++
      usesBlock (.arm value pattern :: scope) body ++ usesArms scope value arms

def usesSelectArms (scope : List Binder) : List SelectArm → List Use
  | [] => []
  | .mk binding operation body :: arms =>
    uses scope operation ++ usesBlock (.select binding operation :: scope) body ++
      usesSelectArms scope arms

def usesBlock (scope : List Binder) : List Stmt → List Use
  | [] => []
  | statement :: rest => usesStmt scope statement ++ usesBlock (stmtBinders statement ++ scope) rest

def usesOptionalBlock (scope : List Binder) : Option (List Stmt) → List Use
  | none => []
  | some body => usesBlock scope body

def usesStmt (scope : List Binder) : Stmt → List Use
  | .let _ _ _ value _ | .return value => usesOptional scope value
  | .letElse _ value elseBody _ => uses scope value ++ usesBlock scope elseBody
  | .with resource binding body =>
    uses scope resource ++ usesBlock (.with resource binding :: scope) body
  | .if condition thenBody elseBody =>
    uses scope condition ++ usesBlock scope thenBody ++ usesOptionalBlock scope elseBody
  | .loop condition body => usesOptional scope condition ++ usesBlock scope body
  | .for binding iterable body =>
    uses scope iterable ++ usesBlock (.for binding iterable :: scope) body
  | .match value _ arms => uses scope value ++ usesArms scope value arms
  | .taskGroup body => usesBlock scope body
  | .select arms => usesSelectArms scope arms
  | .assign target value => uses scope target ++ uses scope value
  | .expr value => uses scope value
  | .break | .continue | .unknown => []

end

/-! ### Declarations and types -/

def isLiteral : Expr → Bool
  | .number _ | .string _ | .multilineString _ => true
  | .ident name => name = "true" || name = "false"
  | _ => false

/-- The constants and cases that names can stand for. -/
structure Declarations where
  constValues : List (String × Expr)
  /-- The cases of sum types, with the names of their fields. -/
  sumVariants : List (String × List String)
  /-- The checker takes no other initializer. -/
  literals : ∀ entry ∈ constValues, isLiteral entry.2

namespace Declarations

variable (declarations : Declarations)

def isNullaryEnumVariant (name : String) : Bool :=
  let name := typeRootName name
  name = "None" || declarations.sumVariants.lookup name = some []

def isDeclaredCaseName (name : String) : Bool :=
  name ∈ ["None", "Some", "Ok", "Err"] || (declarations.sumVariants.lookup name).isSome

/-- A bare name that cannot be a case binds the value. -/
def resolveBareArmPattern : MatchPattern → MatchPattern
  | .variant name [] =>
    if '.' ∉ name.toList ∧ name.toList.head?.any Char.isUpper = false ∧
        declarations.isDeclaredCaseName name = false then .binding name
    else .variant name []
  | pattern => pattern

/-- The names that lowering replaces. -/
def replaces (name : String) : Bool :=
  (declarations.constValues.lookup name).isSome || declarations.isNullaryEnumVariant name

/-- A constant whose value is a name. -/
def Renames (name inner : String) : Prop :=
  declarations.constValues.lookup name = some (.ident inner)

end Declarations

/-- The parts of type inference that say which names get a type. -/
structure TypeInference (Ty : Type) where
  ofTypeRef : TypeRef → Ty
  ofProtocol : String → Ty
  inferHirExprType : List (String × Ty) → Expr → Option Ty
  /-- The type of the items of an iterable. An `async for` asks the stream for its items and
  a plain one the collection; the tree does not tell them apart, so one function answers
  for both. -/
  itemType : Ty → Option Ty
  matchPatternBindingType : MatchPattern → Option Ty → Option Ty
  matchPatternBindingTypes : MatchPattern → Option Ty → List (String × Ty)

structure FunctionDecl where
  params : List (String × TypeRef)
  /-- Type parameters bounded by a protocol. -/
  bounds : List (String × String)
  body : Block

/-! ### What lowering takes for a local -/

section Lowering

variable {Ty : Type} (declarations : Declarations) (inference : TypeInference Ty)

def typed (name : String) (ty : Option Ty) : List (String × Ty) :=
  ty.toList.map (name, ·)

/-- The value types that a binder adds to those around it. -/
def Binder.entries (types : List (String × Ty)) : Binder → List (String × Ty)
  | .let name annotatedType value =>
    typed name (annotatedType.map inference.ofTypeRef <|>
      value.bind (inference.inferHirExprType types))
  | .letElse pattern value bindingName =>
    if bindingName = "" then []
    else typed bindingName
      (inference.matchPatternBindingType pattern (inference.inferHirExprType types value))
  | .with resource binding => typed binding (inference.inferHirExprType types resource)
  | .for binding iterable =>
    typed binding ((inference.inferHirExprType types iterable).bind inference.itemType)
  | .arm value pattern => inference.matchPatternBindingTypes
      (declarations.resolveBareArmPattern pattern) (inference.inferHirExprType types value)
  | .select binding operation =>
    if binding = "_" then [] else typed binding (inference.inferHirExprType types operation)
  -- the parameters of a closure are not entered
  | .closure _ => []

/-- The names that a binder binds. -/
def Binder.names : Binder → List String
  | .let name _ _ | .with _ name | .for name _ => [name]
  | .letElse _ _ bindingName => if bindingName = "" then [] else [bindingName]
  | .arm _ pattern => (declarations.resolveBareArmPattern pattern).bindingNames
  | .select binding _ => if binding = "_" then [] else [binding]
  | .closure params => params

def protocolBoundKey (typeParam : String) : String :=
  "__protocol_bound__" ++ typeParam

namespace FunctionDecl

variable (function : FunctionDecl)

/-- The value types at a place, the last entered first. -/
def valueTypes : List Binder → List (String × Ty)
  | [] => function.bounds.map (fun bound => (protocolBoundKey bound.1, inference.ofProtocol bound.2))
      ++ function.params.map fun param => (param.1, inference.ofTypeRef param.2)
  | binder :: scope =>
    binder.entries declarations inference (valueTypes scope) ++ valueTypes scope

/-- The names bound at a place. -/
def bound (scope : List Binder) : List String :=
  function.params.map Prod.fst ++ scope.flatMap (Binder.names declarations)

end FunctionDecl

/-- What lowering makes of a name. -/
inductive LoweredIdent where
  | literal (value : Expr)
  | case (name : String)
  | ident (name : String)

/-- What a name becomes. The value of a constant is lowered in its place, at the same locals;
where constants are each other's values this does not end. -/
def lowerIdent (locals : List String) : Nat → String → Option LoweredIdent
  | 0, _ => none
  | fuel + 1, name =>
    if name ∈ locals then some (.ident name)
    else match declarations.constValues.lookup name with
      | some (.ident inner) => lowerIdent locals fuel inner
      | some value => some (.literal value)
      | none => some (if declarations.isNullaryEnumVariant name then .case name else .ident name)

/-- Every name of the body that is bound at its place is lowered as a local, and every other one
as if there were no locals. -/
def Shadowed (function : FunctionDecl) : Prop :=
  ∀ use ∈ usesBlock [] function.body, ∀ fuel,
    lowerIdent declarations ((function.valueTypes declarations inference use.scope).map Prod.fst)
        fuel use.name =
      lowerIdent declarations
        (if use.name ∈ function.bound declarations use.scope then [use.name] else []) fuel use.name

/-- The name is the key of a protocol bound, that of a parameter, or one that a binder around the
place enters. -/
def Entered (function : FunctionDecl) (scope : List Binder) (name : String) : Prop :=
  (∃ bound ∈ function.bounds, protocolBoundKey bound.1 = name) ∨
    name ∈ function.params.map Prod.fst ∨ ∃ binder outer, binder :: outer <:+ scope ∧
      name ∈ (binder.entries declarations inference
        (function.valueTypes declarations inference outer)).map Prod.fst

variable {declarations inference}

theorem mem_valueTypes : name ∈ (function.valueTypes declarations inference scope).map Prod.fst ↔
      Entered declarations inference function scope name := by
  induction scope with
  | nil => simp [FunctionDecl.valueTypes, Entered]
  | cons binder scope ih =>
    rw [FunctionDecl.valueTypes, List.map_append, List.mem_append, ih, Entered, Entered]
    simp only [List.suffix_cons_iff, List.cons.injEq]
    constructor
    · rintro (hname | hbound | hparam | ⟨inner, outer, hsuffix, hname⟩)
      · exact .inr (.inr ⟨binder, scope, .inl ⟨rfl, rfl⟩, hname⟩)
      · exact .inl hbound
      · exact .inr (.inl hparam)
      · exact .inr (.inr ⟨inner, outer, .inr hsuffix, hname⟩)
    · rintro (hbound | hparam | ⟨inner, outer, ⟨rfl, rfl⟩ | hsuffix, hname⟩)
      · exact .inr (.inl hbound)
      · exact .inr (.inr (.inl hparam))
      · exact .inl hname
      · exact .inr (.inr (.inr ⟨inner, outer, hsuffix, hname⟩))

theorem lowerIdent_local (h : name ∈ locals) :
    lowerIdent declarations locals (fuel + 1) name = some (.ident name) := by
  simp [lowerIdent, h]

theorem lowerIdent_of_not_replaces (h : ¬ declarations.replaces name) :
    lowerIdent declarations locals (fuel + 1) name = some (.ident name) := by
  cases hvalue : declarations.constValues.lookup name <;>
    simp_all [lowerIdent, Declarations.replaces, -List.lookup_eq_none_iff]

/-- One step is enough to see whether a name is replaced. -/
theorem lowerIdent_one : lowerIdent declarations locals 1 name = some (.ident name) ↔
    (declarations.replaces name → name ∈ locals) := by
  unfold lowerIdent Declarations.replaces
  by_cases h : name ∈ locals
  · simp [h]
  · cases declarations.constValues.lookup name with
    | none => cases declarations.isNullaryEnumVariant name <;> simp [h]
    | some value => cases value <;> simp [h, lowerIdent]

theorem lowered_bound_iff : (∀ fuel, lowerIdent declarations locals fuel name =
    lowerIdent declarations [name] fuel name) ↔ (declarations.replaces name → name ∈ locals) := by
  refine ⟨fun h => lowerIdent_one.mp ?_, fun h fuel => ?_⟩
  · rw [h 1, lowerIdent_local List.mem_cons_self]
  · cases fuel with
    | zero => rfl
    | succ fuel =>
      rw [lowerIdent_local List.mem_cons_self]
      by_cases hname : declarations.replaces name
      · exact lowerIdent_local (h hname)
      · exact lowerIdent_of_not_replaces hname

/-- A constant keeps its own value if and only if no name that its value leads to is captured. -/
theorem lowered_free_iff : (∀ fuel, lowerIdent declarations locals fuel name =
    lowerIdent declarations [] fuel name) ↔
      ∀ inner, Relation.ReflTransGen declarations.Renames name inner →
        declarations.replaces inner → inner ∉ locals := by
  constructor
  · intro h inner hreach
    induction hreach using Relation.ReflTransGen.head_induction_on with
    | refl =>
      intro hreplaces hlocal
      have hone := (h 1).symm.trans (lowerIdent_local hlocal)
      exact List.not_mem_nil (lowerIdent_one.mp hone hreplaces)
    | @head name next hstep _ ih =>
      refine ih fun fuel => ?_
      have hnext := h (fuel + 1)
      have hzero := h 1
      by_cases hlocal : name ∈ locals <;>
        simp_all [lowerIdent, Declarations.Renames]
  · intro h fuel
    induction fuel generalizing name with
    | zero => rfl
    | succ fuel ih =>
      by_cases hreplaces : declarations.replaces name
      · simp only [lowerIdent, if_neg (h name .refl hreplaces), List.not_mem_nil, if_false]
        split
        · exact ih fun last hreach => h last (.head ‹_› hreach)
        · rfl
        · rfl
      · rw [lowerIdent_of_not_replaces hreplaces, lowerIdent_of_not_replaces hreplaces]

end Lowering

/-- Local names shadow constants and cases, and nothing else does, if and only if each name of a
constant or case that is bound where it is used is entered there, and of each one that is not
bound neither it nor a name that its value leads to is. -/
theorem shadowed_iff {Ty : Type} (declarations : Declarations) (inference : TypeInference Ty)
    (function : FunctionDecl) :
    Shadowed declarations inference function ↔
      ∀ use ∈ usesBlock [] function.body,
        if use.name ∈ function.bound declarations use.scope then
          declarations.replaces use.name → Entered declarations inference function use.scope use.name
        else ∀ inner, Relation.ReflTransGen declarations.Renames use.name inner →
          declarations.replaces inner → ¬ Entered declarations inference function use.scope inner := by
  refine forall₂_congr fun use _ => ?_
  simp only [← mem_valueTypes]
  split
  · exact lowered_bound_iff
  · exact lowered_free_iff

/-- Types of literals and of names. -/
def literalTypes : TypeInference String where
  ofTypeRef | .mk name _ _ _ _ _ _ _ => name
  ofProtocol := id
  inferHirExprType types
    | .number _ => some "Int"
    | .string _ => some "String"
    | .ident name => types.lookup name
    | _ => none
  itemType _ := none
  matchPatternBindingType _ _ := none
  matchPatternBindingTypes _ _ := []

/-- `const LIMIT = 10`, and a closure with a parameter of that name: its body is the constant. -/
theorem closureParameter_replaced :
    ¬ Shadowed ⟨[("LIMIT", .number "10")], [], by simp [isLiteral]⟩ literalTypes
      ⟨[], [], [.expr (.closure ["LIMIT"] [.expr (.ident "LIMIT")])]⟩ := by
  intro h
  have hlowered := h ⟨"LIMIT", [.closure ["LIMIT"]]⟩ (by simp [usesBlock, usesStmt, uses]) 1
  simp [lowerIdent, FunctionDecl.valueTypes, FunctionDecl.bound, Binder.entries, Binder.names]
    at hlowered

end RSScript.Semantics.LocalNames
