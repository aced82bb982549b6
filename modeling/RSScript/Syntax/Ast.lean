import RSScript.Syntax.Patterns

/-!
# Expressions and statements

The syntax tree of function bodies. Source positions, and the marks the parser
leaves on malformed text, are left out. So are `async` and `mut` of a `let`, `async` of a
`for` and the captures of a closure, which no function modelled over these trees reads:
nothing is said here of when an `async let` runs.
-/

namespace RSScript.Syntax

inductive BinaryOp where
  | add | subtract | multiply | divide | modulo
  | bitAnd | bitOr | bitXor | shiftLeft | shiftRight
  | equal | notEqual | less | lessEqual | greater | greaterEqual
  | logicalAnd | logicalOr
  deriving DecidableEq, Repr

/-- `&&` and `||`, whose right operand is evaluated on demand. -/
def BinaryOp.isShortCircuit : BinaryOp → Bool
  | logicalAnd | logicalOr => true
  | _ => false

inductive LetKind where
  | managed
  | local
  deriving DecidableEq, Repr

/-- A type as written: `fresh Map<K, owned Fn(read A) -> B>`. -/
inductive TypeRef where
  | mk (name : String) (args : List TypeRef) (isFresh isNoescape isOwned : Bool)
      (fnParams : List TypeRef) (fnParamEffects : List (Option DataEffect))
      (fnReturn : Option TypeRef)

mutual

inductive Expr where
  | ident (name : String)
  | number (text : String)
  | string (text : String)
  | charLiteral (text : String)
  | multilineString (text : String)
  | objectLiteral (fields : List (String × Expr))
  | mapLiteral (entries : List (Expr × Expr))
  | arrayLiteral (items : List Expr)
  | binary (op : BinaryOp) (left right : Expr)
  | field (base : Expr) (name : String)
  | index (base index : Expr)
  | call (callee : Callee) (args : List (Option String × Expr))
  | effect (effect : DataEffect) (value : Expr)
  | manage (value : Expr)
  | spawn (value : Expr)
  | await (value : Expr)
  /-- `value?` -/
  | try (value : Expr)
  | closure (params : List String) (body : List Stmt)
  | match (value : Expr) (scrutineeEffect : Option DataEffect) (arms : List MatchArm)
  | unknown

inductive Callee where
  | name (name : String)
  /-- `Namespace.name(..)` -/
  | qualified («namespace» name : String)
  /-- `receiver.method(..)` -/
  | receiverCall (receiver : Expr) (method : String) (effect : Option DataEffect)

inductive Stmt where
  | let (kind : LetKind) (name : String) (annotatedType : Option TypeRef) (value : Option Expr)
      (destructure : Option (List String))
  | return (value : Option Expr)
  | with (resource : Expr) (binding : String) (body : List Stmt)
  | if (condition : Expr) (thenBody : List Stmt) (elseBody : Option (List Stmt))
  | loop (condition : Option Expr) (body : List Stmt)
  | for (binding : String) (iterable : Expr) (body : List Stmt)
  | match (value : Expr) (scrutineeEffect : Option DataEffect) (arms : List MatchArm)
  | taskGroup (body : List Stmt)
  | select (arms : List SelectArm)
  | break
  | continue
  | letElse (pattern : MatchPattern) (value : Expr) (elseBody : List Stmt) (bindingName : String)
  | assign (target value : Expr)
  | expr (value : Expr)
  /-- A statement the parser could not read. -/
  | unknown

inductive MatchArm where
  | mk (pattern : MatchPattern) (guard : Option Expr) (body : List Stmt)

inductive SelectArm where
  | mk (binding : String) (operation : Expr) (body : List Stmt)

end

abbrev Block := List Stmt

end RSScript.Syntax
