/-!
# Match patterns

The patterns of `match`, `select` and `let … else`, as the parser builds them.
Source positions are left out: nothing that is said of a pattern depends on
where it stands in the file.
-/

namespace RSScript.Syntax

inductive DataEffect where
  | read
  | mut
  | take
  deriving DecidableEq, Repr

/-- The literals a pattern may test for. The digits of a number and the text of a
string or character are kept as they are written. -/
inductive MatchLiteral where
  | int (digits : String)
  | string (text : String)
  | char (text : String)
  | bool (value : Bool)
  deriving DecidableEq, Repr

mutual

inductive MatchPattern where
  | binding (name : String)
  /-- `Name(p, q)`: the sub-patterns stand for the declared fields in order. -/
  | variant (name : String) (bindings : List MatchPattern)
  /-- `Name { field: p, .. }`. -/
  | struct (name : String) (fields : List MatchFieldPattern) (hasRest : Bool)
  | literal (value : MatchLiteral)
  /-- `[a, ..rest, z]`: `rest` is absent for a pattern of fixed length, and
  `some none` for an unnamed `..`. -/
  | list (leading : List MatchPattern) (rest : Option (Option String))
      (trailing : List MatchPattern)
  | wildcard

inductive MatchFieldPattern where
  | mk (name : String) (binding : Option String) (pattern : Option MatchPattern)
      (effect : Option DataEffect) (ignored : Bool)

end

namespace MatchFieldPattern

def name : MatchFieldPattern → String
  | mk name _ _ _ _ => name

def binding : MatchFieldPattern → Option String
  | mk _ binding _ _ _ => binding

def pattern : MatchFieldPattern → Option MatchPattern
  | mk _ _ pattern _ _ => pattern

def effect : MatchFieldPattern → Option DataEffect
  | mk _ _ _ effect _ => effect

def ignored : MatchFieldPattern → Bool
  | mk _ _ _ _ ignored => ignored

end MatchFieldPattern

namespace MatchPattern

/-- A bare name or `_`, which takes whatever value is there. -/
def isBinder : MatchPattern → Bool
  | binding _ | wildcard => true
  | _ => false

def constructorName : MatchPattern → Option String
  | variant name _ | struct name _ _ => some name
  | _ => none

end MatchPattern

mutual

/-- `binding_names` -/
def MatchPattern.bindingNames : MatchPattern → List String
  | .binding name => [name]
  | .variant _ bindings => bindingNamesAll bindings
  | .struct _ fields _ => fieldBindingNames fields
  | .list leading rest trailing =>
    bindingNamesAll leading ++ rest.join.toList ++ bindingNamesAll trailing
  | .literal _ | .wildcard => []

def MatchPattern.bindingNamesAll : List MatchPattern → List String
  | [] => []
  | pattern :: patterns => pattern.bindingNames ++ bindingNamesAll patterns

def MatchPattern.fieldBindingNames : List MatchFieldPattern → List String
  | [] => []
  | .mk _ bound inner _ ignored :: fields =>
    (if ignored then []
      else match inner with
        | some inner => inner.bindingNames
        | none => bound.toList) ++ fieldBindingNames fields

end

end RSScript.Syntax
