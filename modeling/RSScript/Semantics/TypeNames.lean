import Mathlib.Data.List.Basic
import Mathlib.Order.WellFounded

/-!
# Type names

The analyzer passes types around as text: `Option<Bool>`, `fresh List<Int>`.
These are its functions on such names: the root before the first `<`, the
arguments between the outermost brackets, and the expansion of aliases.

Whether a name is that of a declared type is not checked at this level.
-/

namespace RSScript.Semantics

open List

def trim (text : List Char) : List Char :=
  ((text.dropWhile Char.isWhitespace).reverse.dropWhile Char.isWhitespace).reverse

/-- The text after `start`, if it begins with it. -/
def stripStart (start text : List Char) : Option (List Char) :=
  if start <+: text then some (text.drop start.length) else none

def typeRootName (name : String) : String :=
  let trimmed := trim name.toList
  let base := (stripStart "fresh ".toList trimmed).getD trimmed
  String.ofList (base.takeWhile (· ≠ '<'))

/-- Cut `text` at the commas outside all brackets. `part` is the current argument,
reversed; an argument of no characters at the very end is dropped. -/
def splitTopLevel (depth : Nat) (part : List Char) : List Char → List String
  | [] => if part.isEmpty then [] else [String.ofList (trim part.reverse)]
  | char :: text =>
    if char = '<' ∨ char = '(' then splitTopLevel (depth + 1) (char :: part) text
    else if char = '>' ∨ char = ')' then splitTopLevel (depth - 1) (char :: part) text
    else if char = ',' ∧ depth = 0 then
      String.ofList (trim part.reverse) :: splitTopLevel depth [] text
    else splitTopLevel depth (char :: part) text

def splitTopLevelTypeArgs (args : List Char) : List String :=
  splitTopLevel 0 [] args

/-- The text between the first `<` and a `>` at the very end. -/
def typeArgText (name : String) : Option (List Char) :=
  match name.toList.dropWhile (· ≠ '<') with
  | [] => none
  | _ :: rest => if rest.getLast? = some '>' then some rest.dropLast else none

def typeArgNames (name : String) : Option (List String) :=
  (typeArgText name).map splitTopLevelTypeArgs

variable {depth : Nat}

theorem length_dropWhile_le (test : Char → Bool) (text : List Char) :
    (text.dropWhile test).length ≤ text.length :=
  (dropWhile_suffix test).length_le

theorem length_trim_le (text : List Char) : (trim text).length ≤ text.length := by
  have houter := length_dropWhile_le Char.isWhitespace
    (text.dropWhile Char.isWhitespace).reverse
  have hinner := length_dropWhile_le Char.isWhitespace text
  simp only [trim, length_reverse] at houter ⊢
  omega

theorem length_of_mem_splitTopLevel (h : arg ∈ splitTopLevel depth part text) :
    arg.toList.length ≤ part.length + text.length := by
  induction text generalizing depth part with
  | nil =>
    rw [splitTopLevel] at h
    split at h
    · simp at h
    · obtain rfl := mem_singleton.mp h
      have := length_trim_le part.reverse
      simpa using this
  | cons char text ih =>
    have hpart : ∀ {depth'}, arg ∈ splitTopLevel depth' (char :: part) text →
        arg.toList.length ≤ part.length + (char :: text).length := by
      intro depth' hmem
      have := ih hmem
      simp only [length_cons] at this ⊢
      omega
    rw [splitTopLevel] at h
    split at h
    · exact hpart h
    · split at h
      · exact hpart h
      · split at h
        · rcases mem_cons.mp h with rfl | hrest
          · have := length_trim_le part.reverse
            simp only [String.toList_ofList, length_reverse, length_cons] at this ⊢
            omega
          · have := ih hrest
            simp only [length_nil, length_cons] at this ⊢
            omega
        · exact hpart h

/-- An argument is shorter than the name it is an argument of. -/
theorem length_of_mem_typeArgNames (h : typeArgNames name = some args) (harg : arg ∈ args) :
    arg.toList.length < name.toList.length := by
  obtain ⟨inner, hinner, rfl⟩ := Option.map_eq_some_iff.mp h
  have harg := length_of_mem_splitTopLevel harg
  rw [typeArgText] at hinner
  split at hinner
  · simp at hinner
  · rename_i first rest hrest
    split at hinner
    · obtain rfl := Option.some.inj hinner
      have hle := length_dropWhile_le (· ≠ '<') name.toList
      rw [hrest] at hle
      simp only [length_nil, length_dropLast, length_cons] at harg hle
      omega
    · simp at hinner

/-- `root<a, b>`. -/
def applyTypeArgs (root : String) (args : List String) : String :=
  root ++ "<" ++ ", ".intercalate args ++ ">"

/-- Put arguments in the place of type parameters. -/
def substituteTypeArgs (substitutions : List (String × String)) (name : String) : String :=
  let trimmed := String.ofList (trim name.toList)
  match substitutions.lookup trimmed with
  | some replacement => replacement
  | none =>
    match _hargs : typeArgNames trimmed with
    | none => trimmed
    | some args =>
      applyTypeArgs (typeRootName trimmed)
        (args.attach.map fun arg => substituteTypeArgs substitutions arg.1)
termination_by name.toList.length
decreasing_by
  have hshorter := length_of_mem_typeArgNames _hargs arg.2
  have htrim := length_trim_le name.toList
  simp only [trimmed, String.toList_ofList] at hshorter
  omega

/-- A declared alias `type Name<P, Q> = target`, the target as text. -/
structure AliasDefinition where
  name : String
  parameters : List String
  target : String
  deriving DecidableEq, Repr

/-- What an alias applied to `args` stands for, if it is applied to as many
arguments as it has parameters. Arguments of an alias without parameters are
ignored. -/
def AliasDefinition.apply (definition : AliasDefinition) (args : Option (List String)) :
    Option String :=
  if definition.parameters.isEmpty then some definition.target
  else do
    let args ← args
    if args.length ≠ definition.parameters.length then none
    else some (substituteTypeArgs (definition.parameters.zip args) definition.target)

/-- A marker before a type, and the text after it. -/
def typeMarker (trimmed : List Char) : Option (String × List Char) :=
  ["fresh ", "noescape ", "owned "].findSome? fun marker =>
    (stripStart marker.toList trimmed).map fun target => (marker, target)

theorem length_typeMarker (h : typeMarker trimmed = some (marker, target)) :
    target.length < trimmed.length := by
  obtain ⟨candidate, hmem, hstrip⟩ := exists_of_findSome?_eq_some h
  obtain ⟨rest, hrest, hpair⟩ := Option.map_eq_some_iff.mp hstrip
  obtain ⟨rfl, rfl⟩ := Prod.mk.injEq .. ▸ hpair
  rw [stripStart] at hrest
  split at hrest
  · rename_i hstart
    obtain rfl := Option.some.inj hrest
    have hlength := hstart.length_le
    have hpositive : 0 < candidate.toList.length := by
      rcases mem_cons.mp hmem with rfl | hmem
      · decide
      · rcases mem_cons.mp hmem with rfl | hmem
        · decide
        · obtain rfl := mem_singleton.mp hmem
          decide
    rw [length_drop]
    omega
  · simp at hrest

section Expansion

variable (aliases : List AliasDefinition)

/-- A name whose arguments are expanded: what the alias at its root stands for,
expanded by `expandTarget`, or the name itself. An alias that is met again inside
its own expansion is left as it is. -/
def resolveAlias (visiting : List String) (expandTarget : String → String → String)
    (name : String) (expandedArgs : Option (List String)) : String :=
  let root := typeRootName name
  let normalized := (expandedArgs.map (applyTypeArgs root)).getD name
  match aliases.find? (·.name = root) with
  | none => normalized
  | some definition =>
    match definition.apply expandedArgs with
    | none => normalized
    | some aliasTarget => if root ∈ visiting then normalized else expandTarget root aliasTarget

/-- Expand the aliases in a type name, those in its arguments first. -/
def expandNames (visiting : List String) (expandTarget : String → String → String)
    (name : String) : String :=
  let trimmed := trim name.toList
  match _hmarker : typeMarker trimmed with
  | some (marker, target) =>
    marker ++ expandNames visiting expandTarget (String.ofList target)
  | none =>
    resolveAlias aliases visiting expandTarget (String.ofList trimmed)
      ((typeArgNames (String.ofList trimmed)).attach.map fun args =>
        args.1.attach.map fun arg => expandNames visiting expandTarget arg.1)
termination_by name.toList.length
decreasing_by
  · have hshorter := length_typeMarker _hmarker
    have htrim := length_trim_le name.toList
    simp only [trimmed, String.toList_ofList] at hshorter ⊢
    omega
  · have hshorter := length_of_mem_typeArgNames args.2 arg.2
    have htrim := length_trim_le name.toList
    simp only [trimmed, String.toList_ofList] at hshorter
    omega

/-- `expand_type_alias_inner`. The recursion through alias targets is counted: it is
never deeper than there are aliases left to visit. -/
def expandTypeAliasInner : Nat → List String → String → String
  | 0, visiting => expandNames aliases visiting fun _ target => target
  | depth + 1, visiting =>
    expandNames aliases visiting fun root => expandTypeAliasInner depth (root :: visiting)

def expandTypeAlias (name : String) : String :=
  expandTypeAliasInner aliases aliases.length [] name

end Expansion

-- What is proved of types depends on which names these functions give, never on how.
attribute [irreducible] typeRootName typeArgNames expandTypeAlias

end RSScript.Semantics
