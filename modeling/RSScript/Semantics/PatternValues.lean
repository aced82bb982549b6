import RSScript.Semantics.Exhaustiveness

/-!
# Values and patterns

What the values of a type are, when the arm of a pattern is taken for a value, and
which patterns are of a type. Sums that an interface declares have values like any other,
although the check does not know their variants.
-/

namespace RSScript.Semantics

open RSScript.Syntax

/-- What a scrutinee can be at run time. -/
inductive Value where
  | scalar (literal : MatchLiteral)
  | list (items : List Value)
  | constructor (name : String) (fields : List (String × Value))
  /-- A closure, a map, a handle: no pattern looks inside. -/
  | other

mutual

/-- Whether the arm of a pattern is taken for a value. -/
def matchesValue : MatchPattern → Value → Bool
  | .binding _, _ | .wildcard, _ => true
  | .literal literal, value =>
    match value with
    | .scalar found => found == literal
    | _ => false
  | .variant name bindings, value =>
    match value with
    | .constructor found fields => name == found && bindingsMatchValue bindings fields
    | _ => false
  | .struct name patterns _, value =>
    match value with
    | .constructor found fields => name == found && fieldsMatchValue patterns fields
    | _ => false
  | .list leading rest trailing, value =>
    match value with
    | .list items =>
      let count := leading.length + trailing.length
      (if rest.isSome then decide (count ≤ items.length) else items.length == count) &&
        itemsMatch leading items && itemsMatch trailing (items.drop (items.length - trailing.length))
    | _ => false

def bindingsMatchValue : List MatchPattern → List (String × Value) → Bool
  | [], _ => true
  | sub :: subs, fields =>
    (sub.isBinder || match fields with
      | [] => false
      | (_, value) :: _ => matchesValue sub value) &&
    bindingsMatchValue subs fields.tail

def fieldsMatchValue : List MatchFieldPattern → List (String × Value) → Bool
  | [], _ => true
  | .mk name _ pattern _ _ :: patterns, fields =>
    (match pattern with
      | none => true
      | some pattern =>
        pattern.isBinder ||
          match fields.lookup name with
          | none => false
          | some value => matchesValue pattern value) &&
    fieldsMatchValue patterns fields

/-- The patterns match the items in order; further items are not looked at. -/
def itemsMatch : List MatchPattern → List Value → Bool
  | [], _ => true
  | pattern :: patterns, items =>
    (match items with
      | [] => false
      | item :: _ => matchesValue pattern item) &&
    itemsMatch patterns items.tail

end

theorem matchesValue_of_isBinder (h : pattern.isBinder = true) (value : Value) :
    matchesValue pattern value = true := by
  cases pattern <;> simp_all [MatchPattern.isBinder, matchesValue]

theorem bindingsMatchValue_of_binders (h : bindings.all (·.isBinder) = true) :
    bindingsMatchValue bindings fields = true := by
  induction bindings generalizing fields with
  | nil => rfl
  | cons sub subs ih =>
    rw [List.all_cons, Bool.and_eq_true] at h
    cases fields <;> simp [bindingsMatchValue, h.1, ih h.2]

theorem fieldsMatchValue_of_irrefutable (h : patterns.all irrefutableField = true) :
    fieldsMatchValue patterns fields = true := by
  induction patterns with
  | nil => rfl
  | cons field patterns ih =>
    obtain ⟨name, binding, pattern, effect, ignored⟩ := field
    rw [List.all_cons, Bool.and_eq_true] at h
    cases pattern with
    | none => simp [fieldsMatchValue, ih h.2]
    | some pattern =>
      have hbinder : pattern.isBinder = true := h.1
      simp [fieldsMatchValue, ih h.2, hbinder]

theorem itemsMatch_of_binders (h : ∀ pattern ∈ patterns, pattern.isBinder = true)
    (hlength : patterns.length ≤ items.length) : itemsMatch patterns items = true := by
  induction patterns generalizing items with
  | nil => rfl
  | cons pattern patterns ih =>
    cases items with
    | nil => simp at hlength
    | cons item items =>
      have hhead := matchesValue_of_isBinder (h pattern List.mem_cons_self) item
      have htail := ih (fun p hp => h p (List.mem_cons_of_mem _ hp)) (by simpa using hlength)
      rw [itemsMatch, hhead, List.tail_cons, htail]
      rfl

/-- What a type name says of its values. Types without constructors, and type
parameters, may have any. -/
inductive TypeForm where
  | anything
  | list (element : Option String)
  | bool
  | option (payload : Option String)
  | result (ok err : Option String)
  | sum (decl : SumTypeDecl)
  | product (info : TypeInfo)

namespace Analyzer

variable (analyzer : Analyzer)

/-- The root of a type name, behind its aliases. -/
abbrev root (typeName : String) : String := typeRootName (analyzer.expand typeName)

/-- The arguments of a type name, behind its aliases. -/
abbrev args (typeName : String) : List String := (typeArgNames (analyzer.expand typeName)).getD []

/-- The sum of that name in the interfaces. -/
def interfaceSum (root : String) : Option SumTypeDecl :=
  analyzer.interfaceSums.find? (·.name = root)

/-- How values read a type name. -/
def form (bound : List String) (typeName : String) : TypeForm :=
  let typeName := analyzer.expand typeName
  let root := typeRootName typeName
  let args := (typeArgNames typeName).getD []
  if root ∈ bound then .anything
  else if root = "List" then .list args[0]?
  else if root = "Bool" then .bool
  else if root = "Option" then .option args[0]?
  else if root = "Result" then .result args[0]? args[1]?
  else
    match analyzer.sums.find? (·.name = root) with
    | some decl => .sum decl
    | none =>
      match analyzer.productType root with
      | some info => .product info
      | none =>
        match analyzer.interfaceSum root with
        | some decl => .sum decl
        | none => .anything

mutual

/-- The values of a type, where the type parameters `bound` may stand for any type.
The arguments of a declared type are not tracked: a field whose type is a parameter
may hold any value, so that the values of every instance are among these. -/
def Inhabits (bound : List String) (typeName : String) : Value → Prop
  | .scalar literal =>
    match analyzer.form bound typeName with
    | .anything => True
    | .bool => ∃ value, literal = .bool value
    | _ => False
  | .list items =>
    match analyzer.form bound typeName with
    | .anything => True
    | .list none => True
    | .list (some element) => InhabitsAll bound element items
    | _ => False
  | .constructor name fields =>
    match analyzer.form bound typeName with
    | .anything => True
    | .option payload =>
      (name = "None" ∧ fields = []) ∨ (name = "Some" ∧ InhabitsPayload bound payload fields)
    | .result ok err =>
      (name = "Ok" ∧ InhabitsPayload bound ok fields) ∨
        (name = "Err" ∧ InhabitsPayload bound err fields)
    | .sum decl =>
      ∃ variant ∈ decl.variants,
        name = variant.name ∧ InhabitsFields decl.typeParams variant.fields fields
    | .product info => name = info.name ∧ InhabitsFields info.typeParams info.fieldsOrdered fields
    | _ => False
  | .other =>
    match analyzer.form bound typeName with
    | .anything => True
    | _ => False

def InhabitsAll (bound : List String) (typeName : String) : List Value → Prop
  | [] => True
  | value :: values => Inhabits bound typeName value ∧ InhabitsAll bound typeName values

def InhabitsPayload (bound : List String) (payload : Option String) :
    List (String × Value) → Prop
  | [(key, value)] =>
    key = "value" ∧
      match payload with
      | none => True
      | some inner => Inhabits bound inner value
  | _ => False

def InhabitsFields (bound : List String) : List FieldInfo → List (String × Value) → Prop
  | [], [] => True
  | field :: fields, (name, value) :: values =>
    name = field.name ∧ Inhabits bound field.ty value ∧ InhabitsFields bound fields values
  | _, _ => False

end

end Analyzer

namespace Analyzer

variable (analyzer : Analyzer)

/-- A name no declaration or alias has taken, and that is not built in. -/
def Unused (name : String) : Prop :=
  name ≠ "List" ∧ analyzer.shape name = .other ∧ analyzer.interfaceSum name = none ∧
    ∀ definition ∈ analyzer.typeAliases, definition.name ≠ name

/-- What the check relies on in the declarations: built-in types are not declared
anew, the fields of a type have different names, type parameters do not hide types,
and the table of variants has for each variant the fields its own sum declares. The
table is keyed by the name of the variant alone, so two sums may not give the same
name to variants with different fields. -/
structure WellFormed : Prop where
  builtins : ∀ name ∈ ["List", "Bool", "Option", "Result"],
    analyzer.sums.find? (·.name = name) = none ∧ analyzer.productType name = none ∧
      analyzer.interfaceSum name = none
  variants : ∀ decl ∈ analyzer.sums, ∀ variant ∈ decl.variants,
    analyzer.sumVariantFields.lookup variant.name = some variant.fields
  fields : ∀ info ∈ analyzer.types, (info.fieldsOrdered.map FieldInfo.name).Nodup
  sumParams : ∀ decl ∈ analyzer.sums, ∀ param ∈ decl.typeParams, analyzer.Unused param
  typeParams : ∀ info ∈ analyzer.types, ∀ param ∈ info.typeParams, analyzer.Unused param

/-- The declared fields of a constructor of a type. -/
def constructorFields (root name : String) : Option (List FieldInfo) :=
  match analyzer.sums.find? (·.name = root) with
  | some decl => (decl.variants.find? (·.name = name)).map SumVariant.fields
  | none =>
    match analyzer.productType root with
    | some info => if name = root then some info.fieldsOrdered else none
    | none =>
      (analyzer.interfaceSum root).bind fun decl =>
        (decl.variants.find? (·.name = name)).map SumVariant.fields

mutual

/-- No positional pattern `Name(..)` names a struct or a class. -/
def positionalOnSums : MatchPattern → Bool
  | .variant name bindings => (analyzer.productType name).isNone && positionalOnSumsAll bindings
  | .struct _ fields _ => positionalOnSumsFields fields
  | _ => true

def positionalOnSumsAll : List MatchPattern → Bool
  | [] => true
  | pattern :: patterns => positionalOnSums pattern && positionalOnSumsAll patterns

def positionalOnSumsFields : List MatchFieldPattern → Bool
  | [] => true
  | .mk _ _ pattern _ _ :: fields =>
    (match pattern with
      | none => true
      | some pattern => positionalOnSums pattern) &&
    positionalOnSumsFields fields

end

/-- The built-in constructors with a payload: the type, the constructor and which argument
of the type the payload is of. -/
def payloadConstructors : List (String × String × Nat) :=
  [("Option", "Some", 0), ("Result", "Ok", 0), ("Result", "Err", 1)]

/-- A pattern of the type, as far as the check relies on it: the constructors are
those of the type, with no more sub-patterns than fields and only declared field
names. -/
inductive Fits : String → MatchPattern → Prop where
  | binder {typeName pattern} (h : pattern.isBinder = true) : Fits typeName pattern
  | literal {typeName value}
      (hscalar : analyzer.productType (analyzer.root typeName) = none) :
      Fits typeName (.literal value)
  | list {typeName leading rest trailing}
      (hroot : analyzer.root typeName = "List") :
      Fits typeName (.list leading rest trailing)
  | bare {typeName name}
      (hroot : analyzer.root typeName ∈ ["Option", "Result"]) :
      Fits typeName (.variant name [])
  | payload {typeName name index payload}
      (hroot : (analyzer.root typeName, name, index) ∈ payloadConstructors)
      (hpayload : ∀ inner, (analyzer.args typeName)[index]? = some inner → Fits inner payload) :
      Fits typeName (.variant name [payload])
  | positional {typeName name bindings fields}
      (hfields : analyzer.constructorFields (analyzer.root typeName) name = some fields)
      (hlength : bindings.length ≤ fields.length) :
      Fits typeName (.variant name bindings)
  | named {typeName name patterns hasRest fields}
      (hfields : analyzer.constructorFields (analyzer.root typeName) name = some fields)
      (hnames : ∀ pattern ∈ patterns, pattern.name ∈ fields.map FieldInfo.name) :
      Fits typeName (.struct name patterns hasRest)

end Analyzer

/-- A list pattern that is long enough for lists of a length, whatever its elements ask. -/
def takesLength (length : Nat) : MatchPattern → Bool
  | .list leading rest trailing =>
    let count := leading.length + trailing.length
    if rest.isSome then decide (count ≤ length) else length == count
  | _ => false

/-- A list pattern that asks for a length only. -/
def elementsBind : MatchPattern → Bool
  | .list leading _ trailing => (leading ++ trailing).all (·.isBinder)
  | _ => false

namespace Analyzer

variable (analyzer : Analyzer)

/-- The check goes by less than the patterns say in two places: at a list it compares
lengths, and at a sum of an interface it looks for the names of the built-in constructors.
Nothing is missed there if elements that ask for more are beside patterns that do not, and
every variant of the sum has a pattern for all of it. -/
structure NothingMissed (patterns : List MatchPattern) (typeName : String) : Prop where
  lists : analyzer.root typeName = "List" → ∀ length, (∃ pattern ∈ patterns, takesLength length pattern) →
    ∃ pattern ∈ patterns, takesLength length pattern ∧ elementsBind pattern
  interfaces : ∀ decl, analyzer.interfaceSum (analyzer.root typeName) = some decl →
    ∀ variant ∈ decl.variants, ∃ pattern ∈ patterns,
      pattern.constructorName = some variant.name ∧ constructorPatternIsIrrefutable pattern

/-- The patterns and types the check comes to through the payloads of `Option` and
`Result`, as far as no binder and no bare constructor ends the way. -/
inductive Reaches : List MatchPattern → String → List MatchPattern → String → Prop where
  | here {patterns typeName} (hbinder : patterns.any (·.isBinder) = false) :
      Reaches patterns typeName patterns typeName
  | payload {patterns typeName name index inner reached reachedType}
      (hbinder : patterns.any (·.isBinder) = false)
      (hroot : (analyzer.root typeName, name, index) ∈ payloadConstructors)
      (hpayload : hasIrrefutablePayload name patterns = false)
      (harg : (analyzer.args typeName)[index]? = some inner)
      (h : Reaches (payloadPatterns name patterns) inner reached reachedType) :
      Reaches patterns typeName reached reachedType

end Analyzer

end RSScript.Semantics
