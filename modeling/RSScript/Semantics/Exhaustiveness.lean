import RSScript.Syntax.Patterns
import RSScript.Semantics.TypeNames

/-!
# Match exhaustiveness

The check that the unguarded arms of a `match` cover the type of its scrutinee.
Nothing bounds how deep the enumeration of witnesses goes into declared types, so
its functions take the number of nested calls they may make, and answer `none`
once it is used up: a call returns if some number is enough for it.
-/

namespace RSScript.Semantics

open RSScript.Syntax

structure FieldInfo where
  name : String
  /-- The declared type, as text. -/
  ty : String
  deriving DecidableEq, Repr

inductive HirTypeKind where
  | «class»
  | struct
  | resource
  | sum
  deriving DecidableEq, Repr

/-- A declared class, struct or resource. Its fields are kept twice: in the order of
the declaration, and in a hash table by name, which enumerates them in an order of
its own. -/
structure TypeInfo where
  name : String
  kind : HirTypeKind
  typeParams : List String
  fieldsOrdered : List FieldInfo
  fields : List FieldInfo
  fields_subset : fields ⊆ fieldsOrdered
  fields_cover : fieldsOrdered.map FieldInfo.name ⊆ fields.map FieldInfo.name
  fields_nodup : (fields.map FieldInfo.name).Nodup

structure SumVariant where
  name : String
  fields : List FieldInfo
  deriving DecidableEq, Repr

structure SumTypeDecl where
  name : String
  typeParams : List String
  variants : List SumVariant
  deriving DecidableEq, Repr

/-- The tables of the analyzer that the check reads. -/
structure Analyzer where
  /-- The sums the program declares. -/
  sums : List SumTypeDecl
  /-- The sums its interfaces declare. The check looks sums up in the program alone. -/
  interfaceSums : List SumTypeDecl
  /-- The fields of every variant of the program and its interfaces, by the name of
  the variant alone. -/
  sumVariantFields : List (String × List FieldInfo)
  types : List TypeInfo
  typeAliases : List AliasDefinition

/-- A value as far as patterns can tell values apart. -/
inductive PatternWitness where
  | any
  | bool (value : Bool)
  | constructor (name : String) (fields : List (String × PatternWitness))
  deriving Repr

def maxPatternWitnesses : Nat := 512

/-- What the check makes of the root of a type name. -/
inductive Shape where
  | bool
  | option
  | result
  | sum (variants : List SumVariant)
  | product (info : TypeInfo)
  | other

namespace Analyzer

variable (analyzer : Analyzer)

def expand (typeName : String) : String :=
  expandTypeAlias analyzer.typeAliases typeName

/-- The variants of a sum of the program, with the fields of the variant table. -/
def sumVariantsForType (root : String) : Option (List SumVariant) :=
  (analyzer.sums.find? (·.name = root)).map fun sum =>
    sum.variants.map fun variant =>
      ⟨variant.name, (analyzer.sumVariantFields.lookup variant.name).getD []⟩

/-- The struct or class of that name. -/
def productType (root : String) : Option TypeInfo :=
  (analyzer.types.find? (·.name = root)).filter fun info =>
    info.kind = .struct ∨ info.kind = .«class»

/-- How the check reads the root of a type. -/
def shape (root : String) : Shape :=
  if root = "Bool" then .bool
  else if root = "Option" then .option
  else if root = "Result" then .result
  else
    match analyzer.sumVariantsForType root with
    | some variants => .sum variants
    | none =>
      match analyzer.productType root with
      | some info => .product info
      | none => .other

end Analyzer

def irrefutableField (field : MatchFieldPattern) : Bool :=
  match field.pattern with
  | none => true
  | some pattern => pattern.isBinder

/-- Irrefutable over its own constructor. -/
def constructorPatternIsIrrefutable : MatchPattern → Bool
  | .binding _ | .wildcard => true
  | .variant _ bindings => bindings.all (·.isBinder)
  | .struct _ fields _ => fields.all irrefutableField
  | .list leading rest trailing => leading.isEmpty && trailing.isEmpty && rest.isSome
  | .literal _ => false

mutual

/-- Whether a pattern takes the values a witness stands for. -/
def patternMatchesWitness : MatchPattern → PatternWitness → Bool
  | .binding _, _ | .wildcard, _ => true
  | .literal (.bool value), witness =>
    match witness with
    | .bool candidate => candidate == value
    | _ => false
  | .literal _, _ | .list _ _ _, _ => false
  | .variant name bindings, witness =>
    match witness with
    | .constructor witnessName fields =>
      name == witnessName && bindingsMatchWitness bindings fields
    | _ => false
  | .struct name fields _, witness =>
    match witness with
    | .constructor witnessName witnessFields =>
      name == witnessName && fieldsMatchWitness fields witnessFields
    | _ => false

/-- Positional sub-patterns against the fields in order. -/
def bindingsMatchWitness : List MatchPattern → List (String × PatternWitness) → Bool
  | [], _ => true
  | sub :: subs, fields =>
    (sub.isBinder || match fields with
      | [] => false
      | (_, witness) :: _ => patternMatchesWitness sub witness) &&
    bindingsMatchWitness subs fields.tail

/-- Named sub-patterns against the fields of the same name. -/
def fieldsMatchWitness : List MatchFieldPattern → List (String × PatternWitness) → Bool
  | [], _ => true
  | .mk name _ pattern _ _ :: patterns, fields =>
    (match pattern with
      | none => true
      | some pattern =>
        pattern.isBinder ||
          match fields.lookup name with
          | none => false
          | some witness => patternMatchesWitness pattern witness) &&
    fieldsMatchWitness patterns fields

end

def patternMatchesFields (pattern : MatchPattern) (fields : List (String × PatternWitness)) :
    Bool :=
  constructorPatternIsIrrefutable pattern ||
    match pattern with
    | .variant _ bindings =>
      (List.range bindings.length).all fun index =>
        match bindings[index]?, fields[index]? with
        | some sub, some (_, witness) => patternMatchesWitness sub witness
        | _, _ => false
    | .struct _ patterns _ => fieldsMatchWitness patterns fields
    | _ => true

section Witnesses

variable (witnesses : String → Option (Option (List PatternWitness)))

/-- The witnesses of a type argument, or the one that stands for every value. -/
def payloadWitnesses : Option String → Option (List PatternWitness)
  | none => some [.any]
  | some inner => (witnesses inner).map (·.getD [.any])

/-- Extend each row by each witness of the next field, unless there are too many. -/
def extendRows : List FieldInfo → List (List (String × PatternWitness)) →
    Option (Option (List (List (String × PatternWitness))))
  | [], rows => some (some rows)
  | field :: fields, rows => do
    let domain := (← witnesses field.ty).getD [.any]
    if maxPatternWitnesses < rows.length * domain.length then some none
    else
      extendRows fields <| rows.flatMap fun row =>
        domain.map fun witness => row ++ [(field.name, witness)]

/-- A row for each combination of the witnesses of the fields. -/
def fieldWitnessProductWith (fields : List FieldInfo) :
    Option (Option (List (List (String × PatternWitness)))) :=
  extendRows witnesses fields [[]]

/-- The witnesses of a sum, variant by variant. -/
def variantWitnesses : List SumVariant → Option (Option (List PatternWitness))
  | [] => some (some [])
  | variant :: variants => do
    match ← fieldWitnessProductWith witnesses variant.fields with
    | none => some none
    | some rows =>
      let rest ← variantWitnesses variants
      some (rest.map (rows.map (.constructor variant.name ·) ++ ·))

end Witnesses

namespace Analyzer

variable (analyzer : Analyzer)

/-- The witnesses of a type, from those of the types it refers to. -/
def witnessesWith (witnesses : String → Option (Option (List PatternWitness))) (typeName : String) :
    Option (Option (List PatternWitness)) :=
  let typeName := analyzer.expand typeName
  let root := typeRootName typeName
  let args := (typeArgNames typeName).getD []
  match analyzer.shape root with
  | .bool => some (some [.bool true, .bool false])
  | .option => do
    let payload ← payloadWitnesses witnesses args[0]?
    some (some (.constructor "None" [] ::
      payload.map fun value => .constructor "Some" [("value", value)]))
  | .result => do
    let okPayload ← payloadWitnesses witnesses args[0]?
    let errPayload ← payloadWitnesses witnesses args[1]?
    some (some ((okPayload.map fun value => .constructor "Ok" [("value", value)]) ++
      errPayload.map fun value => .constructor "Err" [("value", value)]))
  | .sum variants => variantWitnesses witnesses variants
  | .product info => do
    let rows ← fieldWitnessProductWith witnesses info.fields
    some (rows.map fun rows => rows.map (.constructor root ·))
  | .other => some none

/-- The witnesses of a type. `some none` is a type without such a list, `none` a lack of depth. -/
def finiteTypeWitnesses : Nat → String → Option (Option (List PatternWitness))
  | 0 => fun _ => none
  | depth + 1 => analyzer.witnessesWith (finiteTypeWitnesses depth)

def fieldWitnessProduct (depth : Nat) (fields : List FieldInfo) :
    Option (Option (List (List (String × PatternWitness)))) :=
  fieldWitnessProductWith (analyzer.finiteTypeWitnesses depth) fields

end Analyzer

/-- Patterns of one constructor against the rows of its fields. -/
def patternsCoverConstructorFields
    (witnesses : String → Option (Option (List PatternWitness)))
    (patterns : List MatchPattern) (fields : List FieldInfo) : Option Bool :=
  if fields.isEmpty then some (!patterns.isEmpty)
  else if patterns.any constructorPatternIsIrrefutable then some true
  else do
    match ← fieldWitnessProductWith witnesses fields with
    | none => some false
    | some rows => some (rows.all fun row => patterns.any (patternMatchesFields · row))

/-- A rest pattern covers every length from its own on, a fixed one its own length. -/
def listLengthsCovered (patterns : List MatchPattern) : Bool :=
  let counts := patterns.filterMap fun pattern =>
    match pattern with
    | .list leading rest trailing => some (leading.length + trailing.length, rest.isSome)
    | _ => none
  let restCounts := (counts.filter (·.2)).map Prod.fst
  let fixedLengths := (counts.filter (!·.2)).map Prod.fst
  match restCounts.min? with
  | none => false
  | some minRest => (List.range minRest).all (· ∈ fixedLengths)

def boolLiterals (patterns : List MatchPattern) : List Bool :=
  patterns.filterMap fun pattern =>
    match pattern with
    | .literal (.bool value) => some value
    | _ => none

/-- Whether a pattern takes every value of a constructor with one payload. -/
def hasIrrefutablePayload (name : String) (patterns : List MatchPattern) : Bool :=
  patterns.any fun pattern =>
    match pattern with
    | .variant candidate bindings => candidate == name && bindings.isEmpty
    | _ => false

def payloadPatterns (name : String) (patterns : List MatchPattern) : List MatchPattern :=
  patterns.filterMap fun pattern =>
    match pattern with
    | .variant candidate bindings => if candidate = name then bindings.head? else none
    | _ => none

/-- Whether the payload of a constructor is covered, where it has one. -/
def payloadCovered (cover : List MatchPattern → String → Option Bool)
    (patterns : List MatchPattern) (name : String) (arg : Option String) : Option Bool :=
  if hasIrrefutablePayload name patterns then some true
  else
    match arg with
    | none => some false
    | some inner => cover (payloadPatterns name patterns) inner

def namesVariant (name : String) : MatchPattern → Bool
  | .variant candidate _ => candidate == name
  | _ => false

/-- The names of the constructors of `Option` or `Result` are all there. -/
def builtinMatchIsExhaustive (names : List String) : Bool :=
  (names.contains "Some" && names.contains "None") || (names.contains "Ok" && names.contains "Err")

/-- Test the variants in order, up to the first that is not covered. -/
def allCovered (covered : SumVariant → Option Bool) : List SumVariant → Option Bool
  | [] => some true
  | variant :: variants => do
    if ← covered variant then allCovered covered variants else some false

namespace Analyzer

variable (analyzer : Analyzer)

/-- `patterns_cover_type`. -/
def patternsCoverType : Nat → List MatchPattern → String → Option Bool
  | 0, _, _ => none
  | depth + 1, patterns, typeName =>
    if patterns.any (·.isBinder) then some true
    else
      let typeName := analyzer.expand typeName
      let root := typeRootName typeName
      let args := (typeArgNames typeName).getD []
      let payloadCovered := payloadCovered (patternsCoverType depth) patterns
      if root = "List" then some (listLengthsCovered patterns)
      else
        match analyzer.shape root with
        | .bool => some ((boolLiterals patterns).contains true && (boolLiterals patterns).contains false)
        | .option => do
          let someCovered ← payloadCovered "Some" args[0]?
          some (someCovered && patterns.any (namesVariant "None"))
        | .result => do
          let okCovered ← payloadCovered "Ok" args[0]?
          let errCovered ← payloadCovered "Err" args[1]?
          some (okCovered && errCovered)
        | .sum variants =>
          allCovered (fun variant =>
            patternsCoverConstructorFields (analyzer.finiteTypeWitnesses depth)
              (patterns.filter (·.constructorName = some variant.name)) variant.fields) variants
        | .product info =>
          patternsCoverConstructorFields (analyzer.finiteTypeWitnesses depth) patterns info.fields
        | .other => some (builtinMatchIsExhaustive (patterns.filterMap (·.constructorName)))

end Analyzer

end RSScript.Semantics
