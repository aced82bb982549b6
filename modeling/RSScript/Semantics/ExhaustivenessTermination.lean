import RSScript.Semantics.Exhaustiveness

/-!
# Termination of the exhaustiveness check

The enumeration of witnesses follows the types of fields and payloads with nothing
that stops it at a type it is already inside of. A call of the check is a question,
and answering a question asks others: the shapes of a type ask for the shapes of its
payload and field types, the coverage of a type by patterns asks for the coverage of
payloads or for the shapes of fields. The check returns exactly where no chain of
questions is endless (`exhaustiveness_returns_iff`).

Not every field is asked for: fields behind more than 512 rows are not, and neither
are the variants behind one that is not covered. What is asked therefore depends on
the shapes of types, which are described by their equations alone (`IsShapes`).
-/

namespace RSScript.Semantics

open RSScript.Syntax Option List Analyzer

/-- `larger` answers whatever `smaller` answers, with the same answer. -/
def Extends {α β : Type} (smaller larger : α → Option β) : Prop :=
  ∀ a b, smaller a = some b → larger a = some b

variable {fields : List FieldInfo}

theorem payloadWitnesses_extends (h : Extends witnesses witnesses') :
    Extends (payloadWitnesses witnesses) (payloadWitnesses witnesses') := by
  intro arg domain hdomain
  cases arg with
  | none => exact hdomain
  | some inner =>
    obtain ⟨found, hfound, rfl⟩ := map_eq_some_iff.mp hdomain
    exact map_eq_some_iff.mpr ⟨found, h inner found hfound, rfl⟩

theorem extendRows_extends (h : Extends witnesses witnesses')
    (hresult : extendRows witnesses fields rows = some result) :
    extendRows witnesses' fields rows = some result := by
  induction fields generalizing rows with
  | nil => exact hresult
  | cons field fields ih =>
    obtain ⟨domain, hdomain, hrest⟩ := bind_eq_some_iff.mp hresult
    refine bind_eq_some_iff.mpr ⟨domain, h field.ty domain hdomain, ?_⟩
    dsimp only at hrest ⊢
    split at hrest
    · rename_i hcap
      rw [if_pos hcap]
      exact hrest
    · rename_i hcap
      rw [if_neg hcap]
      exact ih hrest

private theorem variantWitnesses_extends (h : Extends witnesses witnesses') :
    Extends (variantWitnesses witnesses) (variantWitnesses witnesses') := by
  intro variants
  induction variants with
  | nil => exact fun _ hresult => hresult
  | cons variant variants ih =>
    intro result hresult
    obtain ⟨product, hproduct, hresult⟩ := bind_eq_some_iff.mp hresult
    refine bind_eq_some_iff.mpr ⟨product, extendRows_extends h hproduct, ?_⟩
    cases product with
    | none => exact hresult
    | some rows =>
      obtain ⟨rest, hrest, hresult⟩ := bind_eq_some_iff.mp hresult
      exact bind_eq_some_iff.mpr ⟨rest, ih rest hrest, hresult⟩

theorem patternsCoverConstructorFields_extends (h : Extends witnesses witnesses')
    (hanswer : patternsCoverConstructorFields witnesses patterns fields = some answer) :
    patternsCoverConstructorFields witnesses' patterns fields = some answer := by
  rw [patternsCoverConstructorFields] at hanswer ⊢
  split at hanswer
  · rename_i hempty
    rw [if_pos hempty]
    exact hanswer
  · rename_i hempty
    rw [if_neg hempty]
    split at hanswer
    · rename_i hany
      rw [if_pos hany]
      exact hanswer
    · rename_i hany
      rw [if_neg hany]
      obtain ⟨product, hproduct, hanswer⟩ := bind_eq_some_iff.mp hanswer
      exact bind_eq_some_iff.mpr ⟨product, extendRows_extends h hproduct, hanswer⟩

private theorem allCovered_extends (h : Extends covered covered') :
    Extends (allCovered covered) (allCovered covered') := by
  intro variants
  induction variants with
  | nil => exact fun _ hanswer => hanswer
  | cons variant variants ih =>
    intro answer hanswer
    obtain ⟨first, hfirst, hanswer⟩ := bind_eq_some_iff.mp hanswer
    refine bind_eq_some_iff.mpr ⟨first, h variant first hfirst, ?_⟩
    cases first with
    | false => exact hanswer
    | true => exact ih answer hanswer

namespace Analyzer

variable {analyzer : Analyzer}

private theorem witnessesWith_extends (h : Extends witnesses witnesses') :
    Extends (analyzer.witnessesWith witnesses) (analyzer.witnessesWith witnesses') := by
  intro typeName result hresult
  rw [witnessesWith] at hresult ⊢
  split at hresult
  · exact hresult
  · obtain ⟨payload, hpayload, hresult⟩ := bind_eq_some_iff.mp hresult
    exact bind_eq_some_iff.mpr ⟨payload, payloadWitnesses_extends h _ _ hpayload, hresult⟩
  · obtain ⟨ok, hok, hresult⟩ := bind_eq_some_iff.mp hresult
    obtain ⟨err, herr, hresult⟩ := bind_eq_some_iff.mp hresult
    exact bind_eq_some_iff.mpr ⟨ok, payloadWitnesses_extends h _ _ hok,
      bind_eq_some_iff.mpr ⟨err, payloadWitnesses_extends h _ _ herr, hresult⟩⟩
  · exact variantWitnesses_extends h _ _ hresult
  · obtain ⟨rows, hrows, hresult⟩ := bind_eq_some_iff.mp hresult
    exact bind_eq_some_iff.mpr ⟨rows, extendRows_extends h hrows, hresult⟩
  · exact hresult

theorem finiteTypeWitnesses_succ :
    Extends (analyzer.finiteTypeWitnesses depth) (analyzer.finiteTypeWitnesses (depth + 1)) := by
  induction depth with
  | zero => intro typeName result h; cases h
  | succ depth ih => exact witnessesWith_extends ih

variable {depth : Nat}

/-- Once enough nested calls are allowed, more of them change nothing. -/
theorem finiteTypeWitnesses_mono (h : depth ≤ depth') :
    Extends (analyzer.finiteTypeWitnesses depth) (analyzer.finiteTypeWitnesses depth') := by
  induction h with
  | refl => exact fun _ _ h => h
  | step _ ih => exact fun typeName result h =>
      finiteTypeWitnesses_succ typeName result (ih typeName result h)

theorem payloadCovered_extends {cover cover' : List MatchPattern → String → Option Bool}
    (h : ∀ patterns, Extends (cover patterns) (cover' patterns)) :
    Extends (payloadCovered cover patterns name) (payloadCovered cover' patterns name) := by
  intro arg found hfound
  unfold payloadCovered at hfound ⊢
  split_ifs at hfound ⊢
  · exact hfound
  · cases arg with
    | none => exact hfound
    | some inner => exact h _ inner found hfound

private theorem patternsCoverType_succ (patterns : List MatchPattern) :
    Extends (analyzer.patternsCoverType depth patterns)
      (analyzer.patternsCoverType (depth + 1) patterns) := by
  induction depth generalizing patterns with
  | zero => intro typeName answer h; simp [patternsCoverType] at h
  | succ depth ih =>
    intro typeName answer h
    rw [patternsCoverType] at h ⊢
    split at h
    · rename_i hany
      rw [if_pos hany]
      exact h
    rename_i hany
    rw [if_neg hany]
    dsimp only at h ⊢
    split at h
    · rename_i hlist
      rw [if_pos hlist]
      exact h
    rename_i hlist
    rw [if_neg hlist]
    split at h
    · exact h
    · obtain ⟨found, hfound, h⟩ := bind_eq_some_iff.mp h
      exact bind_eq_some_iff.mpr ⟨found, payloadCovered_extends ih _ _ hfound, h⟩
    · obtain ⟨ok, hok, h⟩ := bind_eq_some_iff.mp h
      obtain ⟨err, herr, h⟩ := bind_eq_some_iff.mp h
      exact bind_eq_some_iff.mpr ⟨ok, payloadCovered_extends ih _ _ hok,
        bind_eq_some_iff.mpr ⟨err, payloadCovered_extends ih _ _ herr, h⟩⟩
    · exact allCovered_extends (fun variant found hfound =>
        patternsCoverConstructorFields_extends finiteTypeWitnesses_succ hfound) _ _ h
    · exact patternsCoverConstructorFields_extends finiteTypeWitnesses_succ h
    · exact h

private theorem patternsCoverType_mono (h : depth ≤ depth') :
    Extends (analyzer.patternsCoverType depth patterns)
      (analyzer.patternsCoverType depth' patterns) := by
  induction h with
  | refl => exact fun _ _ h => h
  | step _ ih => exact fun typeName answer h =>
      patternsCoverType_succ patterns typeName answer (ih typeName answer h)

end Analyzer

/-! ## What is asked -/

section Questions

variable (shapes : String → Option (List PatternWitness))

/-- The shapes of a type, known without a call. -/
def known (typeName : String) : Option (Option (List PatternWitness)) := some (shapes typeName)

/-- The types that are asked for behind `rows` rows: none behind too many. -/
def fieldQuestions : Nat → List FieldInfo → List String
  | _, [] => []
  | rows, field :: fields =>
    let more := rows * ((shapes field.ty).getD [.any]).length
    field.ty :: if maxPatternWitnesses < more then [] else fieldQuestions more fields

def variantQuestions : List SumVariant → List String
  | [] => []
  | variant :: variants =>
    fieldQuestions shapes 1 variant.fields ++
      match fieldWitnessProductWith (known shapes) variant.fields with
      | some (some _) => variantQuestions variants
      | _ => []

/-- A pattern that takes every value of the constructor leaves nothing to ask. -/
def constructorQuestions (patterns : List MatchPattern) (fields : List FieldInfo) : List String :=
  if fields.isEmpty then []
  else if patterns.any constructorPatternIsIrrefutable then []
  else fieldQuestions shapes 1 fields

/-- The variants are tested in order, up to the first that is not covered. -/
def armQuestions (patterns : List MatchPattern) : List SumVariant → List String
  | [] => []
  | variant :: variants =>
    let matching := patterns.filter (·.constructorName = some variant.name)
    constructorQuestions shapes matching variant.fields ++
      match patternsCoverConstructorFields (known shapes) matching variant.fields with
      | some true => armQuestions patterns variants
      | _ => []

/-- A call of the check: for the shapes of a type, or for the coverage of a type. -/
inductive Question where
  | shapes (typeName : String)
  | covered (patterns : List MatchPattern) (typeName : String)

namespace Analyzer

variable (analyzer : Analyzer)

def typeQuestions (typeName : String) : List String :=
  let typeName := analyzer.expand typeName
  let args := (typeArgNames typeName).getD []
  match analyzer.shape (typeRootName typeName) with
  | .option => args[0]?.toList
  | .result => args[0]?.toList ++ args[1]?.toList
  | .sum variants => variantQuestions shapes variants
  | .product info => fieldQuestions shapes 1 info.fields
  | .bool | .other => []

/-- A pattern that takes every payload leaves nothing to ask. -/
def payloadQuestions (patterns : List MatchPattern) (name : String) (arg : Option String) :
    List Question :=
  if hasIrrefutablePayload name patterns then []
  else arg.toList.map (.covered (payloadPatterns name patterns))

/-- What is asked in order to answer a question. -/
def questions : Question → List Question
  | .shapes typeName => (analyzer.typeQuestions shapes typeName).map .shapes
  | .covered patterns typeName =>
    let typeName := analyzer.expand typeName
    let root := typeRootName typeName
    let args := (typeArgNames typeName).getD []
    if patterns.any (·.isBinder) then []
    else if root = "List" then []
    else
      match analyzer.shape root with
      | .option => payloadQuestions patterns "Some" args[0]?
      | .result => payloadQuestions patterns "Ok" args[0]? ++ payloadQuestions patterns "Err" args[1]?
      | .sum variants => (armQuestions shapes patterns variants).map .shapes
      | .product info => (constructorQuestions shapes patterns info.fields).map .shapes
      | .bool | .other => []

/-- `inner` is asked in order to answer `outer`. -/
def Asks (inner outer : Question) : Prop := inner ∈ analyzer.questions shapes outer

/-- The shapes of types as the declarations give them: two of `Bool`, those of the payloads for
`Option` and `Result`, a row of shapes of the fields for each constructor of a declared type. A type
with too many, or without constructors, has none. Types of endless chains are left out. -/
def IsShapes : Prop :=
  ∀ typeName, Acc (analyzer.Asks shapes) (.shapes typeName) →
    analyzer.witnessesWith (known shapes) typeName = some (shapes typeName)

end Analyzer

end Questions

/-! ## Answers ask exactly these questions -/

section Answers

variable {shapes : String → Option (List PatternWitness)}
  {witnesses : String → Option (Option (List PatternWitness))}

/-- Every answer is the one of the shapes. -/
def Sound (witnesses : String → Option (Option (List PatternWitness)))
    (shapes : String → Option (List PatternWitness)) : Prop :=
  ∀ typeName found, witnesses typeName = some found → found = shapes typeName

theorem length_extended (field : String) (domain : List PatternWitness)
    (rows : List (List (String × PatternWitness))) :
    (rows.flatMap fun row => domain.map fun witness => row ++ [(field, witness)]).length =
      rows.length * domain.length := by
  simp [length_flatMap]

theorem extendRows_known (h : ∀ name ∈ fieldQuestions shapes rows.length fields,
      witnesses name = some (shapes name)) :
    extendRows witnesses fields rows = extendRows (known shapes) fields rows := by
  induction fields generalizing rows with
  | nil => rfl
  | cons field fields ih =>
    obtain ⟨hfield, hfields⟩ := forall_mem_cons.mp h
    simp only [extendRows, hfield, known, bind_eq_bind, bind_some]
    split
    · rfl
    · rename_i hcap
      rw [if_neg hcap, ← length_extended field.name] at hfields
      exact ih hfields

theorem extendRows_asks (hsound : Sound witnesses shapes)
    (h : extendRows witnesses fields rows = some result) :
    ∀ name ∈ fieldQuestions shapes rows.length fields, (witnesses name).isSome := by
  induction fields generalizing rows with
  | nil => simp [fieldQuestions]
  | cons field fields ih =>
    obtain ⟨domain, hdomain, h⟩ := bind_eq_some_iff.mp h
    obtain rfl := hsound _ _ hdomain
    refine forall_mem_cons.mpr ⟨by rw [hdomain]; rfl, ?_⟩
    dsimp only at h ⊢
    split at h
    · rename_i hcap
      simp [if_pos hcap]
    · rename_i hcap
      rw [if_neg hcap, ← length_extended field.name]
      exact ih h

theorem extendRows_known_isSome (shapes : String → Option (List PatternWitness))
    (fields : List FieldInfo) (rows : List (List (String × PatternWitness))) :
    (extendRows (known shapes) fields rows).isSome := by
  induction fields generalizing rows with
  | nil => rfl
  | cons field fields ih =>
    simp only [extendRows, known, bind_eq_bind, bind_some]
    split
    · rfl
    · exact ih _

private theorem variantWitnesses_known
    (h : ∀ name ∈ variantQuestions shapes variants, witnesses name = some (shapes name)) :
    variantWitnesses witnesses variants = variantWitnesses (known shapes) variants := by
  induction variants with
  | nil => rfl
  | cons variant variants ih =>
    obtain ⟨hfields, hrest⟩ := forall_mem_append.mp h
    have hproduct : fieldWitnessProductWith witnesses variant.fields =
        fieldWitnessProductWith (known shapes) variant.fields := extendRows_known hfields
    simp only [variantWitnesses, hproduct]
    obtain ⟨product, hfound⟩ := isSome_iff_exists.mp
      (extendRows_known_isSome shapes variant.fields [[]])
    rw [fieldWitnessProductWith, hfound] at hrest ⊢
    cases product with
    | none => rfl
    | some rows => rw [ih hrest]

private theorem variantWitnesses_asks (hsound : Sound witnesses shapes)
    (h : variantWitnesses witnesses variants = some result) :
    ∀ name ∈ variantQuestions shapes variants, (witnesses name).isSome := by
  induction variants generalizing result with
  | nil => simp [variantQuestions]
  | cons variant variants ih =>
    obtain ⟨product, hproduct, h⟩ := bind_eq_some_iff.mp h
    have hfields := extendRows_asks hsound hproduct
    refine forall_mem_append.mpr ⟨hfields, ?_⟩
    have hknown : fieldWitnessProductWith (known shapes) variant.fields = some product := by
      rw [← hproduct]
      refine (extendRows_known fun name hname => ?_).symm
      obtain ⟨found, hfound⟩ := isSome_iff_exists.mp (hfields name hname)
      rw [hfound, hsound _ _ hfound]
    rw [hknown]
    cases product with
    | none => simp
    | some rows =>
      obtain ⟨rest, hrest, -⟩ := bind_eq_some_iff.mp h
      exact ih hrest

theorem variantWitnesses_known_isSome : (variantWitnesses (known shapes) variants).isSome := by
  induction variants with
  | nil => rfl
  | cons variant variants ih =>
    obtain ⟨product, hfound⟩ := isSome_iff_exists.mp
      (extendRows_known_isSome shapes variant.fields [[]])
    obtain ⟨rest, hrest⟩ := isSome_iff_exists.mp ih
    simp only [variantWitnesses, fieldWitnessProductWith, hfound, hrest, bind_eq_bind, bind_some]
    cases product <;> rfl

theorem payloadWitnesses_known {arg : Option String}
    (h : ∀ name ∈ arg.toList, witnesses name = some (shapes name)) :
    payloadWitnesses witnesses arg = payloadWitnesses (known shapes) arg := by
  cases arg with
  | none => rfl
  | some inner => simp [payloadWitnesses, known, h inner (by simp)]

theorem payloadWitnesses_asks (h : payloadWitnesses witnesses arg = some domain) :
    ∀ name ∈ arg.toList, (witnesses name).isSome := by
  cases arg with
  | none => simp
  | some inner =>
    obtain ⟨found, hfound, -⟩ := map_eq_some_iff.mp h
    simp [hfound]

theorem payloadWitnesses_known_isSome {arg : Option String} :
    ∃ domain, payloadWitnesses (known shapes) arg = some domain := by
  cases arg <;> exact ⟨_, rfl⟩

theorem patternsCoverConstructorFields_known
    (h : ∀ name ∈ constructorQuestions shapes patterns fields, witnesses name = some (shapes name)) :
    patternsCoverConstructorFields witnesses patterns fields =
      patternsCoverConstructorFields (known shapes) patterns fields := by
  rw [constructorQuestions] at h
  rw [patternsCoverConstructorFields, patternsCoverConstructorFields]
  split_ifs at h ⊢ with hempty hany
  · rfl
  · rfl
  · have hproduct : fieldWitnessProductWith witnesses fields =
        fieldWitnessProductWith (known shapes) fields := extendRows_known h
    rw [hproduct]

theorem patternsCoverConstructorFields_asks (hsound : Sound witnesses shapes)
    (h : patternsCoverConstructorFields witnesses patterns fields = some answer) :
    ∀ name ∈ constructorQuestions shapes patterns fields, (witnesses name).isSome := by
  rw [patternsCoverConstructorFields] at h
  rw [constructorQuestions]
  split_ifs at h ⊢ with hempty hany
  · simp
  · simp
  · obtain ⟨product, hproduct, -⟩ := bind_eq_some_iff.mp h
    exact extendRows_asks hsound hproduct

theorem patternsCoverConstructorFields_known_isSome
    (shapes : String → Option (List PatternWitness)) (patterns : List MatchPattern)
    (fields : List FieldInfo) :
    (patternsCoverConstructorFields (known shapes) patterns fields).isSome := by
  rw [patternsCoverConstructorFields]
  split_ifs
  · rfl
  · rfl
  · obtain ⟨product, hfound⟩ := isSome_iff_exists.mp
      (extendRows_known_isSome shapes fields [[]])
    simp only [fieldWitnessProductWith, hfound, bind_eq_bind, bind_some]
    cases product <;> rfl

/-- The patterns of a variant against its fields. -/
abbrev armCovered (witnesses : String → Option (Option (List PatternWitness)))
    (patterns : List MatchPattern) (variant : SumVariant) : Option Bool :=
  patternsCoverConstructorFields witnesses
    (patterns.filter (·.constructorName = some variant.name)) variant.fields

private theorem allCovered_isSome
    (h : ∀ name ∈ armQuestions shapes patterns variants, witnesses name = some (shapes name)) :
    (allCovered (armCovered witnesses patterns) variants).isSome := by
  induction variants with
  | nil => rfl
  | cons variant variants ih =>
    obtain ⟨hfields, hrest⟩ := forall_mem_append.mp h
    obtain ⟨answer, hanswer⟩ := isSome_iff_exists.mp
      (patternsCoverConstructorFields_known_isSome shapes
        (patterns.filter (·.constructorName = some variant.name)) variant.fields)
    rw [hanswer] at hrest
    have hcovered := (patternsCoverConstructorFields_known hfields).trans hanswer
    simp only [allCovered, armCovered, hcovered, bind_eq_bind, bind_some]
    cases answer with
    | false => rfl
    | true => exact ih hrest

private theorem allCovered_asks (hsound : Sound witnesses shapes)
    (h : allCovered (armCovered witnesses patterns) variants = some result) :
    ∀ name ∈ armQuestions shapes patterns variants, (witnesses name).isSome := by
  induction variants with
  | nil => simp [armQuestions]
  | cons variant variants ih =>
    obtain ⟨answer, hanswer, h⟩ := bind_eq_some_iff.mp h
    have hfields := patternsCoverConstructorFields_asks hsound hanswer
    refine forall_mem_append.mpr ⟨hfields, ?_⟩
    have hshapes : ∀ name ∈ constructorQuestions shapes
        (patterns.filter (·.constructorName = some variant.name)) variant.fields,
        witnesses name = some (shapes name) := by
      intro name hname
      obtain ⟨found, hfound⟩ := isSome_iff_exists.mp (hfields name hname)
      rw [hfound, hsound _ _ hfound]
    have hknown := (patternsCoverConstructorFields_known hshapes).symm.trans hanswer
    rw [hknown]
    cases answer with
    | false => simp
    | true => exact ih h

end Answers

namespace Analyzer

variable {analyzer : Analyzer} {shapes : String → Option (List PatternWitness)}
  {witnesses : String → Option (Option (List PatternWitness))} {depth depth' : Nat}

theorem witnessesWith_known
    (h : ∀ name ∈ analyzer.typeQuestions shapes typeName, witnesses name = some (shapes name)) :
    analyzer.witnessesWith witnesses typeName = analyzer.witnessesWith (known shapes) typeName := by
  simp only [typeQuestions] at h
  simp only [witnessesWith]
  split at h
  all_goals rename_i hshape; rw [hshape]
  · simp only [payloadWitnesses_known h]
  · obtain ⟨hok, herr⟩ := forall_mem_append.mp h
    simp only [payloadWitnesses_known hok, payloadWitnesses_known herr]
  · exact variantWitnesses_known h
  · rename_i info
    have hproduct : fieldWitnessProductWith witnesses info.fields =
        fieldWitnessProductWith (known shapes) info.fields := extendRows_known h
    simp only [hproduct]

theorem witnessesWith_asks (hsound : Sound witnesses shapes)
    (h : analyzer.witnessesWith witnesses typeName = some result) :
    ∀ name ∈ analyzer.typeQuestions shapes typeName, (witnesses name).isSome := by
  rw [witnessesWith] at h
  rw [typeQuestions]
  split at h
  all_goals rename_i hshape; rw [hshape]
  · simp
  · obtain ⟨payload, hpayload, -⟩ := bind_eq_some_iff.mp h
    exact payloadWitnesses_asks hpayload
  · obtain ⟨ok, hok, h⟩ := bind_eq_some_iff.mp h
    obtain ⟨err, herr, -⟩ := bind_eq_some_iff.mp h
    exact forall_mem_append.mpr ⟨payloadWitnesses_asks hok, payloadWitnesses_asks herr⟩
  · exact variantWitnesses_asks hsound h
  · obtain ⟨rows, hrows, -⟩ := bind_eq_some_iff.mp h
    exact extendRows_asks hsound hrows
  · simp

private theorem witnessesWith_known_isSome (typeName : String) :
    (analyzer.witnessesWith (known shapes) typeName).isSome := by
  rw [isSome_iff_exists, witnessesWith]
  split
  · exact ⟨_, rfl⟩
  · obtain ⟨payload, hpayload⟩ := payloadWitnesses_known_isSome
    exact ⟨_, bind_eq_some_iff.mpr ⟨payload, hpayload, rfl⟩⟩
  · obtain ⟨ok, hok⟩ := payloadWitnesses_known_isSome
    obtain ⟨err, herr⟩ := payloadWitnesses_known_isSome
    exact ⟨_, bind_eq_some_iff.mpr ⟨ok, hok, bind_eq_some_iff.mpr ⟨err, herr, rfl⟩⟩⟩
  · exact isSome_iff_exists.mp variantWitnesses_known_isSome
  · obtain ⟨rows, hrows⟩ := isSome_iff_exists.mp (extendRows_known_isSome _ _ [[]])
    exact ⟨_, bind_eq_some_iff.mpr ⟨rows, hrows, rfl⟩⟩
  · exact ⟨_, rfl⟩

/-- A question is answered within a number of nested calls. -/
def Answered (analyzer : Analyzer) (depth : Nat) : Question → Prop
  | .shapes typeName => (analyzer.finiteTypeWitnesses depth typeName).isSome
  | .covered patterns typeName => (analyzer.patternsCoverType depth patterns typeName).isSome

theorem Answered.mono (h : depth ≤ depth') (hanswered : analyzer.Answered depth question) :
    analyzer.Answered depth' question := by
  cases question with
  | shapes typeName =>
    obtain ⟨found, hfound⟩ := isSome_iff_exists.mp hanswered
    exact isSome_iff_exists.mpr ⟨found, finiteTypeWitnesses_mono h _ _ hfound⟩
  | covered patterns typeName =>
    obtain ⟨answer, hanswer⟩ := isSome_iff_exists.mp hanswered
    exact isSome_iff_exists.mpr ⟨answer, patternsCoverType_mono h _ _ hanswer⟩

theorem Sound.eq_some (hsound : Sound witnesses shapes) (h : (witnesses typeName).isSome) :
    witnesses typeName = some (shapes typeName) := by
  obtain ⟨found, hfound⟩ := isSome_iff_exists.mp h
  rw [hfound, hsound _ _ hfound]

theorem payloadQuestions_answered :
    (payloadCovered (analyzer.patternsCoverType depth) patterns name arg).isSome ↔
      ∀ question ∈ payloadQuestions patterns name arg, analyzer.Answered depth question := by
  unfold payloadQuestions payloadCovered
  split_ifs
  · simp
  · cases arg <;> simp [Answered]

private theorem shapes_answered_iff (hsound : Sound (analyzer.finiteTypeWitnesses depth) shapes) :
    analyzer.Answered (depth + 1) (.shapes typeName) ↔
      ∀ inner ∈ analyzer.typeQuestions shapes typeName, analyzer.Answered depth (.shapes inner) := by
  constructor
  · intro h
    obtain ⟨found, hfound⟩ := isSome_iff_exists.mp h
    exact witnessesWith_asks hsound hfound
  · intro h
    have hknown := witnessesWith_known fun name hname => Sound.eq_some hsound (h name hname)
    exact (congrArg Option.isSome hknown).trans (witnessesWith_known_isSome typeName)

private theorem fields_answered_iff (hsound : Sound (analyzer.finiteTypeWitnesses depth) shapes) :
    (patternsCoverConstructorFields (analyzer.finiteTypeWitnesses depth) patterns fields).isSome ↔
      ∀ inner ∈ constructorQuestions shapes patterns fields, analyzer.Answered depth (.shapes inner) := by
  constructor
  · intro h
    obtain ⟨answer, hanswer⟩ := isSome_iff_exists.mp h
    exact patternsCoverConstructorFields_asks hsound hanswer
  · intro h
    have hknown := patternsCoverConstructorFields_known
      fun name hname => Sound.eq_some hsound (h name hname)
    exact (congrArg Option.isSome hknown).trans (patternsCoverConstructorFields_known_isSome _ _ _)

private theorem arms_answered_iff (hsound : Sound (analyzer.finiteTypeWitnesses depth) shapes) :
    (allCovered (armCovered (analyzer.finiteTypeWitnesses depth) patterns) variants).isSome ↔
      ∀ inner ∈ armQuestions shapes patterns variants, analyzer.Answered depth (.shapes inner) := by
  constructor
  · intro h
    obtain ⟨answer, hanswer⟩ := isSome_iff_exists.mp h
    exact allCovered_asks hsound hanswer
  · intro h
    exact allCovered_isSome fun name hname => Sound.eq_some hsound (h name hname)

theorem isSome_bind_some {α β : Type} {found : Option α} {f : α → β} :
    (found >>= fun a => some (f a)).isSome = found.isSome := by
  cases found <;> rfl

/-- One call of the check answers a question exactly if the questions it asks are answered. -/
theorem answered_succ (hsound : Sound (analyzer.finiteTypeWitnesses depth) shapes) :
    analyzer.Answered (depth + 1) question ↔
      ∀ inner ∈ analyzer.questions shapes question, analyzer.Answered depth inner := by
  cases question with
  | shapes typeName => rw [shapes_answered_iff hsound, questions, List.forall_mem_map]
  | covered patterns typeName =>
    change (analyzer.patternsCoverType (depth + 1) patterns typeName).isSome ↔ _
    simp only [patternsCoverType, questions]
    by_cases hany : (patterns.any (·.isBinder)) = true
    · simp [hany]
    by_cases hlist : typeRootName (analyzer.expand typeName) = "List"
    · simp [hany, hlist]
    rw [if_neg hany, if_neg hlist, if_neg hany, if_neg hlist]
    cases hshape : analyzer.shape (typeRootName (analyzer.expand typeName)) with
    | bool | other => simp
    | option => simp only [isSome_bind_some, payloadQuestions_answered]
    | result =>
      rw [forall_mem_append, ← payloadQuestions_answered, ← payloadQuestions_answered]
      cases payloadCovered (analyzer.patternsCoverType depth) patterns "Ok" _ with
      | none => simp
      | some ok => simpa using iff_of_eq (congrArg (· = true) isSome_bind_some)
    | sum variants => rw [List.forall_mem_map, ← arms_answered_iff hsound]
    | product info => rw [List.forall_mem_map, ← fields_answered_iff hsound]

/-- Enough nested calls for every member of a list. -/
theorem exists_depth {α : Type} {names : List α} {Enough : Nat → α → Prop}
    (hmono : ∀ {depth depth' name}, depth ≤ depth' → Enough depth name → Enough depth' name)
    (h : ∀ name ∈ names, ∃ depth, Enough depth name) :
    ∃ depth, ∀ name ∈ names, Enough depth name := by
  induction names with
  | nil => exact ⟨0, by simp⟩
  | cons name names ih =>
    obtain ⟨first, hfirst⟩ := h name mem_cons_self
    obtain ⟨rest, hrest⟩ := ih fun other hother => h other (mem_cons_of_mem _ hother)
    refine ⟨max first rest, fun other hother => ?_⟩
    rcases mem_cons.mp hother with rfl | hother
    · exact hmono (Nat.le_max_left _ _) hfirst
    · exact hmono (Nat.le_max_right _ _) (hrest other hother)

theorem not_answered_zero : ¬ analyzer.Answered 0 question := by
  cases question <;> simp [Answered, finiteTypeWitnesses, patternsCoverType]

/-- Answers are those of the shapes, and no chain of questions from an answered one is endless. -/
theorem sound_and_acc (hshapes : analyzer.IsShapes shapes) (depth : Nat) :
    Sound (analyzer.finiteTypeWitnesses depth) shapes ∧
      ∀ question, analyzer.Answered depth question → Acc (analyzer.Asks shapes) question := by
  induction depth with
  | zero =>
    refine ⟨fun typeName found h => ?_, fun question h => absurd h not_answered_zero⟩
    cases h
  | succ depth ih =>
    obtain ⟨hsound, hacc⟩ := ih
    have hacc' : ∀ question, analyzer.Answered (depth + 1) question →
        Acc (analyzer.Asks shapes) question := fun question h =>
      ⟨question, fun inner hinner => hacc inner ((answered_succ hsound).mp h inner hinner)⟩
    refine ⟨fun typeName found hfound => ?_, hacc'⟩
    have hknown := witnessesWith_known fun name hname =>
      Sound.eq_some hsound (witnessesWith_asks hsound hfound name hname)
    have hanswered : analyzer.Answered (depth + 1) (.shapes typeName) :=
      isSome_iff_exists.mpr ⟨found, hfound⟩
    rw [hshapes typeName (hacc' _ hanswered)] at hknown
    exact Option.some.inj (hfound.symm.trans hknown)

theorem exists_answered (hsound : ∀ depth, Sound (analyzer.finiteTypeWitnesses depth) shapes)
    (h : Acc (analyzer.Asks shapes) question) : ∃ depth, analyzer.Answered depth question := by
  induction h with
  | intro question _ ih =>
    obtain ⟨depth, hdepth⟩ : ∃ depth, ∀ asked ∈ analyzer.questions shapes question,
        analyzer.Answered depth asked := exists_depth Answered.mono ih
    exact ⟨depth + 1, (answered_succ (hsound depth)).mpr hdepth⟩

theorem exists_answered_iff (question : Question) (hshapes : analyzer.IsShapes shapes) :
    (∃ depth, analyzer.Answered depth question) ↔ Acc (analyzer.Asks shapes) question := by
  constructor
  · rintro ⟨depth, h⟩
    exact (sound_and_acc hshapes depth).2 question h
  · exact exists_answered fun depth => (sound_and_acc hshapes depth).1

open Classical in
/-- The shapes a type is answered with, at whichever depth. -/
noncomputable def answeredShapes (analyzer : Analyzer) (typeName : String) :
    Option (List PatternWitness) :=
  if h : ∃ found depth, analyzer.finiteTypeWitnesses depth typeName = some found then h.choose
  else none

theorem sound_answeredShapes :
    Sound (analyzer.finiteTypeWitnesses depth) analyzer.answeredShapes := by
  intro typeName found hfound
  have h : ∃ found depth, analyzer.finiteTypeWitnesses depth typeName = some found :=
    ⟨found, depth, hfound⟩
  rw [answeredShapes, dif_pos h]
  obtain ⟨depth', hdepth'⟩ := h.choose_spec
  have hleft := finiteTypeWitnesses_mono (Nat.le_max_left depth depth') _ _ hfound
  have hright := finiteTypeWitnesses_mono (Nat.le_max_right depth depth') _ _ hdepth'
  exact Option.some.inj (hleft.symm.trans hright)

/-- Every program has shapes of its types. -/
theorem exists_isShapes (analyzer : Analyzer) : ∃ shapes, analyzer.IsShapes shapes := by
  refine ⟨analyzer.answeredShapes, fun typeName hacc => ?_⟩
  obtain ⟨depth, hdepth⟩ := exists_answered (fun _ => sound_answeredShapes) hacc
  cases depth with
  | zero => exact absurd hdepth not_answered_zero
  | succ depth =>
    have hsound : Sound (analyzer.finiteTypeWitnesses (depth + 1)) analyzer.answeredShapes :=
      sound_answeredShapes
    have hfound := Sound.eq_some hsound hdepth
    rw [← hfound]
    exact (witnessesWith_known fun name hname => Sound.eq_some sound_answeredShapes
      (witnessesWith_asks sound_answeredShapes hfound name hname)).symm

end Analyzer

/-- `sum Tree { Leaf, Node(left: Tree, right: Tree) }`. -/
def trees : Analyzer where
  sums := [⟨"Tree", [], [⟨"Leaf", []⟩, ⟨"Node", [⟨"left", "Tree"⟩, ⟨"right", "Tree"⟩]⟩]⟩]
  interfaceSums := []
  sumVariantFields := [("Leaf", []), ("Node", [⟨"left", "Tree"⟩, ⟨"right", "Tree"⟩])]
  types := []
  typeAliases := []

/-- `Leaf`, `Node(Leaf, _)` and `Node(Node(_, _), _)`. -/
def treePatterns : List MatchPattern :=
  [.variant "Leaf" [], .variant "Node" [.variant "Leaf" [], .wildcard],
    .variant "Node" [.variant "Node" [.wildcard, .wildcard], .wildcard]]

theorem trees_root : typeRootName (trees.expand "Tree") = "Tree" := by decide +kernel

theorem trees_shape : trees.shape "Tree" =
    .sum [⟨"Leaf", []⟩, ⟨"Node", [⟨"left", "Tree"⟩, ⟨"right", "Tree"⟩]⟩] := by
  have hvariants : trees.sumVariantsForType "Tree" =
      some [⟨"Leaf", []⟩, ⟨"Node", [⟨"left", "Tree"⟩, ⟨"right", "Tree"⟩]⟩] := by decide
  simp [shape, hvariants]

theorem trees_endless (depth : Nat) : trees.finiteTypeWitnesses depth "Tree" = none := by
  induction depth with
  | zero => rfl
  | succ depth ih =>
    simp [finiteTypeWitnesses, witnessesWith, trees_root, trees_shape, variantWitnesses,
      fieldWitnessProductWith, extendRows, ih]

/-- `Leaf` and `Node(_, _)`. -/
def treeArms : List MatchPattern :=
  [.variant "Leaf" [], .variant "Node" [.wildcard, .wildcard]]

end RSScript.Semantics
