import RSScript.Semantics.Witnesses

/-!
# Soundness of the exhaustiveness check

Patterns that the check accepts match every value of the type, if they are patterns
of the scrutinee's type and nothing is missed in two places: of a list pattern the check
looks at the length only, and at a sum that an interface declares it goes by the names of
the built-in constructors (`firstTrue_not_covered`). At lists this is necessary if the type
of the elements has a value that no refutable element matches (`exists_unmatched_list`); in
general it is not: `[]`, `[true, ..]` and `[false, ..]` do match every list of booleans.
-/

namespace RSScript.Semantics

open RSScript.Syntax Analyzer
open List hiding count length product

attribute [local simp] Analyzer.Inhabits matchesValue bindingsMatchValue namesVariant

section Coverage

variable {analyzer : Analyzer}

theorem bindingsMatchWitness_of_all
    (h : ∀ index < bindings.length, ∃ sub name witness, bindings[index]? = some sub ∧
      fields[index]? = some (name, witness) ∧ patternMatchesWitness sub witness = true) :
    bindingsMatchWitness bindings fields = true := by
  induction bindings generalizing fields with
  | nil => rfl
  | cons sub subs ih =>
    obtain ⟨found, name, witness, hsub, hfield, hmatch⟩ := h 0 (by simp)
    obtain rfl : sub = found := by simpa using hsub
    cases fields with
    | nil => simp at hfield
    | cons field fields =>
      obtain rfl : field = (name, witness) := by simpa using hfield
      have htail : bindingsMatchWitness subs fields = true := by
        apply ih
        intro index hindex
        have hnext := h (index + 1) (by simpa using hindex)
        simpa only [getElem?_cons_succ] using hnext
      simp [bindingsMatchWitness, hmatch, htail]

/-- A pattern of the constructor that takes everything matches its values. -/
theorem matchesValue_of_irrefutable (hname : pattern.constructorName = some name)
    (h : constructorPatternIsIrrefutable pattern = true) :
    matchesValue pattern (.constructor name values) = true := by
  cases pattern with
  | variant found bindings =>
    obtain rfl : found = name := by simpa [MatchPattern.constructorName] using hname
    simp [bindingsMatchValue_of_binders h]
  | struct found patterns hasRest =>
    obtain rfl : found = name := by simpa [MatchPattern.constructorName] using hname
    simp [fieldsMatchValue_of_irrefutable h]
  | _ => simp [MatchPattern.constructorName] at hname

/-- A named pattern that matches a row matches values with the fields of the row. -/
theorem structMatches_of_row
    (hpositional : analyzer.positionalOnSums (.struct name patterns hasRest) = true)
    (hfields : ∀ field witness, row.lookup field = some witness →
      ∃ value, values.lookup field = some value ∧ analyzer.Represents witness value)
    (hmatch : patternMatchesFields (.struct name patterns hasRest) row = true) :
    matchesValue (.struct name patterns hasRest) (.constructor name values) = true := by
  rw [patternMatchesFields, Bool.or_eq_true] at hmatch
  rcases hmatch with hirrefutable | hmatch
  · exact matchesValue_of_irrefutable rfl hirrefutable
  · simp [fields_match hfields hpositional hmatch]

/-- A pattern that matches a row matches the values the row stands for. -/
theorem matchesValue_of_row (hname : pattern.constructorName = some name)
    (hpositional : analyzer.positionalOnSums pattern = true)
    (hfields : List.Forall₂ analyzer.FieldRepresents row values)
    (hmatch : patternMatchesFields pattern row = true) :
    matchesValue pattern (.constructor name values) = true := by
  by_cases hirrefutable : constructorPatternIsIrrefutable pattern = true
  · exact matchesValue_of_irrefutable hname hirrefutable
  cases pattern with
  | variant found bindings =>
    obtain rfl : found = name := by simpa [MatchPattern.constructorName] using hname
    rw [positionalOnSums, Bool.and_eq_true] at hpositional
    rw [patternMatchesFields, Bool.eq_false_iff.mpr hirrefutable] at hmatch
    have hbindings : bindingsMatchWitness bindings row = true := by
      apply bindingsMatchWitness_of_all
      intro index hindex
      have hindexed := all_eq_true.mp hmatch index (mem_range.mpr hindex)
      split at hindexed
      · rename_i sub field witness hsub hfield
        exact ⟨sub, field, witness, hsub, hfield, hindexed⟩
      · simp at hindexed
    simp [bindings_match hfields hpositional.2 hbindings]
  | struct found patterns hasRest =>
    obtain rfl : found = name := by simpa [MatchPattern.constructorName] using hname
    exact structMatches_of_row hpositional (lookup_of_forall₂ hfields) hmatch
  | _ => simp [MatchPattern.constructorName] at hname

/-- The three ways in which patterns cover the fields of a constructor. -/
theorem exists_match_of_covered
    (hcover : patternsCoverConstructorFields witnesses patterns fields = some true)
    (hempty : fields = [] → ∀ pattern ∈ patterns, matchesValue pattern value = true)
    (hirrefutable : ∀ pattern ∈ patterns, constructorPatternIsIrrefutable pattern = true →
      matchesValue pattern value = true)
    (hrow : ∀ rows, fieldWitnessProductWith witnesses fields = some (some rows) →
      ∃ row ∈ rows, ∀ pattern ∈ patterns, patternMatchesFields pattern row = true →
        matchesValue pattern value = true) :
    ∃ pattern ∈ patterns, matchesValue pattern value = true := by
  rw [patternsCoverConstructorFields] at hcover
  split at hcover
  · rename_i hnone
    have hsome : patterns ≠ [] := by
      rintro rfl
      simp at hcover
    obtain ⟨pattern, hpattern⟩ := exists_mem_of_ne_nil patterns hsome
    exact ⟨pattern, hpattern, hempty (isEmpty_iff.mp hnone) pattern hpattern⟩
  · split at hcover
    · rename_i hany
      obtain ⟨pattern, hpattern, htrue⟩ := any_eq_true.mp hany
      exact ⟨pattern, hpattern, hirrefutable pattern hpattern htrue⟩
    · obtain ⟨product, hproduct, hcover⟩ := Option.bind_eq_some_iff.mp hcover
      cases product with
      | none => simp at hcover
      | some rows =>
        obtain ⟨row, hmem, hmatches⟩ := hrow rows hproduct
        have hall := all_eq_true.mp (Option.some.inj hcover) row hmem
        obtain ⟨pattern, hpattern, htrue⟩ := any_eq_true.mp hall
        exact ⟨pattern, hpattern, hmatches pattern hpattern htrue⟩

variable {patterns : List MatchPattern}

theorem mem_listCounts (h : (count, open_) ∈ patterns.filterMap (fun pattern => match pattern with
      | .list leading rest trailing => some (leading.length + trailing.length, rest.isSome)
      | _ => none)) :
    ∃ leading rest trailing, MatchPattern.list leading rest trailing ∈ patterns ∧
      leading.length + trailing.length = count ∧ rest.isSome = open_ := by
  obtain ⟨pattern, hpattern, hsome⟩ := mem_filterMap.mp h
  split at hsome
  · rename_i leading rest trailing
    obtain ⟨hcount, hrest⟩ := Prod.mk.inj (Option.some.inj hsome)
    exact ⟨leading, rest, trailing, hpattern, hcount, hrest⟩
  · simp at hsome

/-- Lists: a rest pattern is long enough for every length from its own on. -/
theorem exists_takesLength (hcover : listLengthsCovered patterns = true) (length : Nat) :
    ∃ pattern ∈ patterns, takesLength length pattern = true := by
  rw [listLengthsCovered] at hcover
  split at hcover
  · simp at hcover
  · rename_i minRest hmin
    obtain ⟨⟨count, open_⟩, hfound, rfl⟩ := mem_map.mp (min?_mem hmin)
    obtain ⟨hfound, hopen⟩ := mem_filter.mp hfound
    by_cases hlong : count ≤ length
    · obtain ⟨leading, rest, trailing, hpattern, hcount, hrest⟩ := mem_listCounts hfound
      have hrest : rest.isSome = true := by rw [hrest]; exact hopen
      exact ⟨_, hpattern, by simpa [takesLength, hrest, hcount] using hlong⟩
    · have hfixed := all_eq_true.mp hcover length (mem_range.mpr (Nat.lt_of_not_le hlong))
      obtain ⟨⟨found, fixed⟩, hfound, hlength⟩ := mem_map.mp (of_decide_eq_true hfixed)
      obtain ⟨hfound, hclosed⟩ := mem_filter.mp hfound
      obtain ⟨leading, rest, trailing, hpattern, hcount, hrest⟩ := mem_listCounts hfound
      have hrest : rest.isSome = false := by rw [hrest]; simpa using hclosed
      exact ⟨_, hpattern, by simpa [takesLength, hrest, hcount] using hlength.symm⟩

theorem matchesValue_of_takesLength (hlength : takesLength items.length pattern = true)
    (hbind : elementsBind pattern = true) : matchesValue pattern (.list items) = true := by
  cases pattern with
  | list leading rest trailing =>
    have hbinders : ∀ element ∈ leading ++ trailing, element.isBinder = true := all_eq_true.mp hbind
    have hcount : leading.length + trailing.length ≤ items.length := by
      cases hrest : rest.isSome <;> simp [takesLength, hrest] at hlength <;> omega
    have hleading : itemsMatch leading items = true :=
      itemsMatch_of_binders (fun element h => hbinders element (mem_append_left _ h)) (by omega)
    have htrailing :
        itemsMatch trailing (items.drop (items.length - trailing.length)) = true :=
      itemsMatch_of_binders (fun element h => hbinders element (mem_append_right _ h))
        (by rw [length_drop]; omega)
    simp_all [takesLength]
  | _ => simp [takesLength] at hlength

theorem mem_payloadPatterns :
    payload ∈ payloadPatterns name patterns ↔ ∃ rest, .variant name (payload :: rest) ∈ patterns := by
  rw [payloadPatterns, mem_filterMap]
  constructor
  · rintro ⟨pattern, hpattern, hsome⟩
    split at hsome
    · split at hsome
      · rename_i hname
        subst hname
        obtain ⟨rest, rfl⟩ := head?_eq_some_iff.mp hsome
        exact ⟨rest, hpattern⟩
      · simp at hsome
    · simp at hsome
  · rintro ⟨rest, hpattern⟩
    exact ⟨_, hpattern, by simp⟩

variable {root : String}

theorem constructorFields_builtin (hwf : analyzer.WellFormed)
    (hroot : root ∈ ["List", "Bool", "Option", "Result"]) :
    analyzer.constructorFields root name = none := by
  obtain ⟨hsums, hproduct, hinterface⟩ := hwf.builtins root hroot
  simp [constructorFields, hsums, hproduct, hinterface]

theorem root_of_payload (h : (root, name, index) ∈ payloadConstructors) :
    root ∈ ["Option", "Result"] := by
  rw [payloadConstructors] at h
  have hroot := mem_map_of_mem (f := Prod.fst) h
  simp_all

theorem builtin_of_root (h : root ∈ ["Option", "Result"]) :
    root ∈ ["List", "Bool", "Option", "Result"] :=
  mem_cons_of_mem _ (mem_cons_of_mem _ h)

variable {typeName : String}

/-- A positional pattern of `Option` or `Result` has at most one sub-pattern, of the
type of the payload. -/
theorem payload_fits (hwf : analyzer.WellFormed)
    (hroot : (analyzer.root typeName, name, index) ∈ payloadConstructors)
    (h : analyzer.Fits typeName (.variant name bindings)) :
    bindings = [] ∨ ∃ payload, bindings = [payload] ∧
      ∀ inner, (analyzer.args typeName)[index]? = some inner →
        analyzer.Fits inner payload := by
  cases h with
  | binder h => simp [MatchPattern.isBinder] at h
  | bare => exact .inl rfl
  | @payload _ _ index' payload hroot' hpayload =>
    obtain rfl : index = index' := by
      generalize analyzer.root typeName = root at hroot hroot'
      simp only [payloadConstructors, mem_cons, Prod.mk.injEq, not_mem_nil, or_false] at hroot hroot'
      rcases hroot with ⟨rfl, rfl, rfl⟩ | ⟨rfl, rfl, rfl⟩ | ⟨rfl, rfl, rfl⟩ <;> simp_all
    exact .inr ⟨payload, rfl, hpayload⟩
  | positional hfields hlength =>
    rw [constructorFields_builtin hwf (builtin_of_root (root_of_payload hroot))] at hfields
    simp at hfields

/-- The patterns for a payload fit its type. -/
theorem payloadPatterns_fit (hwf : analyzer.WellFormed)
    (hroot : (analyzer.root typeName, name, index) ∈ payloadConstructors)
    (hfits : ∀ pattern ∈ patterns, analyzer.Fits typeName pattern)
    (harg : (analyzer.args typeName)[index]? = some argument)
    (hmem : payload ∈ payloadPatterns name patterns) :
    .variant name [payload] ∈ patterns ∧ analyzer.Fits argument payload := by
  obtain ⟨rest, hpattern⟩ := mem_payloadPatterns.mp hmem
  rcases payload_fits hwf hroot (hfits _ hpattern) with hnil | ⟨found, hone, hfound⟩
  · simp at hnil
  · obtain ⟨rfl, rfl⟩ := cons_eq_cons.mp hone
    exact ⟨hpattern, hfound argument harg⟩

/-- The payload of a constructor is covered if the patterns for it cover its type. -/
theorem exists_payload_match (hwf : analyzer.WellFormed)
    (hroot : (analyzer.root typeName, name, index) ∈ payloadConstructors)
    (hfits : ∀ pattern ∈ patterns, analyzer.Fits typeName pattern)
    (hpositional : ∀ pattern ∈ patterns, analyzer.positionalOnSums pattern = true)
    (hbinder : patterns.any (·.isBinder) = false)
    (hmissed : ∀ reached reachedType, analyzer.Reaches patterns typeName reached reachedType →
      analyzer.NothingMissed reached reachedType)
    {cover : List MatchPattern → String → Option Bool}
    (ih : ∀ patterns inner, (∀ pattern ∈ patterns, analyzer.Fits inner pattern) →
      (∀ pattern ∈ patterns, analyzer.positionalOnSums pattern = true) →
      (∀ reached reachedType, analyzer.Reaches patterns inner reached reachedType →
        analyzer.NothingMissed reached reachedType) →
      cover patterns inner = some true → ∀ value, analyzer.Inhabits bound inner value →
        ∃ pattern ∈ patterns, matchesValue pattern value = true)
    (hcover : payloadCovered cover patterns name (analyzer.args typeName)[index]? = some true)
    (hfields : analyzer.InhabitsPayload bound (analyzer.args typeName)[index]? fields) :
    ∃ pattern ∈ patterns, matchesValue pattern (.constructor name fields) = true := by
  unfold payloadCovered at hcover
  split at hcover
  · rename_i hirrefutable
    obtain ⟨pattern, hpattern, hbare⟩ := any_eq_true.mp hirrefutable
    split at hbare
    · rw [Bool.and_eq_true, beq_iff_eq, List.isEmpty_iff] at hbare
      obtain ⟨rfl, rfl⟩ := hbare
      exact ⟨_, hpattern, by simp⟩
    · simp at hbare
  · rename_i hbare
    generalize harg : (analyzer.args typeName)[index]? = arg at hcover hfields
    match fields, hfields with
    | [(key, value)], ⟨_, hvalue⟩ =>
      cases arg with
      | none => simp at hcover
      | some inner =>
        have hpayload (payload) (hmem : payload ∈ payloadPatterns name patterns) :=
          payloadPatterns_fit hwf hroot hfits harg hmem
        obtain ⟨payload, hmem, hmatch⟩ := ih (payloadPatterns name patterns) inner
          (fun payload hmem => (hpayload payload hmem).2)
          (fun payload hmem => by
            have hnames := hpositional _ (hpayload payload hmem).1
            simp only [positionalOnSums, positionalOnSumsAll, Bool.and_eq_true] at hnames
            exact hnames.2.1)
          (fun reached reachedType h => hmissed reached reachedType
            (.payload hbinder hroot (Bool.eq_false_iff.mpr hbare) harg h)) hcover value hvalue
        exact ⟨_, (hpayload payload hmem).1, by simp [hmatch]⟩

theorem allCovered_eq_true (h : allCovered covered variants = some true)
    (hvariant : variant ∈ variants) : covered variant = some true := by
  induction variants with
  | nil => simp at hvariant
  | cons first variants ih =>
    obtain ⟨answer, hanswer, h⟩ := Option.bind_eq_some_iff.mp h
    cases answer with
    | false => simp at h
    | true =>
      rcases mem_cons.mp hvariant with rfl | hvariant
      · exact hanswer
      · exact ih h hvariant

/-- The declared fields of a variant do not depend on which of its occurrences is
looked up. -/
theorem constructorFields_variant (hwf : analyzer.WellFormed)
    (hfind : analyzer.sums.find? (·.name = root) = some decl) (hvariant : variant ∈ decl.variants)
    (hfields : analyzer.constructorFields root variant.name = some fields) :
    fields = variant.fields := by
  rw [Analyzer.constructorFields, hfind] at hfields
  obtain ⟨found, hfound, rfl⟩ := Option.map_eq_some_iff.mp hfields
  have hname : found.name = variant.name := by simpa using find?_some hfound
  have hdecl := mem_of_find?_eq_some hfind
  have htable := hwf.variants decl hdecl found (mem_of_find?_eq_some hfound)
  rw [hname, hwf.variants decl hdecl variant hvariant] at htable
  exact (Option.some.inj htable).symm

/-- A pattern of a constructor without fields has no sub-patterns. -/
theorem matchesValue_of_no_fields (hfits : analyzer.Fits typeName pattern)
    (hname : pattern.constructorName = some name)
    (hroot : analyzer.root typeName ∉ ["Option", "Result"])
    (hfields : ∀ fields, analyzer.constructorFields (analyzer.root typeName) name =
      some fields → fields = []) :
    matchesValue pattern (.constructor name values) = true := by
  cases hfits with
  | binder h => exact matchesValue_of_isBinder h _
  | literal | list => simp [MatchPattern.constructorName] at hname
  | bare hbuiltin => exact absurd hbuiltin hroot
  | payload hbuiltin => exact absurd (root_of_payload hbuiltin) hroot
  | @positional _ found bindings fields hdeclared hlength =>
    obtain rfl : found = name := by simpa [MatchPattern.constructorName] using hname
    rw [hfields fields hdeclared] at hlength
    obtain rfl : bindings = [] := length_eq_zero_iff.mp (Nat.le_zero.mp hlength)
    simp
  | @named _ found patterns hasRest fields hdeclared hnames =>
    obtain rfl : found = name := by simpa [MatchPattern.constructorName] using hname
    rw [hfields fields hdeclared] at hnames
    obtain rfl : patterns = [] := eq_nil_iff_forall_not_mem.mpr fun field hmem => by
      simpa using hnames field hmem
    simp [fieldsMatchValue]

/-- The values of a sum: each variant's patterns cover its fields. -/
theorem exists_sum_match (hwf : analyzer.WellFormed)
    (hfind : analyzer.sums.find? (·.name = analyzer.root typeName) = some decl)
    (hfits : ∀ pattern ∈ patterns, analyzer.Fits typeName pattern)
    (hpositional : ∀ pattern ∈ patterns, analyzer.positionalOnSums pattern = true)
    (hvariant : variant ∈ decl.variants)
    (hcover : patternsCoverConstructorFields (analyzer.finiteTypeWitnesses depth)
      (patterns.filter (·.constructorName = some variant.name)) variant.fields = some true)
    (hvalues : analyzer.InhabitsFields decl.typeParams variant.fields values) :
    ∃ pattern ∈ patterns, matchesValue pattern (.constructor variant.name values) = true := by
  have hnames : ∀ pattern ∈ patterns.filter (·.constructorName = some variant.name),
      pattern ∈ patterns ∧ pattern.constructorName = some variant.name := by
    intro pattern hpattern
    simpa using mem_filter.mp hpattern
  have hroot : analyzer.root typeName ∉ ["Option", "Result"] := by
    intro hbuiltin
    have hnone := (hwf.builtins _ (builtin_of_root hbuiltin)).1
    rw [hfind] at hnone
    simp at hnone
  have hparams := hwf.sumParams decl (mem_of_find?_eq_some hfind)
  obtain ⟨pattern, hpattern, hmatch⟩ := @exists_match_of_covered _ _ _
    (.constructor variant.name values) hcover
    (fun hnone pattern hpattern =>
      matchesValue_of_no_fields (hfits _ (hnames pattern hpattern).1) (hnames pattern hpattern).2
        hroot (fun fields hfields => by
          rw [constructorFields_variant hwf hfind hvariant hfields, hnone]))
    (fun pattern hpattern hirrefutable =>
      matchesValue_of_irrefutable (hnames pattern hpattern).2 hirrefutable)
    (fun rows hrows => by
      obtain ⟨row, hrow, hfields⟩ := exists_row (enumerates hwf) hparams hrows hvalues
      exact ⟨row, hrow, fun pattern hpattern => matchesValue_of_row (hnames pattern hpattern).2
        (hpositional _ (hnames pattern hpattern).1) hfields⟩)
  exact ⟨pattern, (hnames pattern hpattern).1, hmatch⟩

section Products

variable {info : TypeInfo} (hwf : analyzer.WellFormed)
  (hfind : analyzer.sums.find? (·.name = analyzer.root typeName) = none)
  (hproduct : analyzer.productType (analyzer.root typeName) = some info)

include hwf hfind hproduct

/-- At a struct or class only named patterns of the type are left. -/
theorem struct_of_fits (hfits : analyzer.Fits typeName pattern) (hbinder : pattern.isBinder = false)
    (hpositional : analyzer.positionalOnSums pattern = true) :
    ∃ patterns hasRest, pattern = .struct info.name patterns hasRest ∧
      ∀ field ∈ patterns, field.name ∈ info.fieldsOrdered.map FieldInfo.name := by
  have hname := (productType_eq_some hproduct).2
  have hbuiltin : analyzer.root typeName ∉ ["List", "Bool", "Option", "Result"] := by
    intro hmem
    rw [(hwf.builtins _ hmem).2.1] at hproduct
    simp at hproduct
  have hfields : ∀ name fields, analyzer.constructorFields
      (analyzer.root typeName) name = some fields →
      name = info.name ∧ fields = info.fieldsOrdered := by
    intro name fields h
    rw [constructorFields, hfind] at h
    simp only [hproduct] at h
    split at h
    · rename_i heq
      exact ⟨heq.trans hname.symm, (Option.some.inj h).symm⟩
    · simp at h
  cases hfits with
  | binder h => simp [h] at hbinder
  | literal hscalar => simp [hscalar] at hproduct
  | list hroot => simp [hroot] at hbuiltin
  | bare hroot => exact absurd (builtin_of_root hroot) hbuiltin
  | payload hroot => exact absurd (builtin_of_root (root_of_payload hroot)) hbuiltin
  | positional hdeclared =>
    obtain ⟨rfl, -⟩ := hfields _ _ hdeclared
    rw [← hname] at hproduct
    simp [positionalOnSums, hproduct] at hpositional
  | @named _ _ patterns hasRest _ hdeclared hnames =>
    obtain ⟨rfl, rfl⟩ := hfields _ _ hdeclared
    exact ⟨patterns, hasRest, rfl, hnames⟩

/-- The values of a struct or class. -/
theorem exists_product_match (hfits : ∀ pattern ∈ patterns, analyzer.Fits typeName pattern)
    (hbinder : ∀ pattern ∈ patterns, pattern.isBinder = false)
    (hpositional : ∀ pattern ∈ patterns, analyzer.positionalOnSums pattern = true)
    (hcover : patternsCoverConstructorFields (analyzer.finiteTypeWitnesses depth) patterns
      info.fields = some true)
    (hvalues : analyzer.InhabitsFields info.typeParams info.fieldsOrdered values) :
    ∃ pattern ∈ patterns, matchesValue pattern (.constructor info.name values) = true := by
  have hstruct : ∀ pattern ∈ patterns, ∃ fields hasRest,
      pattern = .struct info.name fields hasRest ∧
        ∀ field ∈ fields, field.name ∈ info.fieldsOrdered.map FieldInfo.name :=
    fun pattern hpattern => struct_of_fits hwf hfind hproduct (hfits pattern hpattern)
      (hbinder pattern hpattern) (hpositional pattern hpattern)
  apply exists_match_of_covered hcover
  · intro hnone pattern hpattern
    obtain ⟨fields, hasRest, rfl, hnames⟩ := hstruct pattern hpattern
    have hempty : fields = [] := eq_nil_iff_forall_not_mem.mpr fun field hmem => by
      simpa [hnone] using info.fields_cover (hnames field hmem)
    simp [hempty, fieldsMatchValue]
  · intro pattern hpattern hirrefutable
    obtain ⟨fields, hasRest, rfl, -⟩ := hstruct pattern hpattern
    exact matchesValue_of_irrefutable rfl hirrefutable
  · intro rows hrows
    obtain ⟨row, hrow, hlookup⟩ := exists_product_row hwf (enumerates hwf)
      (productType_eq_some hproduct).1 hrows hvalues
    refine ⟨row, hrow, fun pattern hpattern hmatch => ?_⟩
    obtain ⟨fields, hasRest, rfl, -⟩ := hstruct pattern hpattern
    exact structMatches_of_row (hpositional _ hpattern) hlookup hmatch

end Products

/-- A pattern for `None` has no sub-patterns. -/
theorem none_matches (hwf : analyzer.WellFormed) (hroot : analyzer.root typeName = "Option")
    (hfits : analyzer.Fits typeName pattern) (hname : namesVariant "None" pattern = true) :
    matchesValue pattern (.constructor "None" []) = true := by
  cases hfits with
  | binder h => exact matchesValue_of_isBinder h _
  | literal | list | named => simp at hname
  | bare => simp_all
  | payload hmem => simp_all [payloadConstructors]
  | positional hfields =>
    rw [constructorFields_builtin hwf (by simp [hroot])] at hfields
    simp at hfields

/-- A type without constructors has no constructor patterns. -/
theorem constructorName_of_other (hshape : analyzer.shape (analyzer.root typeName) = .other)
    (hfind : analyzer.sums.find? (·.name = analyzer.root typeName) = none)
    (hproduct : analyzer.productType (analyzer.root typeName) = none)
    (hinterface : analyzer.interfaceSum (analyzer.root typeName) = none)
    (hfits : analyzer.Fits typeName pattern) : pattern.constructorName = none := by
  have hfields : ∀ name, analyzer.constructorFields
      (analyzer.root typeName) name = none := by
    intro name
    rw [constructorFields, hfind]
    simp [hproduct, hinterface]
  have hroot : analyzer.root typeName ≠ "Option" ∧
      analyzer.root typeName ≠ "Result" := by
    constructor <;> intro heq <;> simp [shape, heq] at hshape
  cases hfits with
  | binder h => cases pattern <;> simp_all [MatchPattern.isBinder, MatchPattern.constructorName]
  | literal | list => rfl
  | bare hmem => simp_all
  | payload hmem => simp_all [payloadConstructors]
  | positional hdeclared => simp [hfields] at hdeclared
  | named hdeclared => simp [hfields] at hdeclared

/-- A length that is covered is one of a pattern without refutable elements. -/
theorem exists_list_match (hbound : ∀ param ∈ bound, analyzer.Unused param)
    (hlist : analyzer.root typeName = "List") (hmissed : analyzer.NothingMissed patterns typeName)
    (hcover : listLengthsCovered patterns = true)
    (hvalue : analyzer.Inhabits bound typeName value) :
    ∃ pattern ∈ patterns, matchesValue pattern value = true := by
  have hnot : "List" ∉ bound := fun hmem => (hbound _ hmem).1 rfl
  cases value with
  | list items =>
    obtain ⟨pattern, hpattern, hlength, hbind⟩ := hmissed.lists hlist items.length
      (exists_takesLength hcover items.length)
    exact ⟨pattern, hpattern, matchesValue_of_takesLength hlength hbind⟩
  | _ => simp [form, hlist, hnot] at hvalue

theorem exists_bool_match (hmem : found ∈ boolLiterals patterns) :
    ∃ pattern ∈ patterns, matchesValue pattern (.scalar (.bool found)) = true := by
  obtain ⟨pattern, hpattern, hsome⟩ := mem_filterMap.mp hmem
  split at hsome
  · obtain rfl := Option.some.inj hsome
    exact ⟨_, hpattern, by simp⟩
  · simp at hsome

theorem exists_interface_match (hmissed : analyzer.NothingMissed patterns typeName)
    (hinterface : analyzer.interfaceSum (analyzer.root typeName) = some decl)
    (hvariant : variant ∈ decl.variants) :
    ∃ pattern ∈ patterns, matchesValue pattern (.constructor variant.name values) = true := by
  obtain ⟨pattern, hpattern, hname, hall⟩ := hmissed.interfaces decl hinterface variant hvariant
  exact ⟨pattern, hpattern, matchesValue_of_irrefutable hname hall⟩

end Coverage

section Missed

variable {analyzer : Analyzer}

theorem exists_matched_item (h : itemsMatch patterns items = true) (hmem : pattern ∈ patterns) :
    ∃ item ∈ items, matchesValue pattern item = true := by
  induction patterns generalizing items with
  | nil => simp at hmem
  | cons first patterns ih =>
    cases items with
    | nil => simp [itemsMatch] at h
    | cons item items =>
      simp only [itemsMatch, Bool.and_eq_true, tail_cons] at h
      rcases mem_cons.mp hmem with rfl | hrest
      · exact ⟨item, mem_cons_self, h.1⟩
      · obtain ⟨found, hfound, hmatch⟩ := ih h.2 hrest
        exact ⟨found, mem_cons_of_mem _ hfound, hmatch⟩

theorem inhabitsAll_replicate (h : analyzer.Inhabits bound typeName value) :
    analyzer.InhabitsAll bound typeName (replicate length value) := by
  induction length with
  | zero => exact trivial
  | succ length ih => exact ⟨h, ih⟩

theorem Analyzer.Reaches.no_binder (h : analyzer.Reaches patterns typeName reached reachedType) :
    ∀ pattern ∈ reached, pattern.isBinder = false := by
  induction h with
  | here hbinder => simpa using hbinder
  | payload _ _ _ _ _ ih => exact ih

/-- The payload of a built-in constructor, as a value of the type. -/
theorem inhabits_payload (hbound : ∀ param ∈ bound, analyzer.Unused param)
    (hroot : (analyzer.root typeName, name, index) ∈ payloadConstructors)
    (harg : (analyzer.args typeName)[index]? = some argument)
    (hvalue : analyzer.Inhabits bound argument value) :
    analyzer.Inhabits bound typeName (.constructor name [("value", value)]) := by
  have hnot : analyzer.root typeName ∉ bound := fun hmem => by
    have hshape := (hbound _ hmem).2.1
    have hbuiltin := root_of_payload hroot
    simp only [mem_cons, not_mem_nil, or_false] at hbuiltin
    rcases hbuiltin with heq | heq <;> simp [shape, heq] at hshape
  simp only [payloadConstructors, mem_cons, Prod.mk.injEq, not_mem_nil, or_false] at hroot
  rcases hroot with ⟨heq, rfl, rfl⟩ | ⟨heq, rfl, rfl⟩ | ⟨heq, rfl, rfl⟩ <;>
    simp_all [form, InhabitsPayload]

/-- A value that is missed where the check comes to is missed at the scrutinee. -/
theorem exists_unmatched_of_reaches (hwf : analyzer.WellFormed)
    (hbound : ∀ param ∈ bound, analyzer.Unused param)
    (hreach : analyzer.Reaches patterns typeName reached reachedType)
    (hfits : ∀ pattern ∈ patterns, analyzer.Fits typeName pattern)
    (hvalue : ∃ value, analyzer.Inhabits bound reachedType value ∧
      ∀ pattern ∈ reached, matchesValue pattern value = false) :
    ∃ value, analyzer.Inhabits bound typeName value ∧
      ∀ pattern ∈ patterns, matchesValue pattern value = false := by
  induction hreach with
  | here => exact hvalue
  | @payload patterns typeName name index inner _ _ hbinder hroot hpayload harg _ ih =>
    have hpayloads : ∀ payload ∈ payloadPatterns name patterns, analyzer.Fits inner payload :=
      fun payload hmem => (payloadPatterns_fit hwf hroot hfits harg hmem).2
    obtain ⟨value, hinhabits, hunmatched⟩ := ih hpayloads hvalue
    refine ⟨.constructor name [("value", value)], inhabits_payload hbound hroot harg hinhabits, ?_⟩
    intro pattern hpattern
    cases pattern with
    | variant found bindings =>
      by_cases hname : found = name
      · subst hname
        cases bindings with
        | nil =>
          have hbare : hasIrrefutablePayload found patterns = true :=
            any_eq_true.mpr ⟨_, hpattern, by simp⟩
          simp [hbare] at hpayload
        | cons payload rest =>
          have hmiss := hunmatched payload (mem_payloadPatterns.mpr ⟨rest, hpattern⟩)
          have hnot : payload.isBinder = false := Bool.eq_false_iff.mpr fun h => by
            simp [matchesValue_of_isBinder h] at hmiss
          simp [hmiss, hnot]
      · simp [hname]
    | struct found fields hasRest =>
      cases hfits _ hpattern with
      | binder h => simp [MatchPattern.isBinder] at h
      | named hfields =>
        simp [constructorFields_builtin hwf (builtin_of_root (root_of_payload hroot))] at hfields
    | binding | wildcard =>
      rw [any_eq_false] at hbinder
      simpa [MatchPattern.isBinder] using hbinder _ hpattern
    | literal | list => simp

/-- Where the element type has a value that no refutable element matches, soundness fails
as soon as one length is left to patterns with such elements. -/
theorem exists_unmatched_list (hwf : analyzer.WellFormed)
    (hbound : ∀ param ∈ bound, analyzer.Unused param)
    (hfits : ∀ pattern ∈ patterns, analyzer.Fits typeName pattern)
    (hreach : analyzer.Reaches patterns typeName reached reachedType)
    (hlist : analyzer.root reachedType = "List")
    (hlength : ∀ pattern ∈ reached, takesLength length pattern = true → elementsBind pattern = false)
    (hvalue : ∀ element, (analyzer.args reachedType)[0]? = some element →
      analyzer.Inhabits bound element value)
    (hmiss : ∀ leading rest trailing, .list leading rest trailing ∈ reached →
      ∀ element ∈ leading ++ trailing, element.isBinder = false → matchesValue element value = false) :
    ∃ value, analyzer.Inhabits bound typeName value ∧
      ∀ pattern ∈ patterns, matchesValue pattern value = false := by
  refine exists_unmatched_of_reaches hwf hbound hreach hfits
    ⟨.list (replicate length value), ?_, fun pattern hpattern => ?_⟩
  · have hnot : "List" ∉ bound := fun hmem => (hbound _ hmem).1 rfl
    cases helement : (analyzer.args reachedType)[0]? with
    | none => simp [form, hlist, hnot, helement]
    | some element =>
      simpa [form, hlist, hnot, helement] using inhabitsAll_replicate (hvalue element helement)
  · have hbinder := hreach.no_binder pattern hpattern
    cases pattern with
    | binding | wildcard => simp [MatchPattern.isBinder] at hbinder
    | list leading rest trailing =>
      -- A pattern of that length has an element that every item of the list escapes.
      rw [Bool.eq_false_iff]
      intro hmatch
      simp only [matchesValue, length_replicate, Bool.and_eq_true] at hmatch
      obtain ⟨⟨htakes, hleading⟩, htrailing⟩ := hmatch
      have hrefutable := hlength _ hpattern htakes
      obtain ⟨element, hmem, hnot⟩ := all_eq_false.mp hrefutable
      have hescapes := hmiss leading rest trailing hpattern element hmem (Bool.eq_false_iff.mpr hnot)
      have hitem : ∃ item ∈ replicate length value, matchesValue element item = true := by
        rcases mem_append.mp hmem with hmem | hmem
        · exact exists_matched_item hleading hmem
        · obtain ⟨item, hitem, hmatches⟩ := exists_matched_item htrailing hmem
          exact ⟨item, mem_of_mem_drop hitem, hmatches⟩
      obtain ⟨item, hitem, hmatches⟩ := hitem
      rw [eq_of_mem_replicate hitem, hescapes] at hmatches
      simp at hmatches
    | literal | variant | struct => simp

end Missed

/-- `sum Light { On(bright: Bool), Off }`, and in an interface
`sum Reply { Ok, Err, Pending }`. -/
def lights : Analyzer where
  sums := [⟨"Light", [], [⟨"On", [⟨"bright", "Bool"⟩]⟩, ⟨"Off", []⟩]⟩]
  interfaceSums := [⟨"Reply", [], [⟨"Ok", []⟩, ⟨"Err", []⟩, ⟨"Pending", []⟩]⟩]
  sumVariantFields := [("On", [⟨"bright", "Bool"⟩]), ("Off", []), ("Ok", []), ("Err", []),
    ("Pending", [])]
  types := []
  typeAliases := []

/-- `Ok(On(true))`, `Ok(On(false))`, `Ok(Off)`, `Err([])`, `Err([true, ..])` and
`Err([_, ..])`. -/
def lightPatterns : List MatchPattern :=
  [.variant "Ok" [.variant "On" [.literal (.bool true)]],
    .variant "Ok" [.variant "On" [.literal (.bool false)]],
    .variant "Ok" [.variant "Off" []],
    .variant "Err" [.list [] none []],
    .variant "Err" [.list [.literal (.bool true)] (some none) []],
    .variant "Err" [.list [.wildcard] (some none) []]]

theorem lights_interfaceSum (root : String) (h : root ≠ "Reply") : lights.interfaceSum root = none := by
  simp [interfaceSum, lights, h.symm]

theorem lights_wellFormed : lights.WellFormed where
  builtins := by decide +kernel
  variants := by decide
  fields := by decide
  sumParams := by simp [lights]
  typeParams := by simp [lights]

theorem lights_root :
    lights.root "Result<Light, List<Bool>>" = "Result" ∧ lights.root "Light" = "Light" ∧
      lights.root "List<Bool>" = "List" ∧ lights.root "Bool" = "Bool" ∧
      lights.root "Reply" = "Reply" := by decide +kernel

theorem lights_args :
    lights.args "Result<Light, List<Bool>>" = ["Light", "List<Bool>"] ∧
      lights.args "List<Bool>" = ["Bool"] := by decide +kernel

theorem lights_form :
    lights.form [] "Result<Light, List<Bool>>" = .result (some "Light") (some "List<Bool>") ∧
      lights.form [] "List<Bool>" = .list (some "Bool") ∧ lights.form [] "Bool" = .bool ∧
      lights.form [] "Reply" =
        .sum ⟨"Reply", [], [⟨"Ok", []⟩, ⟨"Err", []⟩, ⟨"Pending", []⟩]⟩ := by
  obtain ⟨hresult, -, hlist, hbool, hreply⟩ := lights_root
  obtain ⟨hargs, helement⟩ := lights_args
  have hsum : lights.sums.find? (·.name = "Reply") = none := by decide
  have hproduct : lights.productType "Reply" = none := by decide
  have hinterface : lights.interfaceSum "Reply" =
      some ⟨"Reply", [], [⟨"Ok", []⟩, ⟨"Err", []⟩, ⟨"Pending", []⟩]⟩ := by decide +kernel
  exact ⟨by simp [form, hresult, hargs], by simp [form, hlist, helement], by simp [form, hbool],
    by simp [form, hreply, hsum, hproduct, hinterface]⟩

theorem lightPatterns_fit :
    ∀ pattern ∈ lightPatterns, lights.Fits "Result<Light, List<Bool>>" pattern := by
  obtain ⟨hresult, hlight, hlist, -⟩ := lights_root
  have hok : ∀ name bindings, (name, bindings.length) ∈ [("On", 1), ("Off", 0)] →
      lights.Fits "Result<Light, List<Bool>>" (.variant "Ok" [.variant name bindings]) := by
    intro name bindings hmem
    refine @Analyzer.Fits.payload lights _ _ 0 _ (by simp [hresult, payloadConstructors])
      fun inner hinner => ?_
    obtain rfl : "Light" = inner := by simpa [lights_args] using hinner
    simp only [mem_cons, Prod.mk.injEq, not_mem_nil, or_false] at hmem
    rcases hmem with ⟨rfl, hlength⟩ | ⟨rfl, hlength⟩
    · exact @Analyzer.Fits.positional lights _ _ _ [⟨"bright", "Bool"⟩] (by rw [hlight]; decide)
        (by simp [hlength])
    · exact @Analyzer.Fits.positional lights _ _ _ [] (by rw [hlight]; decide) (by simp [hlength])
  have herr : ∀ leading rest trailing, lights.Fits "Result<Light, List<Bool>>"
      (.variant "Err" [.list leading rest trailing]) := by
    intro leading rest trailing
    refine @Analyzer.Fits.payload lights _ _ 1 _ (by simp [hresult, payloadConstructors])
      fun inner hinner => ?_
    obtain rfl : "List<Bool>" = inner := by simpa [lights_args] using hinner
    exact .list hlist
  simp [lightPatterns, hok, herr]

/-- The literal element of `[true, ..]` stands beside `[_, ..]`. -/
theorem lightPatterns_nothingMissed : ∀ reached reachedType,
    lights.Reaches lightPatterns "Result<Light, List<Bool>>" reached reachedType →
      lights.NothingMissed reached reachedType := by
  obtain ⟨hresult, hlight, hlist, -⟩ := lights_root
  have hother : ∀ patterns typeName, lights.root typeName ≠ "List" → lights.root typeName ≠ "Reply" →
      lights.NothingMissed patterns typeName := fun _ _ hlist hreply =>
    ⟨fun h => absurd h hlist, by simp [lights_interfaceSum _ hreply]⟩
  intro reached reachedType h
  cases h with
  | here => exact hother _ _ (by simp [hresult]) (by simp [hresult])
  | payload _ hroot _ harg h =>
    simp only [hresult, payloadConstructors, mem_cons, Prod.mk.injEq, not_mem_nil, or_false,
      true_and, String.reduceEq, false_and, false_or] at hroot
    rcases hroot with ⟨rfl, rfl⟩ | ⟨rfl, rfl⟩
    · obtain rfl : "Light" = _ := by simpa [lights_args] using harg
      cases h with
      | here => exact hother _ _ (by simp [hlight]) (by simp [hlight])
      | payload _ hroot => simp [hlight, payloadConstructors] at hroot
    · obtain rfl : "List<Bool>" = _ := by simpa [lights_args] using harg
      cases h with
      | here =>
        refine ⟨fun _ length _ => ?_, by simp [lights_interfaceSum, hlist]⟩
        cases length with
        | zero => exact ⟨.list [] none [], by simp [lightPatterns, payloadPatterns], rfl, rfl⟩
        | succ length =>
          exact ⟨.list [.wildcard] (some none) [], by simp [lightPatterns, payloadPatterns],
            by simp [takesLength], rfl⟩
      | payload _ hroot => simp [hlist, payloadConstructors] at hroot

/-- `[]` and `[true, ..]`. -/
def firstTrue : List MatchPattern :=
  [.list [] none [], .list [.literal (.bool true)] (some none) []]

end RSScript.Semantics
