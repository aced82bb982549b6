import RSScript.Semantics.PatternValues

/-!
# Witnesses stand for values

A witness represents a value if every pattern that matches the witness matches the
value. The witnesses enumerated for a type represent all its values
(`enumerates`), whatever the depth of the enumeration was.
-/

namespace RSScript.Semantics

open RSScript.Syntax Analyzer List Bool Option

attribute [local simp] patternMatchesWitness Analyzer.Inhabits

section Representation

variable {analyzer : Analyzer}

/-- Every admissible pattern that matches the witness matches the value. -/
def Analyzer.Represents (analyzer : Analyzer) (witness : PatternWitness) (value : Value) : Prop :=
  ∀ pattern, analyzer.positionalOnSums pattern = true →
    patternMatchesWitness pattern witness = true → matchesValue pattern value = true

theorem represents_any : analyzer.Represents .any value := by
  intro pattern _ hmatch
  apply matchesValue_of_isBinder
  cases pattern with
  | literal literal => cases literal <;> simp at hmatch
  | _ => simp_all [MatchPattern.isBinder]

theorem represents_bool (value : Bool) :
    analyzer.Represents (.bool value) (.scalar (.bool value)) := by
  intro pattern _ hmatch
  cases pattern with
  | literal literal => cases literal <;> simp_all [matchesValue]
  | _ => simp_all [matchesValue]

/-- A witness field and a value field of the same name. -/
def Analyzer.FieldRepresents (analyzer : Analyzer) (witness : String × PatternWitness)
    (value : String × Value) : Prop :=
  witness.1 = value.1 ∧ analyzer.Represents witness.2 value.2

theorem bindings_match (hfields : List.Forall₂ analyzer.FieldRepresents witnesses values)
    (hnames : analyzer.positionalOnSumsAll bindings = true)
    (hmatch : bindingsMatchWitness bindings witnesses = true) :
    bindingsMatchValue bindings values = true := by
  induction bindings generalizing witnesses values with
  | nil => rfl
  | cons sub subs ih =>
    rw [positionalOnSumsAll, and_eq_true] at hnames
    cases hfields with
    | nil =>
      simp only [bindingsMatchWitness, bindingsMatchValue, and_eq_true] at hmatch ⊢
      exact ⟨hmatch.1, ih .nil hnames.2 hmatch.2⟩
    | cons hfield hfields =>
      simp only [bindingsMatchWitness, bindingsMatchValue, and_eq_true, or_eq_true]
        at hmatch ⊢
      exact ⟨hmatch.1.imp_right (hfield.2 sub hnames.1), ih hfields hnames.2 hmatch.2⟩

/-- Named fields: what a witness says of a field, the value has in the field of
that name. -/
theorem fields_match
    (hfields : ∀ name witness, witnesses.lookup name = some witness →
      ∃ value, values.lookup name = some value ∧ analyzer.Represents witness value)
    (hnames : analyzer.positionalOnSumsFields patterns = true)
    (hmatch : fieldsMatchWitness patterns witnesses = true) :
    fieldsMatchValue patterns values = true := by
  induction patterns with
  | nil => rfl
  | cons field patterns ih =>
    obtain ⟨name, binding, pattern, effect, ignored⟩ := field
    cases pattern with
    | none => exact ih hnames hmatch
    | some pattern =>
      simp only [fieldsMatchWitness, positionalOnSumsFields, fieldsMatchValue,
        and_eq_true, or_eq_true] at hmatch hnames ⊢
      refine ⟨hmatch.1.imp_right fun hfield => ?_, ih hnames.2 hmatch.2⟩
      cases hlookup : witnesses.lookup name with
      | none => simp [hlookup] at hfield
      | some witness =>
        rw [hlookup] at hfield
        obtain ⟨value, hvalue, hrepresents⟩ := hfields name witness hlookup
        rw [hvalue]
        exact hrepresents pattern hnames.1 hfield

theorem lookup_of_forall₂ (hfields : List.Forall₂ analyzer.FieldRepresents witnesses values)
    (name : String) (witness : PatternWitness) (hlookup : witnesses.lookup name = some witness) :
    ∃ value, values.lookup name = some value ∧ analyzer.Represents witness value := by
  induction hfields with
  | nil => simp at hlookup
  | @cons first value rest values hfield _ ih =>
    obtain ⟨key, first⟩ := first
    obtain ⟨key', value⟩ := value
    obtain ⟨rfl, hrepresents⟩ : key = key' ∧ analyzer.Represents first value := hfield
    rw [lookup_cons] at hlookup ⊢
    split at hlookup
    · obtain rfl := some.inj hlookup
      exact ⟨value, rfl, hrepresents⟩
    · exact ih hlookup

/-- A witness of a constructor represents a value if its fields are matched where those of the
witness are; positional patterns need this only where they may name the constructor. -/
theorem represents_constructor
    (hbindings : ∀ bindings, analyzer.productType name = none →
      analyzer.positionalOnSumsAll bindings = true →
      bindingsMatchWitness bindings witnesses = true → bindingsMatchValue bindings values = true)
    (hfields : ∀ field witness, witnesses.lookup field = some witness →
      ∃ value, values.lookup field = some value ∧ analyzer.Represents witness value) :
    analyzer.Represents (.constructor name witnesses) (.constructor name values) := by
  intro pattern hnames hmatch
  cases pattern with
  | literal literal => cases literal <;> simp at hmatch
  | list leading rest trailing => simp at hmatch
  | binding | wildcard => rfl
  | variant found bindings =>
    simp only [patternMatchesWitness, matchesValue, positionalOnSums, and_eq_true,
      beq_iff_eq, isNone_iff_eq_none] at hmatch hnames ⊢
    obtain ⟨rfl, hmatch⟩ := hmatch
    exact ⟨rfl, hbindings bindings hnames.1 hnames.2 hmatch⟩
  | struct found patterns hasRest =>
    simp only [patternMatchesWitness, matchesValue, positionalOnSums, and_eq_true]
      at hmatch hnames ⊢
    exact ⟨hmatch.1, fields_match hfields hnames hmatch.2⟩

/-- Fields that agree in order and name: the values of a sum. -/
theorem represents_variant (hfields : List.Forall₂ analyzer.FieldRepresents witnesses values) :
    analyzer.Represents (.constructor name witnesses) (.constructor name values) :=
  represents_constructor (fun _ _ => bindings_match hfields) (lookup_of_forall₂ hfields)

end Representation

section Witnesses

variable {analyzer : Analyzer}

variable {root : String}

theorem productType_eq_some (h : analyzer.productType root = some info) :
    info ∈ analyzer.types ∧ info.name = root := by
  obtain ⟨hfind, -⟩ := filter_eq_some_iff.mp h
  exact ⟨mem_of_find?_eq_some hfind, by simpa using find?_some hfind⟩

theorem sumVariantsForType_eq (hwf : analyzer.WellFormed)
    (h : analyzer.sums.find? (·.name = root) = some decl) :
    analyzer.sumVariantsForType root = some decl.variants := by
  rw [sumVariantsForType, h, map_some]
  rw [map_congr_left (g := id), List.map_id]
  intro variant hvariant
  simp [hwf.variants decl (mem_of_find?_eq_some h) variant hvariant]

theorem shape_list (hwf : analyzer.WellFormed) : analyzer.shape "List" = .other := by
  obtain ⟨hsums, hproduct, -⟩ := hwf.builtins "List" (by simp)
  simp [shape, sumVariantsForType, hsums, hproduct]

/-- What the shape the check finds for a type name says of its values. -/
inductive Analyzer.Reads (analyzer : Analyzer) (bound : List String) (typeName : String) :
    Shape → Prop where
  | bool (hform : analyzer.form bound typeName = .bool) : Reads analyzer bound typeName .bool
  | option (hform : analyzer.form bound typeName =
        .option (analyzer.args typeName)[0]?)
      (hroot : analyzer.root typeName = "Option") :
      Reads analyzer bound typeName .option
  | result (hform : analyzer.form bound typeName =
        .result (analyzer.args typeName)[0]?
          (analyzer.args typeName)[1]?)
      (hroot : analyzer.root typeName = "Result") :
      Reads analyzer bound typeName .result
  | sum {decl} (hform : analyzer.form bound typeName = .sum decl)
      (hfind : analyzer.sums.find? (·.name = analyzer.root typeName) = some decl) :
      Reads analyzer bound typeName (.sum decl.variants)
  | product {info} (hform : analyzer.form bound typeName = .product info)
      (hfind : analyzer.sums.find? (·.name = analyzer.root typeName) = none)
      (hproduct : analyzer.productType (analyzer.root typeName) = some info) :
      Reads analyzer bound typeName (.product info)
  | interface {decl} (hform : analyzer.form bound typeName = .sum decl)
      (hinterface : analyzer.interfaceSum (analyzer.root typeName) = some decl) :
      Reads analyzer bound typeName .other
  | other (hform : analyzer.form bound typeName = .anything)
      (hfind : analyzer.sums.find? (·.name = analyzer.root typeName) = none)
      (hproduct : analyzer.productType (analyzer.root typeName) = none)
      (hinterface : analyzer.interfaceSum (analyzer.root typeName) = none) :
      Reads analyzer bound typeName .other

/-- The check and the values read a type name in the same way. -/
theorem reads (hwf : analyzer.WellFormed) (hbound : ∀ param ∈ bound, analyzer.Unused param)
    (typeName : String) (hlist : analyzer.root typeName ≠ "List") :
    analyzer.Reads bound typeName (analyzer.shape (analyzer.root typeName)) := by
  -- A name that is read as a shape is no type parameter.
  have hread (shape : Shape) (hshape : analyzer.shape (analyzer.root typeName) = shape)
      (hother : shape ≠ .other)
      (h : analyzer.root typeName ∉ bound → analyzer.Reads bound typeName shape) :
      analyzer.Reads bound typeName (analyzer.shape (analyzer.root typeName)) := by
    subst hshape
    exact h fun hmem => hother (hbound _ hmem).2.1
  by_cases hbool : analyzer.root typeName = "Bool"
  · refine hread .bool (by simp [shape, hbool]) nofun fun hnot => .bool ?_
    simp [form, hbool, hbool ▸ hnot]
  by_cases hoption : analyzer.root typeName = "Option"
  · refine hread .option (by simp [shape, hoption]) nofun fun hnot => .option ?_ hoption
    simp [form, hoption, hoption ▸ hnot]
  by_cases hresult : analyzer.root typeName = "Result"
  · refine hread .result (by simp [shape, hresult]) nofun fun hnot => .result ?_ hresult
    simp [form, hresult, hresult ▸ hnot]
  cases hsum : analyzer.sums.find? (·.name = analyzer.root typeName) with
  | some decl =>
    have hshape : analyzer.shape (analyzer.root typeName) = .sum decl.variants := by
      simp [shape, hbool, hoption, hresult, sumVariantsForType_eq hwf hsum]
    refine hread _ hshape nofun fun hnot => .sum ?_ hsum
    simp [form, hnot, hlist, hbool, hoption, hresult, hsum]
  | none =>
    have hvariants : analyzer.sumVariantsForType (analyzer.root typeName) = none := by
      simp [sumVariantsForType, hsum]
    cases hproduct : analyzer.productType (analyzer.root typeName) with
    | some info =>
      have hshape : analyzer.shape (analyzer.root typeName) = .product info := by
        simp [shape, hbool, hoption, hresult, hvariants, hproduct]
      refine hread _ hshape nofun fun hnot => .product ?_ hsum hproduct
      simp [form, hnot, hlist, hbool, hoption, hresult, hsum, hproduct]
    | none =>
      have hshape : analyzer.shape (analyzer.root typeName) = .other := by
        simp [shape, hbool, hoption, hresult, hvariants, hproduct]
      rw [hshape]
      cases hinterface : analyzer.interfaceSum (analyzer.root typeName) with
      | some decl =>
        have hnot : analyzer.root typeName ∉ bound := fun hmem => by
          simp [(hbound _ hmem).2.2.1] at hinterface
        exact .interface
          (by simp [form, hnot, hlist, hbool, hoption, hresult, hsum, hproduct, hinterface]) hinterface
      | none =>
        exact .other (by simp [form, hlist, hbool, hoption, hresult, hsum, hproduct, hinterface])
          hsum hproduct hinterface

/-- Some witness of each enumerated type represents each of its values. -/
def Analyzer.Enumerates (analyzer : Analyzer)
    (witnesses : String → Option (Option (List PatternWitness))) : Prop :=
  ∀ typeName domain, witnesses typeName = some (some domain) →
    ∀ bound, (∀ param ∈ bound, analyzer.Unused param) →
      ∀ value, analyzer.Inhabits bound typeName value →
        ∃ witness ∈ domain, analyzer.Represents witness value

variable {witnesses : String → Option (Option (List PatternWitness))} {bound : List String}

section Enumerated

variable (h : analyzer.Enumerates witnesses) (hbound : ∀ param ∈ bound, analyzer.Unused param)

include h hbound

theorem exists_mem_getD (hdomain : witnesses typeName = some domain)
    (hvalue : analyzer.Inhabits bound typeName value) :
    ∃ witness ∈ domain.getD [.any], analyzer.Represents witness value := by
  cases domain with
  | none => exact ⟨.any, mem_singleton.mpr rfl, represents_any⟩
  | some domain => exact h typeName domain hdomain bound hbound value hvalue

/-- The witnesses of a payload, as fields of the constructor that carries it. -/
theorem exists_payload (hdomain : payloadWitnesses witnesses arg = some domain)
    (hfields : analyzer.InhabitsPayload bound arg fields) (name : String) :
    ∃ witness ∈ domain, analyzer.Represents (.constructor name [("value", witness)])
      (.constructor name fields) := by
  match fields, hfields with
  | [(key, value)], ⟨hkey, hvalue⟩ =>
    have hexists : ∃ witness ∈ domain, analyzer.Represents witness value := by
      cases arg with
      | none =>
        obtain rfl := some.inj hdomain
        exact ⟨.any, mem_singleton.mpr rfl, represents_any⟩
      | some inner =>
        obtain ⟨found, hfound, rfl⟩ := map_eq_some_iff.mp hdomain
        exact exists_mem_getD h hbound hfound hvalue
    obtain ⟨witness, hmem, hrepresents⟩ := hexists
    exact ⟨witness, hmem, represents_variant (.cons ⟨hkey.symm, hrepresents⟩ .nil)⟩

theorem exists_row_from (hrows : extendRows witnesses fields rows = some (some result))
    (hrow : row ∈ rows) (hvalues : analyzer.InhabitsFields bound fields values) :
    ∃ more, row ++ more ∈ result ∧ List.Forall₂ analyzer.FieldRepresents more values := by
  induction fields generalizing rows row values with
  | nil =>
    match values, hvalues with
    | [], _ =>
      obtain rfl : rows = result := by simpa [extendRows] using hrows
      exact ⟨[], by simpa using hrow, .nil⟩
  | cons field fields ih =>
    match values, hvalues with
    | (name, value) :: values, ⟨hname, hvalue, hvalues⟩ =>
      obtain ⟨domain, hdomain, hextend⟩ := bind_eq_some_iff.mp hrows
      dsimp only at hextend
      split at hextend
      · simp at hextend
      · obtain ⟨witness, hmem, hrepresents⟩ := exists_mem_getD h hbound hdomain hvalue
        have hnext : row ++ [(field.name, witness)] ∈ rows.flatMap fun row =>
            (domain.getD [.any]).map fun witness => row ++ [(field.name, witness)] :=
          mem_flatMap.mpr ⟨row, hrow, mem_map.mpr ⟨witness, hmem, rfl⟩⟩
        obtain ⟨more, hresult, hmore⟩ := ih hextend hnext hvalues
        refine ⟨(field.name, witness) :: more, ?_, .cons ⟨hname.symm, hrepresents⟩ hmore⟩
        simpa using hresult

/-- The product of the fields' witnesses has a row for the fields of each value. -/
theorem exists_row (hrows : fieldWitnessProductWith witnesses fields = some (some rows))
    (hvalues : analyzer.InhabitsFields bound fields values) :
    ∃ row ∈ rows, List.Forall₂ analyzer.FieldRepresents row values := by
  obtain ⟨row, hmem, hrow⟩ := exists_row_from h hbound hrows (mem_singleton.mpr rfl) hvalues
  exact ⟨row, by simpa using hmem, hrow⟩

end Enumerated

theorem exists_lookup (hnodup : (fields.map FieldInfo.name).Nodup)
    (hvalues : analyzer.InhabitsFields bound fields values) (hfield : field ∈ fields) :
    ∃ value, values.lookup field.name = some value ∧ analyzer.Inhabits bound field.ty value := by
  induction fields generalizing values with
  | nil => simp at hfield
  | cons first fields ih =>
    match values, hvalues with
    | (name, value) :: values, ⟨hname, hvalue, hvalues⟩ =>
      rw [map_cons, nodup_cons] at hnodup
      rw [lookup_cons]
      rcases mem_cons.mp hfield with rfl | hrest
      · exact ⟨value, by simp [hname], hvalue⟩
      · have hother : field.name ≠ first.name := fun heq =>
          hnodup.1 (heq ▸ mem_map.mpr ⟨field, hrest, rfl⟩)
        rw [hname, beq_false_of_ne hother]
        exact ih hnodup.2 hvalues hrest

/-- The fields of a value, in the order in which the table enumerates them. -/
theorem exists_enumerated (hnodup : (declared.map FieldInfo.name).Nodup)
    (hvalues : analyzer.InhabitsFields bound declared values) (hsubset : fields ⊆ declared) :
    ∃ enumerated, analyzer.InhabitsFields bound fields enumerated ∧
      ∀ name value, enumerated.lookup name = some value → values.lookup name = some value := by
  induction fields with
  | nil => exact ⟨[], trivial, by simp⟩
  | cons field fields ih =>
    obtain ⟨hfield, hsubset⟩ := cons_subset.mp hsubset
    obtain ⟨enumerated, henumerated, hlookup⟩ := ih hsubset
    obtain ⟨value, hfound, hvalue⟩ := exists_lookup hnodup hvalues hfield
    refine ⟨(field.name, value) :: enumerated, ⟨rfl, hvalue, henumerated⟩, ?_⟩
    intro name found hname
    rw [lookup_cons] at hname
    split at hname
    · rename_i heq
      obtain rfl := some.inj hname
      rw [eq_of_beq heq]
      exact hfound
    · exact hlookup name found hname

theorem exists_product_row (hwf : analyzer.WellFormed) (h : analyzer.Enumerates witnesses)
    (hinfo : info ∈ analyzer.types)
    (hrows : fieldWitnessProductWith witnesses info.fields = some (some rows))
    (hvalues : analyzer.InhabitsFields info.typeParams info.fieldsOrdered values) :
    ∃ row ∈ rows, ∀ name witness, row.lookup name = some witness →
      ∃ value, values.lookup name = some value ∧ analyzer.Represents witness value := by
  obtain ⟨enumerated, henumerated, hlookup⟩ :=
    exists_enumerated (hwf.fields info hinfo) hvalues info.fields_subset
  obtain ⟨row, hrow, hfields⟩ := exists_row h (hwf.typeParams info hinfo) hrows henumerated
  refine ⟨row, hrow, fun name witness hwitness => ?_⟩
  obtain ⟨value, hvalue, hrepresents⟩ := lookup_of_forall₂ hfields name witness hwitness
  exact ⟨value, hlookup name value hvalue, hrepresents⟩

theorem exists_variant_witness (h : analyzer.Enumerates witnesses)
    (hbound : ∀ param ∈ bound, analyzer.Unused param)
    (hdomain : variantWitnesses witnesses variants = some (some domain))
    (hvariant : variant ∈ variants)
    (hvalues : analyzer.InhabitsFields bound variant.fields values) :
    ∃ witness ∈ domain, analyzer.Represents witness (.constructor variant.name values) := by
  induction variants generalizing domain with
  | nil => simp at hvariant
  | cons first variants ih =>
    obtain ⟨product, hproduct, hdomain⟩ := bind_eq_some_iff.mp hdomain
    cases product with
    | none => simp at hdomain
    | some rows =>
      obtain ⟨rest, hrest, hdomain⟩ := bind_eq_some_iff.mp hdomain
      obtain ⟨others, rfl, rfl⟩ := map_eq_some_iff.mp (some.inj hdomain)
      rcases mem_cons.mp hvariant with rfl | hvariant
      · obtain ⟨row, hrow, hfields⟩ := exists_row h hbound hproduct hvalues
        exact ⟨.constructor variant.name row,
          mem_append_left _ (mem_map.mpr ⟨row, hrow, rfl⟩), represents_variant hfields⟩
      · obtain ⟨witness, hmem, hrepresents⟩ := ih hrest hvariant
        exact ⟨witness, mem_append_right _ hmem, hrepresents⟩

/-- The witnesses of a type stand for all its values, at any depth. -/
theorem enumerates (hwf : analyzer.WellFormed) :
    analyzer.Enumerates (analyzer.finiteTypeWitnesses depth) := by
  induction depth with
  | zero => intro typeName domain h; simp [finiteTypeWitnesses] at h
  | succ depth ih =>
    intro typeName domain h bound hbound value hvalue
    have hlist : analyzer.root typeName ≠ "List" := by
      intro hroot
      simp [finiteTypeWitnesses, witnessesWith, hroot, shape_list hwf] at h
    have hreads := reads hwf hbound typeName hlist
    rw [finiteTypeWitnesses, witnessesWith] at h
    generalize analyzer.shape (analyzer.root typeName) = shape at h hreads
    cases hreads with
    | bool hform =>
      obtain rfl := some.inj (some.inj h)
      cases value with
      | scalar literal =>
        obtain ⟨found, rfl⟩ : ∃ found, literal = .bool found := by simpa [hform] using hvalue
        exact ⟨.bool found, by cases found <;> simp, represents_bool found⟩
      | _ => simp [hform] at hvalue
    | option hform =>
      obtain ⟨payload, hpayload, h⟩ := bind_eq_some_iff.mp h
      obtain rfl := some.inj (some.inj h)
      cases value with
      | constructor name fields =>
        rw [Inhabits, hform] at hvalue
        rcases hvalue with ⟨rfl, rfl⟩ | ⟨rfl, hfields⟩
        · exact ⟨_, mem_cons_self, represents_variant .nil⟩
        · obtain ⟨witness, hmem, hrepresents⟩ := exists_payload ih hbound hpayload hfields "Some"
          exact ⟨_, mem_cons_of_mem _ (mem_map.mpr ⟨witness, hmem, rfl⟩), hrepresents⟩
      | _ => simp [hform] at hvalue
    | result hform =>
      obtain ⟨ok, hok, h⟩ := bind_eq_some_iff.mp h
      obtain ⟨err, herr, h⟩ := bind_eq_some_iff.mp h
      obtain rfl := some.inj (some.inj h)
      cases value with
      | constructor name fields =>
        rw [Inhabits, hform] at hvalue
        rcases hvalue with ⟨rfl, hfields⟩ | ⟨rfl, hfields⟩
        · obtain ⟨witness, hmem, hrepresents⟩ := exists_payload ih hbound hok hfields "Ok"
          exact ⟨_, mem_append_left _ (mem_map.mpr ⟨witness, hmem, rfl⟩), hrepresents⟩
        · obtain ⟨witness, hmem, hrepresents⟩ := exists_payload ih hbound herr hfields "Err"
          exact ⟨_, mem_append_right _ (mem_map.mpr ⟨witness, hmem, rfl⟩), hrepresents⟩
      | _ => simp [hform] at hvalue
    | @sum decl hform hfind =>
      cases value with
      | constructor name fields =>
        rw [Inhabits, hform] at hvalue
        obtain ⟨variant, hvariant, rfl, hfields⟩ := hvalue
        exact exists_variant_witness ih (hwf.sumParams decl (mem_of_find?_eq_some hfind)) h
          hvariant hfields
      | _ => simp [hform] at hvalue
    | @product info hform _ hproduct =>
      obtain ⟨hinfo, hname⟩ := productType_eq_some hproduct
      obtain ⟨rows, hrows, h⟩ := bind_eq_some_iff.mp h
      obtain ⟨rows, rfl, rfl⟩ := map_eq_some_iff.mp (some.inj h)
      cases value with
      | constructor name fields =>
        rw [Inhabits, hform] at hvalue
        obtain ⟨rfl, hfields⟩ := hvalue
        obtain ⟨row, hrow, hlookup⟩ := exists_product_row hwf ih hinfo hrows hfields
        rw [← hname] at hproduct
        exact ⟨_, mem_map.mpr ⟨row, hrow, by rw [hname]⟩,
          represents_constructor (fun _ hnone => by simp [hnone] at hproduct) hlookup⟩
      | _ => simp [hform] at hvalue
    | interface | other => simp at h

end Witnesses

end RSScript.Semantics
