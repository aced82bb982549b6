import Mathlib.Data.List.Sort
import Mathlib.Data.List.Nodup
import Mathlib.Data.List.Perm.Basic
import Mathlib.Data.Set.List

/-!
# Binding the arguments of a call

`CallBinding::bind` gives every written argument a parameter: the one it names, the one
its shorthand names, or the one at its position. Parameters that are left are bound to
their defaults. The binding has two orders, that of the parameters (`byParameter`) and
that of evaluation (`evaluationOrder`). A binding without issues is a bijection between
the two, and lowering never refuses its arguments (`bind_bijective`).
-/

namespace RSScript.Semantics

open List hiding count

inductive BoundArgumentSource where
  | receiver
  | explicit (sourceIndex : Nat)
  | default
  deriving DecidableEq, Repr

/-- What a parameter is bound to. -/
structure BoundArgument where
  parameterIndex : Nat
  evaluationIndex : Nat
  source : BoundArgumentSource
  deriving DecidableEq, Repr

/-- What is wrong with the arguments of a call. -/
inductive CallBindingIssue where
  | unknownNamedArgument (sourceIndex : Nat)
  | duplicateParameter (sourceIndex parameterIndex : Nat)
  | positionalArgumentOutOfRange (sourceIndex : Nat)
  | missingParameter (parameterIndex : Nat)
  deriving DecidableEq, Repr

/-- The written argument that an issue names. -/
def CallBindingIssue.sourceIndex? : CallBindingIssue → Option Nat
  | .unknownNamedArgument index | .duplicateParameter index _
  | .positionalArgumentOutOfRange index => some index
  | .missingParameter _ => none

/-- The arguments of a call in both orders, and what is wrong with them. -/
structure CallBinding where
  byParameter : List (Option BoundArgument)
  evaluationOrder : List BoundArgument
  issues : List CallBindingIssue
  deriving DecidableEq, Repr

/-- One entry of the parallel slices that `bind` reads about the parameters, with the
default expression that the call is completed with. -/
structure CallParameter (α : Type) where
  name : String
  default : Option α
  allowsShorthand : Bool

/-- One entry of the parallel slices about the arguments. -/
structure CallArgument (α : Type) where
  name : Option String
  shorthandName : Option String
  value : α

variable {α : Type}

/-! ### Lowering by parameter -/

/-- What lowering reads of a checked argument. -/
structure HirCallArg (α : Type) where
  value : α
  parameterIndex : Option Nat
  evaluationIndex : Nat

section Lowering

variable {σ ε τ : Type} (refused : ε) (lower : Nat → HirCallArg α → σ → Except ε (τ × σ))
  (firstParameter : Nat)

/-- The loop of `lower_arguments_by_parameter` over the arguments in evaluation order. -/
def fillSlots : List (HirCallArg α) → List (Option τ) → σ → Except ε (List (Option τ) × σ)
  | [], slots, state => .ok (slots, state)
  | argument :: rest, slots, state =>
    match argument.parameterIndex with
    | none => .error refused
    | some parameter =>
      match if firstParameter ≤ parameter then slots[parameter - firstParameter]? else none with
      | some none =>
        match lower parameter argument state with
        | .error error => .error error
        | .ok (value, state) =>
          fillSlots rest (slots.set (parameter - firstParameter) (some value)) state
      | _ => .error refused

/-- `lower_arguments_by_parameter`. The error `refused` is `MirLoweringError::Unsupported`;
`lower` lowers one argument and threads the lowerer's state. -/
def lowerArgumentsByParameter (args : List (HirCallArg α)) (state : σ) :
    Except ε (List τ × σ) :=
  let ordered := args.insertionSort fun left right =>
    left.evaluationIndex ≤ right.evaluationIndex
  match fillSlots refused lower firstParameter ordered (args.map fun _ => none) state with
  | .error error => .error error
  | .ok (slots, state) =>
    match slots.mapM id with
    | some values => .ok (values, state)
    | none => .error refused

variable {refused lower firstParameter}
variable {args : List (HirCallArg α)} {slots : List (Option τ)}

/-- The arguments ask for the empty slots, each for another one. -/
structure Asks (firstParameter : Nat) (args : List (HirCallArg α)) (slots : List (Option τ)) :
    Prop where
  distinct : (args.map (·.parameterIndex)).Nodup
  asks : ∀ argument ∈ args, ∃ slot, argument.parameterIndex = some (firstParameter + slot)
  free_iff : ∀ slot, slots[slot]? = some none ↔
    some (firstParameter + slot) ∈ args.map (·.parameterIndex)

theorem Asks.fill (asks : Asks firstParameter (argument :: rest) slots)
    (asked : argument.parameterIndex = some (firstParameter + slot)) (value : τ) :
    Asks firstParameter rest (slots.set slot (some value)) := by
  obtain ⟨distinct, each, free_iff⟩ := asks
  rw [map_cons, nodup_cons, asked] at distinct
  refine ⟨distinct.2, fun other mem => each other (mem_cons_of_mem _ mem), fun other => ?_⟩
  rw [getElem?_set]
  split
  next same =>
    subst same
    simpa using distinct.1
  next ne => simp [free_iff, asked, Ne.symm ne]

variable (lowers : ∀ parameter argument before, ∃ lowered,
  lower parameter argument before = .ok lowered)
include lowers

theorem fillSlots_accepts (asks : Asks firstParameter args slots) :
    ∃ (values : List τ) (final : σ), values.length = slots.length ∧
      fillSlots refused lower firstParameter args slots state =
        .ok (values.map some, final) := by
  induction args generalizing slots state with
  | nil =>
    have filled : slots ∈ Set.range (map (some : τ → Option τ)) := by
      rw [Set.range_list_map]
      intro slot mem
      obtain ⟨index, at_index⟩ := mem_iff_getElem?.mp mem
      cases slot with
      | none => simpa using (asks.free_iff index).mp at_index
      | some value => exact ⟨value, rfl⟩
    obtain ⟨values, rfl⟩ := filled
    exact ⟨values, state, by simp, rfl⟩
  | cons argument rest ih =>
    obtain ⟨slot, asked⟩ := asks.asks argument (mem_cons_self ..)
    have empty : slots[slot]? = some none := (asks.free_iff slot).mpr (by simp [asked])
    obtain ⟨⟨value, next⟩, lowered⟩ := lowers (firstParameter + slot) argument state
    obtain ⟨values, final, length, run⟩ := ih (asks.fill asked value)
    exact ⟨values, final, by simpa using length, by simpa [fillSlots, asked, empty, lowered] using run⟩

/-- Arguments for consecutive parameters, in any order, are accepted. -/
theorem lowerArgumentsByParameter_accepts
    (consecutive : (args.map (·.parameterIndex)).Perm
      ((List.range count).map fun slot => some (firstParameter + slot))) :
    ∃ (values : List τ) (final : σ), values.length = count ∧
      lowerArgumentsByParameter refused lower firstParameter args state =
        .ok (values, final) := by
  have indices := ((perm_insertionSort (fun left right : HirCallArg α =>
    left.evaluationIndex ≤ right.evaluationIndex) args).map (·.parameterIndex)).trans consecutive
  have count_eq : args.length = count := by simpa using consecutive.length_eq
  have asks : Asks firstParameter (args.insertionSort fun left right =>
      left.evaluationIndex ≤ right.evaluationIndex) (args.map fun _ => (none : Option τ)) := by
    refine ⟨indices.nodup_iff.mpr (nodup_range.map fun left right same => ?_),
      fun argument mem => ?_, fun slot => ?_⟩
    · simpa using same
    · have mem := indices.mem_iff.mp (mem_map_of_mem mem)
      obtain ⟨slot, -, same⟩ := mem_map.mp mem
      exact ⟨slot, same.symm⟩
    · rw [indices.mem_iff]
      simp [getElem?_replicate, count_eq]
  obtain ⟨values, final, length, run⟩ := fillSlots_accepts lowers asks
  have collected : (values.map some).mapM id = some values := by
    simpa [mapM_map] using mapM_pure (m := Option) (f := id) (l := values)
  refine ⟨values, final, by simpa [count_eq] using length, ?_⟩
  rw [lowerArgumentsByParameter, run]
  simp only [collected]

end Lowering

namespace CallBinding

def put (binding : CallBinding) (argument : BoundArgument) : CallBinding :=
  { binding with
    byParameter := binding.byParameter.set argument.parameterIndex (some argument)
    evaluationOrder := binding.evaluationOrder ++ [argument] }

def report (binding : CallBinding) (issue : CallBindingIssue) : CallBinding :=
  { binding with issues := binding.issues ++ [issue] }

section Bind

variable (parameters : List (CallParameter α)) (receiverOffset : Nat)

/-- The name an argument is bound by: its own, or its shorthand name where some
parameter of that name allows shorthand. -/
def effectiveName (argument : CallArgument α) : Option String :=
  argument.name <|> argument.shorthandName.bind fun candidate =>
    (parameters.find? fun parameter =>
      parameter.allowsShorthand && parameter.name == candidate).map (·.name)

/-- The parameter that an argument asks for; a position may lie past the parameters. -/
def requestedParameter (sourceIndex : Nat) (argument : CallArgument α) : Option Nat :=
  match effectiveName parameters argument with
  | some name => parameters.findIdx? (·.name == name)
  | none => some (sourceIndex + receiverOffset)

def bindArgument (sourceIndex : Nat) (argument : CallArgument α) (binding : CallBinding) :
    CallBinding :=
  match requestedParameter parameters receiverOffset sourceIndex argument with
  | none => binding.report (.unknownNamedArgument sourceIndex)
  | some parameterIndex =>
    -- The table has one slot per parameter.
    match binding.byParameter[parameterIndex]? with
    | none => binding.report (.positionalArgumentOutOfRange sourceIndex)
    | some (some _) => binding.report (.duplicateParameter sourceIndex parameterIndex)
    | some none =>
      binding.put ⟨parameterIndex, sourceIndex + receiverOffset, .explicit sourceIndex⟩

def bindArguments : Nat → List (CallArgument α) → CallBinding → CallBinding
  | _, [], binding => binding
  | sourceIndex, argument :: rest, binding =>
    bindArguments (sourceIndex + 1) rest
      (bindArgument parameters receiverOffset sourceIndex argument binding)

/-- The second loop's body, at one parameter. The second component of the state is
`next_evaluation`. -/
def bindDefault (parameterIndex : Nat) (parameter : CallParameter α)
    (state : CallBinding × Nat) : CallBinding × Nat :=
  match state.1.byParameter[parameterIndex]? with
  | some (some _) => state
  | _ =>
    match parameter.default with
    | some _ => (state.1.put ⟨parameterIndex, state.2, .default⟩, state.2 + 1)
    | none => (state.1.report (.missingParameter parameterIndex), state.2)

def bindDefaults : Nat → List (CallParameter α) → CallBinding × Nat → CallBinding × Nat
  | _, [], state => state
  | parameterIndex, parameter :: rest, state =>
    bindDefaults (parameterIndex + 1) rest (bindDefault parameterIndex parameter state)

/-- The table before the first argument: parameter zero is the receiver's, if there is
one. -/
def withReceiver : CallBinding :=
  let empty : CallBinding := ⟨List.replicate parameters.length none, [], []⟩
  if receiverOffset = 1 ∧ parameters ≠ [] then empty.put ⟨0, 0, .receiver⟩ else empty

/-- `bind` up to its last step, the sorting of the order. -/
def bindInOrder (arguments : List (CallArgument α)) : CallBinding :=
  let written := bindArguments parameters receiverOffset 0 arguments
    (withReceiver parameters receiverOffset)
  (bindDefaults receiverOffset (parameters.drop receiverOffset)
    (written, arguments.length + receiverOffset)).1

/-- `CallBinding::bind` -/
def bind (arguments : List (CallArgument α)) : CallBinding :=
  let complete := bindInOrder parameters receiverOffset arguments
  { complete with
    evaluationOrder := complete.evaluationOrder.insertionSort
      fun left right => left.evaluationIndex ≤ right.evaluationIndex }

end Bind

def explicit (binding : CallBinding) (sourceIndex : Nat) : Option BoundArgument :=
  binding.evaluationOrder.find? fun argument => argument.source = .explicit sourceIndex

def defaults (binding : CallBinding) : List BoundArgument :=
  binding.evaluationOrder.filter fun argument => argument.source = .default

def isComplete (binding : CallBinding) : Bool :=
  binding.issues.isEmpty && binding.byParameter.all Option.isSome

/-- The arguments of the checked call: those written, at the parameters they are bound to,
followed by the defaults. -/
def hirCallArgs (parameters : List (CallParameter α)) (arguments : List (CallArgument α))
    (binding : CallBinding) : List (HirCallArg α) :=
  (arguments.zipIdx.map fun (argument, index) =>
    match binding.explicit index with
    | some bound => ⟨argument.value, some bound.parameterIndex, bound.evaluationIndex⟩
    | none => ⟨argument.value, none, index⟩) ++
  binding.defaults.filterMap fun bound =>
    (parameters[bound.parameterIndex]?.bind (·.default)).map fun value =>
      ⟨value, some bound.parameterIndex, bound.evaluationIndex⟩

/-! ### What the loops keep -/

section Invariant

variable (parameters : List (CallParameter α)) (arguments : List (CallArgument α))
  (receiverOffset : Nat)

/-- An argument stands where its source puts it. -/
def Justified (bound : BoundArgument) : Prop :=
  match bound.source with
  | .receiver =>
    receiverOffset = 1 ∧ bound.parameterIndex = 0 ∧ bound.evaluationIndex = 0
  | .explicit index => bound.evaluationIndex = index + receiverOffset ∧
    ∃ argument, arguments[index]? = some argument ∧
      requestedParameter parameters receiverOffset index argument = some bound.parameterIndex
  | .default => arguments.length + receiverOffset ≤ bound.evaluationIndex ∧
    ∃ parameter value, parameters[bound.parameterIndex]? = some parameter ∧
      parameter.default = some value

/-- The table and the order hold the same arguments; all are evaluated before `next`. -/
structure Sound (next : Nat) (binding : CallBinding) : Prop where
  width : binding.byParameter.length = parameters.length
  slot_iff : ∀ {index bound}, binding.byParameter[index]? = some (some bound) ↔
    bound ∈ binding.evaluationOrder ∧ bound.parameterIndex = index
  ascending : (binding.evaluationOrder.map (·.evaluationIndex)).Pairwise (· < ·)
  below : ∀ bound ∈ binding.evaluationOrder, bound.evaluationIndex < next
  justified : ∀ bound ∈ binding.evaluationOrder,
    Justified parameters arguments receiverOffset bound
  declared : (binding.defaults.map (·.parameterIndex)).Pairwise (· < ·)

/-- `count` arguments and the parameters before `index` are processed. -/
structure Progress (count index next : Nat) (binding : CallBinding) : Prop where
  sound : Sound parameters arguments receiverOffset next binding
  receiver : receiverOffset = 1 → ⟨0, 0, .receiver⟩ ∈ binding.evaluationOrder
  named : ∀ sourceIndex < count,
    (∃ bound ∈ binding.evaluationOrder, bound.source = .explicit sourceIndex) ∨
      ∃ issue ∈ binding.issues, issue.sourceIndex? = some sourceIndex
  missing : ∀ parameterIndex < index, binding.byParameter[parameterIndex]? = some none →
    .missingParameter parameterIndex ∈ binding.issues
  earlier : ∀ bound ∈ binding.defaults, bound.parameterIndex < index
  covered : ∀ position, arguments.length + receiverOffset ≤ position → position < next →
    ∃ bound ∈ binding.evaluationOrder, bound.evaluationIndex = position

end Invariant

variable {parameters : List (CallParameter α)} {arguments : List (CallArgument α)}
  {receiverOffset index next : Nat} {binding : CallBinding}

attribute [local simp] CallBinding.put CallBinding.bindDefault defaults put

theorem Sound.put (sound : Sound parameters arguments receiverOffset next binding)
    (argument : BoundArgument)
    (free : binding.byParameter[argument.parameterIndex]? = some none)
    (later : next ≤ argument.evaluationIndex)
    (justified : Justified parameters arguments receiverOffset argument)
    (declared : argument.source = .default →
      ∀ bound ∈ binding.defaults, bound.parameterIndex < argument.parameterIndex) :
    Sound parameters arguments receiverOffset (argument.evaluationIndex + 1)
      (binding.put argument) := by
  have mem_put : ∀ {bound}, bound ∈ (binding.put argument).evaluationOrder ↔
      bound ∈ binding.evaluationOrder ∨ bound = argument := by
    simp
  refine ⟨by simp [sound.width], ?_, ?_, ?_, ?_, ?_⟩
  · intro index bound
    rw [CallBinding.put, getElem?_set]
    by_cases same : argument.parameterIndex = index
    · have other : bound ∈ binding.evaluationOrder →
          bound.parameterIndex ≠ argument.parameterIndex := by
        intro mem same
        cases free.symm.trans (sound.slot_iff.mpr ⟨mem, same⟩)
      grind
    · rw [if_neg same, sound.slot_iff]
      grind
  · rw [CallBinding.put, map_append, pairwise_append]
    refine ⟨sound.ascending, pairwise_singleton _ _, fun position mem position' mem' => ?_⟩
    obtain ⟨bound, bound_mem, rfl⟩ := mem_map.mp mem
    rw [mem_singleton.mp mem']
    exact (sound.below bound bound_mem).trans_le later
  · intro bound mem
    obtain mem | rfl := mem_put.mp mem
    · have := sound.below bound mem
      omega
    · exact Nat.lt_succ_self _
  · intro bound mem
    obtain mem | rfl := mem_put.mp mem
    · exact sound.justified bound mem
    · exact justified
  · by_cases default : argument.source = .default
    · have grown : (binding.put argument).defaults = binding.defaults ++ [argument] := by
        simp [default]
      rw [grown, map_append, pairwise_append]
      refine ⟨sound.declared, pairwise_singleton _ _, fun index mem index' mem' => ?_⟩
      obtain ⟨bound, bound_mem, rfl⟩ := mem_map.mp mem
      rw [mem_singleton.mp mem']
      exact declared default bound bound_mem
    · have same : (binding.put argument).defaults = binding.defaults := by simp [default]
      rw [same]
      exact sound.declared

theorem Sound.report (sound : Sound parameters arguments receiverOffset next binding)
    (le : next ≤ next') (issue : CallBindingIssue) :
    Sound parameters arguments receiverOffset next' (binding.report issue) :=
  ⟨sound.width, sound.slot_iff, sound.ascending, fun bound mem => (sound.below bound mem).trans_le le,
    sound.justified, sound.declared⟩

theorem put_free {slot : Nat} (free : (binding.put argument).byParameter[slot]? = some none) :
    binding.byParameter[slot]? = some none := by
  rw [put, getElem?_set] at free
  split at free
  · split at free <;> simp at free
  · exact free

/-- An argument is bound to the free parameter it asks for, or an issue names it. -/
theorem bindArgument_cases : (∃ issue, issue.sourceIndex? = some sourceIndex ∧
      bindArgument parameters receiverOffset sourceIndex argument binding = binding.report issue) ∨
    ∃ index, requestedParameter parameters receiverOffset sourceIndex argument = some index ∧
      binding.byParameter[index]? = some none ∧
      bindArgument parameters receiverOffset sourceIndex argument binding =
        binding.put ⟨index, sourceIndex + receiverOffset, .explicit sourceIndex⟩ := by
  unfold bindArgument
  cases request : requestedParameter parameters receiverOffset sourceIndex argument with
  | none => exact .inl ⟨_, rfl, rfl⟩
  | some index =>
    match slot : binding.byParameter[index]? with
    | none => exact .inl ⟨.positionalArgumentOutOfRange sourceIndex, rfl, by simp [slot]⟩
    | some (some _) => exact .inl ⟨.duplicateParameter sourceIndex index, rfl, by simp [slot]⟩
    | some none => exact .inr ⟨index, rfl, slot, by simp [slot]⟩

theorem Progress.bindArgument {argument : CallArgument α}
    (progress : Progress parameters arguments receiverOffset count receiverOffset
      (count + receiverOffset) binding)
    (here : arguments[count]? = some argument) :
    Progress parameters arguments receiverOffset (count + 1) receiverOffset
      (count + 1 + receiverOffset)
      (bindArgument parameters receiverOffset count argument binding) := by
  have lt := (List.getElem?_eq_some_iff.mp here).1
  obtain ⟨sound, receiver, named, missing, earlier, -⟩ := progress
  obtain ⟨issue, names, h⟩ | ⟨index, request, free, h⟩ := bindArgument_cases
  · rw [h]
    refine ⟨sound.report (by omega) issue, receiver, fun sourceIndex le => ?_, fun index lt free =>
      mem_append_left _ (missing index lt free), earlier, fun position le lt => by omega⟩
    obtain lt | rfl := Nat.lt_succ_iff_lt_or_eq.mp le
    · exact (named sourceIndex lt).imp_right fun ⟨old, mem, same⟩ =>
        ⟨old, mem_append_left _ mem, same⟩
    · exact .inr ⟨issue, by simp [report], names⟩
  · rw [h]
    have put := sound.put ⟨index, count + receiverOffset, .explicit count⟩ free le_rfl
      ⟨rfl, argument, here, request⟩ nofun
    rw [Nat.add_right_comm] at put
    refine ⟨put, fun one => mem_append_left _ (receiver one), fun sourceIndex le => ?_,
      fun index lt free => missing index lt (put_free free), ?_, fun position le lt => by omega⟩
    · obtain lt | rfl := Nat.lt_succ_iff_lt_or_eq.mp le
      · exact (named sourceIndex lt).imp_left fun ⟨bound, mem, source⟩ =>
          ⟨bound, mem_append_left _ mem, source⟩
      · exact .inl ⟨_, mem_append_right _ (mem_singleton_self _), rfl⟩
    · simpa using earlier

theorem Progress.bindArguments
    (progress : Progress parameters arguments receiverOffset count receiverOffset
      (count + receiverOffset) binding)
    (left : arguments.drop count = rest) :
    Progress parameters arguments receiverOffset (count + rest.length) receiverOffset
      (count + rest.length + receiverOffset)
      (bindArguments parameters receiverOffset count rest binding) := by
  induction rest generalizing count binding with
  | nil => exact progress
  | cons argument rest ih =>
    have here : arguments[count]? = some argument := by rw [← head?_drop, left, head?_cons]
    have after : arguments.drop (count + 1) = rest := by rw [← tail_drop, left, tail_cons]
    have := ih (progress.bindArgument here) after
    rwa [Nat.add_right_comm] at this

theorem Progress.bindDefault {parameter : CallParameter α}
    (progress : Progress parameters arguments receiverOffset count index next binding)
    (start : arguments.length + receiverOffset ≤ next)
    (here : parameters[index]? = some parameter) :
    Progress parameters arguments receiverOffset count (index + 1)
      (bindDefault index parameter (binding, next)).2
      (bindDefault index parameter (binding, next)).1 ∧
    next ≤ (bindDefault index parameter (binding, next)).2 := by
  have lt := (List.getElem?_eq_some_iff.mp here).1
  have lt' := progress.sound.width ▸ lt
  obtain ⟨sound, receiver, named, missing, earlier, covered⟩ := progress
  have earlier' : ∀ bound ∈ binding.defaults, bound.parameterIndex < index + 1 :=
    fun bound mem => Nat.lt_succ_of_lt (earlier bound mem)
  have split_index : ∀ parameterIndex < index + 1,
      parameterIndex < index ∨ parameterIndex = index := fun _ lt => Nat.lt_succ_iff_lt_or_eq.mp lt
  match slot : binding.byParameter[index]? with
  | none => exact absurd (getElem?_eq_none_iff.mp slot) (by omega)
  | some (some bound) =>
    have h : CallBinding.bindDefault index parameter (binding, next) = (binding, next) := by
      simp [slot]
    rw [h]
    refine ⟨⟨sound, receiver, named, fun other lt free => ?_, earlier', covered⟩, le_rfl⟩
    obtain lt | rfl := split_index other lt
    · exact missing other lt free
    · cases slot.symm.trans free
  | some none =>
    cases default : parameter.default with
    | none =>
      have h : CallBinding.bindDefault index parameter (binding, next) =
          (binding.report (.missingParameter index), next) := by
        simp [slot, default]
      rw [h]
      refine ⟨⟨sound.report le_rfl _, receiver, fun sourceIndex lt => ?_, fun other lt free => ?_,
        earlier', covered⟩, le_rfl⟩
      · exact (named sourceIndex lt).imp_right fun ⟨old, mem, same⟩ =>
          ⟨old, mem_append_left _ mem, same⟩
      · obtain lt | rfl := split_index other lt
        · exact mem_append_left _ (missing other lt free)
        · simp [report]
    | some value =>
      have h : CallBinding.bindDefault index parameter (binding, next) =
          (binding.put ⟨index, next, .default⟩, next + 1) := by
        simp [slot, default]
      rw [h]
      have last : ∀ {bound}, bound ∈ binding.evaluationOrder →
          bound ∈ (binding.put ⟨index, next, .default⟩).evaluationOrder :=
        mem_append_left _
      refine ⟨⟨sound.put ⟨index, next, .default⟩ slot le_rfl
        ⟨start, parameter, value, here, default⟩ fun _ => earlier,
        fun one => last (receiver one), fun sourceIndex lt => ?_, fun other lt free => ?_,
        fun bound mem => ?_, fun position le lt => ?_⟩, Nat.le_succ _⟩
      · exact (named sourceIndex lt).imp_left fun ⟨bound, mem, source⟩ => ⟨bound, last mem, source⟩
      · obtain lt | rfl := split_index other lt
        · exact missing other lt (put_free free)
        · simp [lt'] at free
      · obtain ⟨mem, source⟩ := mem_filter.mp mem
        obtain mem | mem := mem_append.mp mem
        · exact earlier' bound (mem_filter.mpr ⟨mem, source⟩)
        · rw [mem_singleton.mp mem]
          exact Nat.lt_succ_self _
      · obtain lt | rfl := Nat.lt_succ_iff_lt_or_eq.mp lt
        · obtain ⟨bound, mem, same⟩ := covered position le lt
          exact ⟨bound, last mem, same⟩
        · exact ⟨_, mem_append_right _ (mem_singleton_self _), rfl⟩

theorem Progress.bindDefaults
    (progress : Progress parameters arguments receiverOffset count index next binding)
    (start : arguments.length + receiverOffset ≤ next) (left : parameters.drop index = rest) :
    Progress parameters arguments receiverOffset count (index + rest.length)
      (bindDefaults index rest (binding, next)).2 (bindDefaults index rest (binding, next)).1 := by
  induction rest generalizing index next binding with
  | nil => exact progress
  | cons parameter rest ih =>
    have here : parameters[index]? = some parameter := by rw [← head?_drop, left, head?_cons]
    have after : parameters.drop (index + 1) = rest := by rw [← tail_drop, left, tail_cons]
    obtain ⟨after_one, le⟩ := progress.bindDefault start here
    have := ih after_one (start.trans le) after
    rwa [Nat.add_right_comm] at this

theorem progress_withReceiver (one : receiverOffset ≤ 1) (fits : receiverOffset ≤ parameters.length) :
    Progress parameters arguments receiverOffset 0 receiverOffset (0 + receiverOffset)
      (withReceiver parameters receiverOffset) := by
  have blank : Sound parameters arguments receiverOffset 0
      ⟨replicate parameters.length none, [], []⟩ := by
    refine ⟨by simp, ?_, by simp, by simp, by simp, by simp⟩
    simp [getElem?_replicate]
  obtain rfl | rfl : receiverOffset = 0 ∨ receiverOffset = 1 := by omega
  · exact ⟨blank, nofun, nofun, nofun, by simp [withReceiver], fun _ _ lt => by omega⟩
  · have free : (replicate parameters.length (none : Option BoundArgument))[0]? =
        some none := by
      rw [getElem?_replicate, if_pos (by omega)]
    rw [withReceiver, if_pos ⟨rfl, ne_nil_of_length_pos fits⟩]
    refine ⟨blank.put ⟨0, 0, .receiver⟩ free le_rfl ⟨rfl, rfl, rfl⟩ nofun, by simp, nofun,
      fun index lt => ?_,
      by simp, fun _ le lt => by omega⟩
    obtain rfl : index = 0 := by omega
    simp [getElem?_set]

theorem progress_bindInOrder (one : receiverOffset ≤ 1) (fits : receiverOffset ≤ parameters.length)
    (arguments : List (CallArgument α)) :
    ∃ next, Progress parameters arguments receiverOffset arguments.length parameters.length next
      (bindInOrder parameters receiverOffset arguments) := by
  have start : Progress parameters arguments receiverOffset _ _ _ _ :=
    progress_withReceiver one fits
  have written := start.bindArguments rfl
  rw [drop_zero, Nat.zero_add] at written
  have completed := written.bindDefaults le_rfl rfl
  rw [length_drop, Nat.add_sub_cancel' fits] at completed
  exact ⟨_, completed⟩

/-! ### The whole binding -/

/-- What the binding of a call without issues is: a bijection between the parameters and the
receiver, the written arguments and the defaults, in the language's evaluation order. -/
structure Bijective (parameters : List (CallParameter α)) (arguments : List (CallArgument α))
    (receiverOffset : Nat) (binding : CallBinding) : Prop where
  complete : binding.isComplete
  placed : ∀ (index : Nat) (bound : BoundArgument),
    binding.byParameter[index]? = some (some bound) ↔
      bound ∈ binding.evaluationOrder ∧ bound.parameterIndex = index
  written_once : ∀ sourceIndex < arguments.length,
    ∃! bound, bound ∈ binding.evaluationOrder ∧ bound.source = .explicit sourceIndex
  justified : ∀ bound ∈ binding.evaluationOrder,
    Justified parameters arguments receiverOffset bound
  sources : binding.evaluationOrder.map (·.source) = List.replicate receiverOffset .receiver ++
    ((List.range arguments.length).map .explicit ++
      List.replicate (parameters.length - (receiverOffset + arguments.length)) .default)
  positions : binding.evaluationOrder.map (·.evaluationIndex) = List.range parameters.length
  declared : (binding.defaults.map (·.parameterIndex)).Pairwise (· < ·)

section Whole

variable (progress : Progress parameters arguments receiverOffset arguments.length
    parameters.length next binding)
  (none_left : binding.issues = []) (one : receiverOffset ≤ 1)
include progress

theorem nodup_order : binding.evaluationOrder.Nodup :=
  Nodup.of_map _ (progress.sound.ascending.imp fun lt => lt.ne)

/-- A written argument is bound once. -/
theorem eq_of_explicit (left_mem : left ∈ binding.evaluationOrder)
    (right_mem : right ∈ binding.evaluationOrder)
    (left_source : left.source = .explicit sourceIndex)
    (right_source : right.source = .explicit sourceIndex) : left = right := by
  have left_justified := progress.sound.justified left left_mem
  have right_justified := progress.sound.justified right right_mem
  rw [Justified, left_source] at left_justified
  rw [Justified, right_source] at right_justified
  exact inj_on_of_nodup_map (progress.sound.ascending.imp fun lt => lt.ne) left_mem right_mem
    (left_justified.1.trans right_justified.1.symm)

theorem explicit_eq (mem : bound ∈ binding.evaluationOrder)
    (source : bound.source = .explicit sourceIndex) :
    binding.explicit sourceIndex = some bound := by
  cases result : binding.explicit sourceIndex with
  | none => simpa [source] using find?_eq_none.mp result bound mem
  | some other =>
    have other_source : other.source = .explicit sourceIndex := by simpa using find?_some result
    rw [eq_of_explicit progress (mem_of_find?_eq_some result) mem other_source source]

include none_left

theorem exists_explicit (lt : sourceIndex < arguments.length) :
    ∃ bound ∈ binding.evaluationOrder, bound.source = .explicit sourceIndex := by
  obtain bound | ⟨issue, mem, -⟩ := progress.named sourceIndex lt
  · exact bound
  · simp [none_left] at mem

theorem isComplete_of_issues : binding.isComplete := by
  have filled : ∀ slot ∈ binding.byParameter, slot.isSome := by
    intro slot mem
    obtain ⟨index, at_index⟩ := mem_iff_getElem?.mp mem
    have lt := progress.sound.width ▸ (List.getElem?_eq_some_iff.mp at_index).1
    cases slot with
    | none => simpa [none_left] using progress.missing index lt at_index
    | some bound => rfl
  simpa [isComplete, none_left] using filled

theorem perm_range : (binding.evaluationOrder.map (·.parameterIndex)).Perm
    (List.range parameters.length) := by
  have sound := progress.sound
  have nodup : (binding.evaluationOrder.map (·.parameterIndex)).Nodup := by
    refine (nodup_order progress).map_on fun left left_mem right right_mem same => ?_
    have slot := sound.slot_iff.mpr ⟨right_mem, rfl⟩
    rw [← same, sound.slot_iff.mpr ⟨left_mem, rfl⟩] at slot
    simpa using slot
  refine (perm_ext_iff_of_nodup nodup nodup_range).mpr fun index => ?_
  rw [mem_range, mem_map, ← sound.width]
  constructor
  · rintro ⟨bound, mem, rfl⟩
    exact (List.getElem?_eq_some_iff.mp (sound.slot_iff.mpr ⟨mem, rfl⟩)).1
  · intro lt
    cases slot : binding.byParameter[index] with
    | none =>
      have missing := progress.missing index (sound.width ▸ lt)
        (List.getElem?_eq_some_iff.mpr ⟨lt, slot⟩)
      simp [none_left] at missing
    | some bound => exact ⟨bound, sound.slot_iff.mp (List.getElem?_eq_some_iff.mpr ⟨lt, slot⟩)⟩

include one

/-- Arguments are evaluated at their positions in the order. -/
theorem positions_eq : binding.evaluationOrder.map (·.evaluationIndex) =
    List.range parameters.length := by
  have sound := progress.sound
  have evaluated : binding.evaluationOrder.map (·.evaluationIndex) = range next := by
    have nodup := sound.ascending.imp fun lt => lt.ne
    refine ((perm_ext_iff_of_nodup nodup nodup_range).mpr fun position => ?_).eq_of_pairwise
      (fun _ _ _ _ lt gt => absurd (lt.trans gt) (lt_irrefl _)) sound.ascending pairwise_lt_range
    rw [mem_range, mem_map]
    constructor
    · rintro ⟨bound, mem, rfl⟩
      exact sound.below bound mem
    · intro lt
      by_cases default : arguments.length + receiverOffset ≤ position
      · exact progress.covered position default lt
      · by_cases receiver : position < receiverOffset
        · obtain rfl : position = 0 := by omega
          exact ⟨_, progress.receiver (by omega), rfl⟩
        · obtain ⟨bound, mem, source⟩ := exists_explicit progress none_left
            (show position - receiverOffset < arguments.length by omega)
          have justified := sound.justified bound mem
          rw [Justified, source] at justified
          exact ⟨bound, mem, by omega⟩
  have lengths := (perm_range progress none_left).length_eq
  have counted := congrArg length evaluated
  simp only [length_map, length_range] at lengths counted
  rw [evaluated, ← counted, lengths]

theorem offset_add_length_le : receiverOffset + arguments.length ≤ parameters.length := by
  have below : ∀ bound ∈ binding.evaluationOrder, bound.evaluationIndex < parameters.length := by
    intro bound mem
    rw [← mem_range, ← positions_eq progress none_left one]
    exact mem_map_of_mem mem
  cases count : arguments.length with
  | zero =>
    obtain rfl | rfl : receiverOffset = 0 ∨ receiverOffset = 1 := by omega
    · exact Nat.zero_le _
    · exact below _ (progress.receiver rfl)
  | succ last =>
    obtain ⟨bound, mem, source⟩ := exists_explicit progress none_left
      (show last < arguments.length by omega)
    have evaluated := below bound mem
    have justified := progress.sound.justified bound mem
    rw [Justified, source] at justified
    omega

theorem sources_eq : binding.evaluationOrder.map (·.source) =
    List.replicate receiverOffset .receiver ++ ((List.range arguments.length).map .explicit ++
      List.replicate (parameters.length - (receiverOffset + arguments.length)) .default) := by
  have positions := positions_eq progress none_left one
  have length : binding.evaluationOrder.length = parameters.length := by
    simpa using congrArg length positions
  have counted := offset_add_length_le progress none_left one
  refine ext_getElem (by simp; omega) fun index lt _ => ?_
  rw [length_map] at lt
  have evaluated : binding.evaluationOrder[index].evaluationIndex = index := by
    have := congrArg (·[index]?) positions
    simpa [lt, length ▸ lt] using this
  have justified := progress.sound.justified _ (List.getElem_mem lt)
  rw [Justified, evaluated] at justified
  cases source : binding.evaluationOrder[index].source with
  | receiver =>
    simp only [source] at justified
    obtain ⟨rfl, -, rfl⟩ := justified
    simpa using source
  | explicit sourceIndex =>
    simp only [source] at justified
    obtain ⟨rfl, argument, at_index, -⟩ := justified
    have written := (List.getElem?_eq_some_iff.mp at_index).1
    simp [source, written]
  | default =>
    simp only [source] at justified
    have not_receiver : ¬ index < receiverOffset := by omega
    have not_written : ¬ index - receiverOffset < arguments.length := by omega
    simp [source, getElem_append, not_receiver, not_written]

theorem bijective : binding.Bijective parameters arguments receiverOffset := by
  refine ⟨isComplete_of_issues progress none_left, fun _ _ => progress.sound.slot_iff,
    fun sourceIndex lt => ?_, progress.sound.justified, sources_eq progress none_left one,
    positions_eq progress none_left one, progress.sound.declared⟩
  obtain ⟨bound, mem, source⟩ := exists_explicit progress none_left lt
  exact ⟨bound, ⟨mem, source⟩, fun other ⟨other_mem, other_source⟩ =>
    eq_of_explicit progress other_mem mem other_source source⟩

/-- The parameters of the arguments that lowering is given: all but the receiver's. -/
theorem hirCallArgs_perm : ((hirCallArgs parameters arguments binding).map (·.parameterIndex)).Perm
    ((List.range (parameters.length - receiverOffset)).map
      fun slot => some (receiverOffset + slot)) := by
  obtain ⟨first, rest, order, first_sources, rest_sources⟩ :=
    map_eq_append_iff.mp (sources_eq progress none_left one)
  obtain ⟨explicits, completed, rfl, explicit_sources, default_sources⟩ :=
    map_eq_append_iff.mp rest_sources
  have lengths : explicits.length = arguments.length := by
    simpa using congrArg length explicit_sources
  have explicit_part : ((arguments.zipIdx.map fun (argument, index) =>
      match binding.explicit index with
      | some bound => ⟨argument.value, some bound.parameterIndex, bound.evaluationIndex⟩
      | none => ⟨argument.value, none, index⟩ : List (HirCallArg α)).map (·.parameterIndex)) =
      explicits.map (fun bound => some bound.parameterIndex) := by
    refine ext_getElem (by simp [lengths]) fun index lt lt' => ?_
    rw [length_map] at lt'
    have source : explicits[index].source = .explicit index := by
      have := congrArg (·[index]?) explicit_sources
      simpa [lt', lengths ▸ lt'] using this
    have mem : explicits[index] ∈ binding.evaluationOrder := by simp [order]
    simp [explicit_eq progress mem source]
  have source_of : ∀ {source count} {part : List BoundArgument},
      part.map (·.source) = replicate count source → ∀ bound ∈ part, bound.source = source :=
    fun sources bound mem => (eq_replicate_iff.mp sources).2 _ (mem_map_of_mem mem)
  have defaults_eq : binding.defaults = completed := by
    have no_default : ∀ bound ∈ explicits, bound.source ≠ .default := by
      intro bound mem is_default
      have mem_sources := mem_map_of_mem (f := BoundArgument.source) mem
      rw [explicit_sources, is_default] at mem_sources
      simp at mem_sources
    rw [CallBinding.defaults, order, filter_append, filter_append,
      filter_eq_nil_iff.mpr (fun bound mem => by simp [source_of first_sources bound mem]),
      filter_eq_nil_iff.mpr (fun bound mem => by simp [no_default bound mem]),
      filter_eq_self.mpr (fun bound mem => by simp [source_of default_sources bound mem])]
    rfl
  have default_part : ((binding.defaults.filterMap fun bound =>
      (parameters[bound.parameterIndex]?.bind (·.default)).map fun value =>
        (⟨value, some bound.parameterIndex, bound.evaluationIndex⟩ : HirCallArg α)).map
          (·.parameterIndex)) = completed.map (fun bound => some bound.parameterIndex) := by
    rw [defaults_eq, map_filterMap, ← filterMap_eq_map]
    refine filterMap_congr fun bound mem => ?_
    have justified := progress.sound.justified bound (by simp [order, mem])
    rw [Justified, source_of default_sources bound mem] at justified
    obtain ⟨-, parameter, value, at_index, default⟩ := justified
    simp [at_index, default]
  have first_part : first.map (·.parameterIndex) = range receiverOffset := by
    have length : first.length = receiverOffset := by simpa using congrArg length first_sources
    refine ext_getElem (by simp [length]) fun index lt _ => ?_
    rw [length_map] at lt
    have justified := progress.sound.justified first[index] (by simp [order])
    rw [Justified, source_of first_sources _ (List.getElem_mem lt)] at justified
    rw [getElem_map, getElem_range]
    omega
  have perm := perm_range progress none_left
  rw [order, map_append, first_part,
    show parameters.length = receiverOffset + (parameters.length - receiverOffset) by
      have := offset_add_length_le progress none_left one
      omega, range_add, perm_append_left_iff] at perm
  rw [hirCallArgs, map_append, explicit_part, default_part]
  simpa [Function.comp_def] using perm.map some

end Whole

/-- Call binding is a bijection: without an issue every written argument has one parameter
and every other parameter the receiver or its default, in the language's evaluation order,
and lowering accepts the arguments. An issue names what could not be bound. -/
theorem bind_bijective (parameters : List (CallParameter α)) (arguments : List (CallArgument α))
    (receiverOffset : Nat) (one : receiverOffset ≤ 1) (fits : receiverOffset ≤ parameters.length) :
    let binding := bind parameters receiverOffset arguments
    (binding.issues = [] → binding.Bijective parameters arguments receiverOffset ∧
      ∀ {σ ε τ : Type} (refused : ε) (lower : Nat → HirCallArg α → σ → Except ε (τ × σ)) (state : σ),
        (∀ parameter argument before, ∃ lowered, lower parameter argument before = .ok lowered) →
        ∃ values final, values.length = parameters.length - receiverOffset ∧
          lowerArgumentsByParameter refused lower receiverOffset
            (hirCallArgs parameters arguments binding) state = .ok (values, final)) ∧
    (∀ sourceIndex < arguments.length,
      (∀ bound, some bound ∈ binding.byParameter → bound.source ≠ .explicit sourceIndex) →
      ∃ issue ∈ binding.issues, issue.sourceIndex? = some sourceIndex) ∧
    ∀ parameterIndex, binding.byParameter[parameterIndex]? = some none →
      .missingParameter parameterIndex ∈ binding.issues := by
  obtain ⟨next, progress⟩ := progress_bindInOrder one fits arguments
  refine ⟨fun none_left => ?_, ?_, ?_⟩
  · -- The order is sorted already.
    have unchanged : bind parameters receiverOffset arguments =
        bindInOrder parameters receiverOffset arguments := by
      have sorted := (pairwise_map.mp progress.sound.ascending).imp
        (S := fun left right => left.evaluationIndex ≤ right.evaluationIndex) (fun lt => lt.le)
      rw [CallBinding.bind, sorted.insertionSort_eq]
    rw [unchanged]
    exact ⟨bijective progress none_left one, fun refused lower state lowers =>
      lowerArgumentsByParameter_accepts lowers (hirCallArgs_perm progress none_left one)⟩
  · intro sourceIndex lt unbound
    obtain ⟨bound, mem, source⟩ | named := progress.named sourceIndex lt
    · have slot := progress.sound.slot_iff.mpr ⟨mem, rfl⟩
      exact absurd source (unbound bound (mem_of_getElem? slot))
    · exact named
  · intro index free
    have lt := progress.sound.width ▸ (List.getElem?_eq_some_iff.mp free).1
    exact progress.missing index lt free

/-- `f(b: 2, a)` for `fn f(a, b, c = 9)`, with `a` as a shorthand. -/
theorem bind_named_shorthand_default :
    let parameters : List (CallParameter Nat) :=
      [⟨"a", none, true⟩, ⟨"b", none, true⟩, ⟨"c", some 9, true⟩]
    let arguments : List (CallArgument Nat) := [⟨some "b", none, 2⟩, ⟨none, some "a", 1⟩]
    (bind parameters 0 arguments).Bijective parameters arguments 0 :=
  ((bind_bijective _ _ 0 (by decide) (by decide)).1 (by decide)).1

end CallBinding

end RSScript.Semantics
