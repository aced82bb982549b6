import RSScript.Abi.Wire

/-!
# Generic calls in the typed facts

A call of a generic function records the type parameters, their arguments and the types
it has with them. The verifier unifies the types of the signature with the recorded ones;
the code generator made them by substitution.

The unifier takes two equal types before it looks for a parameter. So a record that leaves a
parameter where the signature has it passes for every argument, and it is a substitution
exactly where no parameter is left like that (`instantiation_exact_iff`).
-/

namespace RSScript.Bytecode

open RSScript.Abi List

/-- `TypedFactTypeV1`: a type, if the compiler knew it. -/
inductive TypedFactType where
  | unknown
  | known (ty : WireType)
  deriving DecidableEq

/-- What the check of an instantiation reads of a call site. -/
structure TypedCallSite where
  parameters : List TypedFactType
  result : TypedFactType
  typeParameters : List WireType
  typeArguments : List WireType

structure ExecutableFunctionSignature where
  parameters : List WireType
  result : WireType

/-- The type parameters with their arguments. -/
def TypedCallSite.substitutions (call : TypedCallSite) : List (WireType × WireType) :=
  call.typeParameters.zip call.typeArguments

/-! ## Types with parameters -/

mutual

/-- A type occurs in another. -/
def wireTypeContains (needle ty : WireType) : Bool :=
  ty == needle ||
    match ty with
    | .list element | .option element | .qualified _ element => wireTypeContains needle element
    | .map first second | .result first second =>
      wireTypeContains needle first || wireTypeContains needle second
    | .tuple types | .named _ _ types => anyContains needle types
    | .function parameters _ result =>
      anyContains needle parameters || wireTypeContains needle result
    | _ => false

def anyContains (needle : WireType) : List WireType → Bool
  | [] => false
  | ty :: types => wireTypeContains needle ty || anyContains needle types

end

variable (σ : List (WireType × WireType))

mutual

/-- Whether the arguments turn the type of the signature into the recorded one. -/
def unifyGenericWireType (pattern actual : WireType) : Bool :=
  pattern == actual ||
    match pattern, actual with
    | .named none _ [], _ => σ.lookup pattern == some actual
    | .list left, .list right | .option left, .option right => unifyGenericWireType left right
    | .map left left', .map right right' | .result left left', .result right right' =>
      unifyGenericWireType left right && unifyGenericWireType left' right'
    | .tuple left, .tuple right => unifyAll left right
    | .named package name left, .named package' name' right =>
      package == package' && name == name' && unifyAll left right
    | .function left effects left', .function right effects' right' =>
      effects == effects' && unifyAll left right && unifyGenericWireType left' right'
    | .qualified qualifier left, .qualified qualifier' right =>
      qualifier == qualifier' && unifyGenericWireType left right
    | _, _ => false

/-- Two lists of one length, type by type. -/
def unifyAll : List WireType → List WireType → Bool
  | [], [] => true
  | left :: lefts, right :: rights =>
    unifyGenericWireType left right && unifyAll lefts rights
  | _, _ => false

end

mutual

/-- `substitute_wire_type` of the code generator. -/
def substituteWireType (ty : WireType) : WireType :=
  match σ.lookup ty with
  | some concrete => concrete
  | none =>
    match ty with
    | .list element => .list (substituteWireType element)
    | .map key value => .map (substituteWireType key) (substituteWireType value)
    | .option value => .option (substituteWireType value)
    | .result ok error => .result (substituteWireType ok) (substituteWireType error)
    | .tuple elements => .tuple (substituteAll elements)
    | .function parameters effects result =>
      .function (substituteAll parameters) effects (substituteWireType result)
    | .named package name arguments => .named package name (substituteAll arguments)
    | .qualified qualifier value => .qualified qualifier (substituteWireType value)
    | other => other

def substituteAll : List WireType → List WireType
  | [] => []
  | ty :: types => substituteWireType ty :: substituteAll types

end

def TypedFactType.unifies (pattern : WireType) : TypedFactType → Bool
  | known actual => unifyGenericWireType σ pattern actual
  | unknown => false

/-- The check of a recorded instantiation. -/
def verifiedGenericInstantiation (call : TypedCallSite) (signature : ExecutableFunctionSignature) :
    Bool :=
  if call.typeParameters.length ≠ call.typeArguments.length ∨ call.typeParameters.isEmpty then false
  else if call.typeParameters.any fun parameter =>
      !(parameter matches .named none _ []) ||
        (!(signature.parameters.any (wireTypeContains parameter)) &&
          !(wireTypeContains parameter signature.result)) then false
  else if ¬(call.substitutions.map Prod.fst).Nodup then false
  else
    (signature.parameters.zip call.parameters).all
        (fun (pattern, actual) => actual.unifies call.substitutions pattern) &&
      call.result.unifies call.substitutions signature.result

/-! ## What an accepted record is -/

mutual

/-- One parameter with another argument stands at the same place in both types. -/
def leftOver : WireType → WireType → Bool
  | .list left, .list right | .option left, .option right
  | .qualified _ left, .qualified _ right => leftOver left right
  | .map left left', .map right right' | .result left left', .result right right' =>
    leftOver left right || leftOver left' right'
  | .tuple left, .tuple right => anyLeftOver left right
  | .function left _ left', .function right _ right' => anyLeftOver left right || leftOver left' right'
  | .named package name left, .named package' name' right =>
    (WireType.named package name left == .named package' name' right &&
      (σ.lookup (.named package name left)).any (· != .named package name left)) ||
      anyLeftOver left right
  | _, _ => false

def anyLeftOver : List WireType → List WireType → Bool
  | left :: lefts, right :: rights => leftOver left right || anyLeftOver lefts rights
  | _, _ => false

end

def TypedFactType.leavesOver (pattern : WireType) : TypedFactType → Bool
  | known actual => leftOver σ pattern actual
  | unknown => false

variable {σ}

attribute [local simp] unifyGenericWireType unifyAll substituteWireType
  substituteAll leftOver anyLeftOver

@[simp] theorem unifyGenericWireType_self : unifyGenericWireType σ ty ty = true := by
  unfold unifyGenericWireType
  simp

@[simp] theorem unifyAll_self :
    (types : List WireType) → unifyAll σ types types = true
  | [] => by simp
  | _ :: types => by simp [unifyAll_self types]

/-- Only names without a package and arguments are type parameters. -/
def Bare (σ : List (WireType × WireType)) : Prop :=
  ∀ entry ∈ σ, ∃ name, entry.1 = .named none name []

theorem eq_bare_of_lookup (hbare : Bare σ) (h : σ.lookup ty = some argument) :
    ∃ name, ty = .named none name [] := by
  obtain ⟨before, after, rfl, -⟩ := lookup_eq_some_iff.mp h
  exact hbare (ty, argument) (by simp)

theorem lookup_bare_none (hbare : Bare σ) (hty : ∀ name, ty ≠ .named none name []) :
    σ.lookup ty = none := by
  rcases h : σ.lookup ty with _ | argument
  · rfl
  · obtain ⟨name, hname⟩ := eq_bare_of_lookup hbare h
    exact absurd hname (hty name)

mutual

theorem eq_substitute_iff (hbare : Bare σ) : (pattern actual : WireType) →
    unifyGenericWireType σ pattern actual = true →
    (actual = substituteWireType σ pattern ↔ leftOver σ pattern actual = false)
  | .unit, actual, h | .bool, actual, h | .string, actual, h | .char, actual, h | .bytes, actual, h
  | .int .., actual, h | .float _, actual, h | .resource _, actual, h | .handle _, actual, h => by
    cases actual <;> simp at h
    all_goals simp [lookup_bare_none hbare, h]
  | .list left, actual, h | .option left, actual, h => by
    cases actual <;> simp at h
    rcases h with rfl | h
    all_goals simp [lookup_bare_none hbare, eq_substitute_iff hbare left, *]
  | .qualified _ left, actual, h => by
    cases actual <;> simp at h
    rcases h with ⟨rfl, rfl⟩ | ⟨rfl, h⟩
    all_goals simp [lookup_bare_none hbare, eq_substitute_iff hbare left, *]
  | .map left left', actual, h | .result left left', actual, h => by
    cases actual <;> simp at h
    rcases h with ⟨rfl, rfl⟩ | ⟨h, h'⟩
    all_goals simp [lookup_bare_none hbare, eq_substitute_iff hbare left,
      eq_substitute_iff hbare left', *]
  | .tuple left, actual, h => by
    cases actual <;> simp at h
    rcases h with rfl | h
    all_goals simp [lookup_bare_none hbare, eq_substituteAll_iff hbare left, *]
  | .function left effects left', actual, h => by
    cases actual <;> simp at h
    rcases h with ⟨rfl, rfl, rfl⟩ | ⟨⟨rfl, h⟩, h'⟩
    all_goals simp [lookup_bare_none hbare, eq_substituteAll_iff hbare left,
      eq_substitute_iff hbare left', *]
  | .named package name left, actual, h => by
    rcases hlookup : σ.lookup (.named package name left) with _ | argument
    · -- No parameter: the head is the same and the arguments unify.
      obtain ⟨right, rfl, hright⟩ : ∃ right, actual = .named package name right ∧
          unifyAll σ left right = true := by
        unfold unifyGenericWireType at h
        rw [Bool.or_eq_true, beq_iff_eq] at h
        rcases h with rfl | h
        · simp
        · split at h <;> simp_all [-lookup_eq_none_iff]
      simp [hlookup, eq_substituteAll_iff hbare left right hright]
    · obtain ⟨_, hbareName⟩ := eq_bare_of_lookup hbare hlookup
      cases hbareName
      simp [hlookup] at h
      rcases h with rfl | rfl
      · simp [hlookup]
        exact eq_comm
      · cases argument <;> simp [hlookup]
        rintro rfl rfl rfl
        exact ⟨rfl, rfl, rfl⟩

theorem eq_substituteAll_iff (hbare : Bare σ) : (patterns actuals : List WireType) →
    unifyAll σ patterns actuals = true →
    (actuals = substituteAll σ patterns ↔ anyLeftOver σ patterns actuals = false)
  | [], [], _ => by simp
  | left :: lefts, right :: rights, h => by
    rw [unifyAll, Bool.and_eq_true] at h
    simp [eq_substitute_iff hbare left right h.1, eq_substituteAll_iff hbare lefts rights h.2]

end

theorem unifies_iff {fact : TypedFactType} (hbare : Bare σ) (h : fact.unifies σ pattern = true) :
    fact = .known (substituteWireType σ pattern) ↔ fact.leavesOver σ pattern = false := by
  cases fact with
  | unknown => simp [TypedFactType.unifies] at h
  | known actual =>
    rw [TypedFactType.known.injEq]
    exact eq_substitute_iff hbare pattern actual h

theorem all_unifies_iff (hbare : Bare σ) :
    (patterns : List WireType) → (facts : List TypedFactType) → patterns.length = facts.length →
    (∀ entry ∈ patterns.zip facts, entry.2.unifies σ entry.1 = true) →
    (facts = patterns.map (fun ty => .known (substituteWireType σ ty)) ↔
      ∀ entry ∈ patterns.zip facts, entry.2.leavesOver σ entry.1 = false)
  | [], [], _, _ => by simp
  | pattern :: patterns, fact :: facts, hlength, h => by
    rw [zip_cons_cons, forall_mem_cons] at h
    simp [unifies_iff hbare h.1, all_unifies_iff hbare patterns facts (Nat.succ.inj hlength) h.2]

variable {call : TypedCallSite} {signature : ExecutableFunctionSignature}

/-- What the verifier has checked of a record that it accepts. -/
theorem instantiation_checked (h : verifiedGenericInstantiation call signature = true) :
    Bare call.substitutions ∧
    (∀ entry ∈ signature.parameters.zip call.parameters,
      entry.2.unifies call.substitutions entry.1 = true) ∧
    call.result.unifies call.substitutions signature.result = true := by
  rw [verifiedGenericInstantiation] at h
  split at h
  · simp at h
  split at h
  · simp at h
  rename_i hparameters
  split at h
  · simp at h
  rw [Bool.and_eq_true, all_eq_true] at h
  refine ⟨fun entry hentry => ?_, h⟩
  have hmem := (of_mem_zip hentry).1
  have hbare : ¬ (!(entry.1 matches .named none _ [])) = true := by
    intro hnot
    exact hparameters (any_eq_true.mpr ⟨_, hmem, by rw [hnot, Bool.true_or]⟩)
  split at hbare
  · exact ⟨_, ‹_›⟩
  · simp at hbare

/-- An accepted record has the types of the signature with the arguments in place of the
parameters exactly where no parameter with another argument is left as the signature has it. -/
theorem instantiation_exact_iff
    (haccepted : verifiedGenericInstantiation call signature = true)
    (hcount : signature.parameters.length = call.parameters.length) :
    (call.parameters = signature.parameters.map
        (fun ty => .known (substituteWireType call.substitutions ty)) ∧
      call.result = .known (substituteWireType call.substitutions signature.result)) ↔
    ∀ entry ∈ (signature.result, call.result) :: signature.parameters.zip call.parameters,
      entry.2.leavesOver call.substitutions entry.1 = false := by
  obtain ⟨hbare, hparameters, hresult⟩ := instantiation_checked haccepted
  rw [all_unifies_iff hbare _ _ hcount hparameters, unifies_iff hbare hresult, forall_mem_cons]
  exact and_comm

theorem instantiation_exact_list : TypedFactType.known .string =
      .known (substituteWireType [(.named none "T" [], .string)] (.named none "T" [])) :=
  ((@instantiation_exact_iff
    ⟨[.known (.list .string)], .known .string, [.named none "T" []], [.string]⟩
    ⟨[.list (.named none "T" [])], .named none "T" []⟩ (by decide) rfl).mpr (by decide)).2

/-- A call of `fn id(value: T) -> T` for strings may be recorded with `T` itself. -/
theorem instantiation_keeps_parameter : let t := WireType.named none "T" []
    let call := TypedCallSite.mk [.known t] (.known t) [t] [.string]
    verifiedGenericInstantiation call ⟨[t], t⟩ = true ∧
      call.result ≠ .known (substituteWireType call.substitutions t) := by
  decide

end RSScript.Bytecode
