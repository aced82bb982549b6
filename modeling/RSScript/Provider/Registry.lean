import Mathlib.Data.String.Basic
import RSScript.Abi.Wire
import RSScript.Lib.Guards
import RSScript.Lib.SortedMap

/-!
# The registry of providers

A provider declares functions in its descriptor and brings one implementation for
each. The registry checks the declaration and keeps the functions under their
symbols, and the imports of an artifact are resolved against it. The hash of a
signature is the parameter `hash`.
-/

namespace RSScript.Provider

open Guards RSScript.Abi SortedMap List

/-! ## Descriptors -/

inductive ProviderCallMode where
  | sync
  | async
  deriving DecidableEq, Repr

inductive BlockingBehavior where
  | nonBlocking
  | mayBlock
  deriving DecidableEq, Repr

inductive CancellationBehavior where
  | notApplicable
  | cooperative
  | abortSafe
  deriving DecidableEq, Repr

inductive ResourceCleanupContract where
  | none
  | providerManaged
  | runtimeRegistered
  deriving DecidableEq, Repr

inductive ProviderErrorMapping where
  | structuredV1
  deriving DecidableEq, Repr

/-- What a provider declares of one function. -/
structure ProviderFunctionDescriptor where
  symbol : String
  signature : FunctionSignature
  entry : String
  callMode : ProviderCallMode
  blocking : BlockingBehavior
  cancellation : CancellationBehavior
  threadSafe : Bool
  reentrant : Bool
  resourceCleanup : ResourceCleanupContract
  errorMapping : ProviderErrorMapping
  deriving DecidableEq, Repr

/-- The call mode is the one of the signature. -/
def ProviderFunctionDescriptor.Modal (function : ProviderFunctionDescriptor) : Prop :=
  function.callMode = .async ↔ function.signature.asynchronous = true

instance (function : ProviderFunctionDescriptor) : Decidable function.Modal :=
  inferInstanceAs (Decidable (_ ↔ _))

/-- What a provider declares of itself. -/
structure ProviderDescriptor where
  providerId : String
  providerVersion : String
  supportedAbi : List UInt32
  recordLayouts : List WireRecordLayout
  variantLayouts : List WireVariantLayout
  functions : List ProviderFunctionDescriptor
  deriving DecidableEq, Repr

/-- Why a provider or an import is refused. -/
inductive ProviderLoadError where
  | invalidProviderIdentity
  | unsupportedAbi (provider : String) (runtimeAbi : UInt32)
  | duplicateDescriptorSymbol (symbol : String)
  | duplicateRegisteredSymbol (symbol : String)
  | missingImplementation (symbol : String)
  | undeclaredImplementation (symbol : String)
  | descriptorSignatureMismatch (symbol : String)
  | invalidRecordLayout (ty : WireType)
  | duplicateRecordLayout (ty : WireType)
  | invalidRecordField (record : WireType) (field : String)
  | invalidVariantLayout (ty : WireType)
  | unresolvedImport (symbol : String)
  | importAbiMismatch (symbol : String) (importAbi runtimeAbi : UInt32)
  | importSignatureMismatch (symbol : String)
  | callModeMismatch (symbol : String)
  deriving DecidableEq, Repr

abbrev Loaded := Except ProviderLoadError

/-! ## Layouts -/

/-- The characters that trimming removes. -/
def isWhitespace (c : Char) : Bool :=
  let code := c.toNat
  (9 ≤ code && code ≤ 13) || code = 32 || code = 0x85 || code = 0xa0 || code = 0x1680 ||
    (0x2000 ≤ code && code ≤ 0x200a) || code = 0x2028 || code = 0x2029 || code = 0x202f ||
    code = 0x205f || code = 0x3000

/-- Nothing is left of the text when it is trimmed. -/
def isBlank (text : String) : Bool := text.toList.all isWhitespace

def isNamed : WireType → Bool
  | .named .. => true
  | _ => false

/-- The fields of a layout have different names, none of them blank. -/
def validateFields (invalid : String → ProviderLoadError) (fields : List WireRecordFieldLayout) :
    Loaded Unit := do
  let _ ← fields.foldlM (fun names field => do
    ensure (isBlank field.name = false ∧ field.name ∉ names) (invalid field.name)
    return insert field.name names) (∅ : Finset String)

def validateRecordLayouts (descriptor : ProviderDescriptor) : Loaded Unit := do
  let _ ← descriptor.recordLayouts.foldlM (fun records record => do
    ensure (isNamed record.ty = true) (.invalidRecordLayout record.ty)
    ensure (record.ty ∉ records) (.duplicateRecordLayout record.ty)
    validateFields (.invalidRecordField record.ty) record.fields
    return insert record.ty records) (∅ : Finset WireType)

def validateVariantLayouts (descriptor : ProviderDescriptor) : Loaded Unit := do
  let _ ← descriptor.variantLayouts.foldlM (fun types layout => do
    let invalid := ProviderLoadError.invalidVariantLayout layout.ty
    ensure (isNamed layout.ty = true ∧ layout.ty ∉ types) invalid
    let _ ← layout.variants.foldlM (fun variants variant => do
      ensure (isBlank variant.name = false ∧ variant.name ∉ variants) invalid
      validateFields (fun _ => invalid) variant.fields
      return insert variant.name variants) (∅ : Finset String)
    return insert layout.ty types) (∅ : Finset WireType)

/-! ## The registry -/

/-- An implementation that a provider brings. -/
structure ProviderFunction (T : Type) where
  signature : FunctionSignature
  callable : T

/-- A function of the registry: its declaration and its implementation. -/
structure ResolvedProviderFunction (T : Type) where
  providerId : String
  providerVersion : String
  recordLayouts : List WireRecordLayout
  variantLayouts : List WireVariantLayout
  descriptor : ProviderFunctionDescriptor
  callable : T

variable {T : Type}

/-- The functions of all registered providers, by symbol. -/
structure ProviderRegistry (T : Type) where
  runtimeAbi : UInt32
  functions : List (String × ResolvedProviderFunction T)
  sorted : SortedMap.Sorted functions
  /-- A function stands under its own symbol and is called as its signature says. -/
  declared : ∀ entry ∈ functions, entry.2.descriptor.symbol = entry.1 ∧ entry.2.descriptor.Modal

namespace ProviderRegistry

def new (runtimeAbi : UInt32) : ProviderRegistry T where
  runtimeAbi
  functions := []
  sorted := .nil
  declared := by simp

/-- The function a provider declares, with its implementation. -/
def resolved (descriptor : ProviderDescriptor) (function : ProviderFunctionDescriptor)
    (implementation : ProviderFunction T) : ResolvedProviderFunction T where
  providerId := descriptor.providerId
  providerVersion := descriptor.providerVersion
  recordLayouts := descriptor.recordLayouts
  variantLayouts := descriptor.variantLayouts
  descriptor := function
  callable := implementation.callable

def insert (registry : ProviderRegistry T) (descriptor : ProviderDescriptor)
    (function : ProviderFunctionDescriptor) (implementation : ProviderFunction T)
    (hmodal : function.Modal) : ProviderRegistry T where
  runtimeAbi := registry.runtimeAbi
  functions := SortedMap.insert function.symbol (resolved descriptor function implementation)
    registry.functions
  sorted := SortedMap.insert_sorted registry.sorted
  declared := by
    intro entry hentry
    rcases SortedMap.mem_insert hentry with rfl | hentry
    · exact ⟨rfl, hmodal⟩
    · exact registry.declared entry hentry

abbrev Implementations (T : Type) := List (String × ProviderFunction T)

variable (hash : FunctionSignature → String)

/-- The implementation of one declared function, if it may be registered. -/
def checkFunction (registry : ProviderRegistry T) (declared : Finset String)
    (implementations : Implementations T) (function : ProviderFunctionDescriptor) :
    Loaded { _implementation : ProviderFunction T // function.Modal } := do
  ensure (function.symbol ∉ declared) (.duplicateDescriptorSymbol function.symbol)
  ensure (SortedMap.get function.symbol registry.functions).isNone
    (.duplicateRegisteredSymbol function.symbol)
  match SortedMap.get function.symbol implementations with
  | none => throw (.missingImplementation function.symbol)
  | some implementation => do
    ensure (hash implementation.signature = hash function.signature)
      (.descriptorSignatureMismatch function.symbol)
    if hmodal : function.Modal then return ⟨implementation, hmodal⟩
    else throw (.callModeMismatch function.symbol)

/-- Register one function after the other; those before a failing one stay. -/
def registerFunctions (descriptor : ProviderDescriptor) :
    List ProviderFunctionDescriptor → Finset String → Implementations T → ProviderRegistry T →
      Loaded (Implementations T) × ProviderRegistry T
  | [], _, implementations, registry => (.ok implementations, registry)
  | function :: functions, declared, implementations, registry =>
    match registry.checkFunction hash declared implementations function with
    | .error error => (.error error, registry)
    | .ok ⟨implementation, hmodal⟩ =>
      registerFunctions descriptor functions (Insert.insert function.symbol declared)
        (implementations.filter fun entry => entry.1 ≠ function.symbol)
        (registry.insert descriptor function implementation hmodal)

/-- What is checked before the functions. -/
def checkDescriptor (registry : ProviderRegistry T) (descriptor : ProviderDescriptor) :
    Loaded Unit := do
  ensure (isBlank descriptor.providerId = false ∧ isBlank descriptor.providerVersion = false)
    .invalidProviderIdentity
  ensure (registry.runtimeAbi ∈ descriptor.supportedAbi)
    (.unsupportedAbi descriptor.providerId registry.runtimeAbi)
  validateRecordLayouts descriptor
  validateVariantLayouts descriptor

/-- `register_provider`. What was entered before an error stays entered. -/
def registerProvider (registry : ProviderRegistry T) (descriptor : ProviderDescriptor)
    (implementations : Implementations T) : Loaded Unit × ProviderRegistry T :=
  match registry.checkDescriptor descriptor with
  | .error error => (.error error, registry)
  | .ok () =>
    match registerFunctions hash descriptor descriptor.functions ∅ implementations registry with
    | (.error error, after) => (.error error, after)
    | (.ok [], after) => (.ok (), after)
    | (.ok ((symbol, _) :: _), after) => (.error (.undeclaredImplementation symbol), after)

/-- The function an import of an artifact is linked to. -/
def resolve (registry : ProviderRegistry T) (import' : ExternalImport) :
    Loaded (ResolvedProviderFunction T) := do
  ensure (import'.abiVersion = registry.runtimeAbi)
    (.importAbiMismatch import'.symbol import'.abiVersion registry.runtimeAbi)
  match SortedMap.get import'.symbol registry.functions with
  | none => throw (.unresolvedImport import'.symbol)
  | some function => do
    ensure (function.descriptor.signature = import'.signature ∧
        hash function.descriptor.signature = import'.signatureHash)
      (.importSignatureMismatch import'.symbol)
    return function

end ProviderRegistry

/-! ## What a provider has to bring -/

/-- Names that are not blank and do not repeat. -/
def ProperNames (names : List String) : Prop :=
  (∀ name ∈ names, isBlank name = false) ∧ names.Nodup

structure ProviderDescriptor.Acceptable (descriptor : ProviderDescriptor) (runtimeAbi : UInt32) :
    Prop where
  identity : isBlank descriptor.providerId = false ∧ isBlank descriptor.providerVersion = false
  abi : runtimeAbi ∈ descriptor.supportedAbi
  records : ∀ record ∈ descriptor.recordLayouts, isNamed record.ty = true ∧
    ProperNames (record.fields.map WireRecordFieldLayout.name)
  recordTypes : (descriptor.recordLayouts.map WireRecordLayout.ty).Nodup
  variants : ∀ layout ∈ descriptor.variantLayouts, isNamed layout.ty = true ∧
    ProperNames (layout.variants.map WireVariantCaseLayout.name) ∧
    ∀ variant ∈ layout.variants, ProperNames (variant.fields.map WireRecordFieldLayout.name)
  variantTypes : (descriptor.variantLayouts.map WireVariantLayout.ty).Nodup

variable {u : Unit}

theorem validateFields_eq_ok : validateFields invalid fields = .ok u ↔
      ProperNames (fields.map WireRecordFieldLayout.name) := by
  unfold validateFields ProperNames
  rw [distinct_eq_ok WireRecordFieldLayout.name fun field => isBlank field.name = false,
    forall_mem_map]
  intro names field after
  simp [and_assoc]

theorem validateRecordLayouts_eq_ok : validateRecordLayouts descriptor = .ok u ↔
      (∀ record ∈ descriptor.recordLayouts, isNamed record.ty = true ∧
        ProperNames (record.fields.map WireRecordFieldLayout.name)) ∧
      (descriptor.recordLayouts.map WireRecordLayout.ty).Nodup := by
  unfold validateRecordLayouts
  rw [distinct_eq_ok WireRecordLayout.ty fun record => isNamed record.ty = true ∧
    ProperNames (record.fields.map WireRecordFieldLayout.name)]
  intro records record after
  simp only [bind_eq_ok, ensure_eq_ok, validateFields_eq_ok, pure_eq_ok, exists_const]
  tauto

theorem validateVariantLayouts_eq_ok : validateVariantLayouts descriptor = .ok u ↔
      (∀ layout ∈ descriptor.variantLayouts, isNamed layout.ty = true ∧
        ProperNames (layout.variants.map WireVariantCaseLayout.name) ∧ ∀ variant ∈ layout.variants,
          ProperNames (variant.fields.map WireRecordFieldLayout.name)) ∧
      (descriptor.variantLayouts.map WireVariantLayout.ty).Nodup := by
  unfold validateVariantLayouts
  rw [distinct_eq_ok WireVariantLayout.ty fun layout => isNamed layout.ty = true ∧
    ProperNames (layout.variants.map WireVariantCaseLayout.name) ∧
    ∀ variant ∈ layout.variants, ProperNames (variant.fields.map WireRecordFieldLayout.name)]
  intro types layout after
  simp only [bind_eq_ok, ensure_eq_ok, pure_eq_ok, exists_const, exists_and_right]
  rw [foldlM_insert_eq_ok WireVariantCaseLayout.name fun variant => isBlank variant.name = false ∧
    ProperNames (variant.fields.map WireRecordFieldLayout.name)]
  · have hproper : ProperNames (layout.variants.map WireVariantCaseLayout.name) ↔
        (∀ variant ∈ layout.variants, isBlank variant.name = false) ∧
        (layout.variants.map WireVariantCaseLayout.name).Nodup := by
      rw [ProperNames, forall_mem_map]
    simp only [hproper, forall_and, Finset.notMem_empty, not_false_eq_true, implies_true]
    tauto
  · intro variants variant after
    simp only [bind_eq_ok, ensure_eq_ok, validateFields_eq_ok, pure_eq_ok, exists_const]
    tauto

namespace ProviderRegistry

theorem checkDescriptor_eq_ok {registry : ProviderRegistry T} :
    registry.checkDescriptor descriptor = .ok u ↔
      descriptor.Acceptable registry.runtimeAbi := by
  unfold checkDescriptor
  simp only [bind_eq_ok, ensure_eq_ok, validateRecordLayouts_eq_ok, validateVariantLayouts_eq_ok,
    exists_const]
  constructor
  · rintro ⟨identity, abi, ⟨records, recordTypes⟩, variants, variantTypes⟩
    exact ⟨identity, abi, records, recordTypes, variants, variantTypes⟩
  · rintro ⟨identity, abi, records, recordTypes, variants, variantTypes⟩
    exact ⟨identity, abi, ⟨records, recordTypes⟩, variants, variantTypes⟩

variable {hash : FunctionSignature → String} {registry : ProviderRegistry T}
  {descriptor : ProviderDescriptor} {implementations : Implementations T}

/-- A declared function that the registry takes. -/
structure Admits (hash : FunctionSignature → String) (registry : ProviderRegistry T)
    (implementations : Implementations T) (function : ProviderFunctionDescriptor) : Prop where
  unregistered : SortedMap.get function.symbol registry.functions = none
  implemented : ∃ implementation,
    SortedMap.get function.symbol implementations = some implementation ∧
    hash implementation.signature = hash function.signature
  modal : function.Modal

variable {declared : Finset String} {function : ProviderFunctionDescriptor}
  {functions : List ProviderFunctionDescriptor}

theorem checkFunction_eq_ok :
    (∃ implementation, registry.checkFunction hash declared implementations function = .ok implementation) ↔
      function.symbol ∉ declared ∧ registry.Admits hash implementations function := by
  unfold checkFunction
  simp only [bind_eq_ok, ensure_eq_ok, exists_const, Option.isNone_iff_eq_none]
  constructor
  · rintro ⟨implementation, hdeclared, hunregistered, hrest⟩
    split at hrest
    · exact absurd hrest throw_ne_ok
    · rename_i found hfound
      obtain ⟨_, hhash, hmodal⟩ := bind_eq_ok.mp hrest
      split at hmodal
      · exact ⟨hdeclared, hunregistered, ⟨found, hfound, ensure_eq_ok.mp hhash⟩, by assumption⟩
      · exact absurd hmodal throw_ne_ok
  · rintro ⟨hdeclared, hunregistered, ⟨found, hfound, hhash⟩, hmodal⟩
    refine ⟨⟨found, hmodal⟩, hdeclared, hunregistered, ?_⟩
    simp [hfound, hhash, hmodal]

/-! ## Failed registrations -/

/-- A registration never takes a function away or replaces it. -/
theorem registerFunctions_keeps {function : ResolvedProviderFunction T}
    (hfound : SortedMap.get symbol registry.functions = some function) : SortedMap.get symbol
      (registerFunctions hash descriptor functions declared implementations registry).2.functions =
        some function := by
  induction functions generalizing declared implementations registry with
  | nil => exact hfound
  | cons first functions ih =>
    unfold registerFunctions
    split
    · exact hfound
    · rename_i implementation hmodal hchecked
      apply ih
      have hadmits := (checkFunction_eq_ok.mp ⟨_, hchecked⟩).2
      have hne : symbol ≠ first.symbol := by
        rintro rfl
        rw [hadmits.unregistered] at hfound
        cases hfound
      exact (get_insert_of_ne hne).trans hfound

theorem registerFunctions_runtimeAbi :
    (registerFunctions hash descriptor functions declared implementations registry).2.runtimeAbi =
      registry.runtimeAbi := by
  induction functions generalizing declared implementations registry with
  | nil => rfl
  | cons first functions ih =>
    unfold registerFunctions
    split
    · rfl
    · exact ih

/-- The registry after a registration is the one that its functions leave. -/
theorem registerProvider_snd (hacceptable : descriptor.Acceptable registry.runtimeAbi) :
    (registry.registerProvider hash descriptor implementations).2 =
      (registerFunctions hash descriptor descriptor.functions ∅ implementations registry).2 := by
  unfold registerProvider
  have hchecked : registry.checkDescriptor descriptor = .ok () := checkDescriptor_eq_ok.mpr hacceptable
  rw [hchecked]
  dsimp only
  split <;> simp_all

/-- The import that a declared function answers. -/
def importOf (hash : FunctionSignature → String) (runtimeAbi : UInt32)
    (function : ProviderFunctionDescriptor) : ExternalImport :=
  ⟨function.symbol, function.signature, hash function.signature, runtimeAbi⟩

/-- The registration gets to its first insertion. -/
def Begins (hash : FunctionSignature → String) (registry : ProviderRegistry T)
    (descriptor : ProviderDescriptor) (implementations : Implementations T) : Prop :=
  descriptor.Acceptable registry.runtimeAbi ∧
  ∃ function functions, descriptor.functions = function :: functions ∧
    registry.Admits hash implementations function

theorem registerProvider_of_not_begins
    (hbegins : ¬ registry.Begins hash descriptor implementations) :
    (registry.registerProvider hash descriptor implementations).2 = registry := by
  by_cases hacceptable : descriptor.Acceptable registry.runtimeAbi
  · rw [registerProvider_snd hacceptable]
    cases hfunctions : descriptor.functions with
    | nil => rfl
    | cons function functions =>
      unfold registerFunctions
      split
      · rfl
      · rename_i implementation hmodal hchecked
        exact absurd ⟨hacceptable, function, functions, hfunctions, (checkFunction_eq_ok.mp ⟨_, hchecked⟩).2⟩
          hbegins
  · unfold registerProvider
    cases hchecked : registry.checkDescriptor descriptor with
    | error error => rfl
    | ok u => exact absurd (checkDescriptor_eq_ok.mp hchecked) hacceptable

/-- The first function of a registration that begins is found afterwards, whatever comes next. -/
theorem registerProvider_of_begins (hbegins : registry.Begins hash descriptor implementations) :
    ∃ function, registry.resolve hash (importOf hash registry.runtimeAbi function) =
        .error (.unresolvedImport function.symbol) ∧
      ∃ answer, (registry.registerProvider hash descriptor implementations).2.resolve hash
        (importOf hash registry.runtimeAbi function) = .ok answer := by
  obtain ⟨hacceptable, function, functions, hfunctions, hadmits⟩ := hbegins
  refine ⟨function, by simp [resolve, importOf, hadmits.unregistered, ensure]; rfl, ?_⟩
  obtain ⟨⟨implementation, hmodal⟩, hchecked⟩ :=
    checkFunction_eq_ok.mpr ⟨Finset.notMem_empty function.symbol, hadmits⟩
  refine ⟨resolved descriptor function implementation, ?_⟩
  rw [registerProvider_snd hacceptable, hfunctions]
  have habi : (registerFunctions hash descriptor (function :: functions) ∅ implementations
      registry).2.runtimeAbi = registry.runtimeAbi := registerFunctions_runtimeAbi
  rw [← habi]
  have hfound : get function.symbol (registerFunctions hash descriptor
      (function :: functions) ∅ implementations registry).2.functions =
        some (resolved descriptor function implementation) := by
    rw [registerFunctions, hchecked]
    exact registerFunctions_keeps get_insert_self
  simp [resolve, importOf, hfound, resolved]

/-- A registration, also one that fails halfway, changes no import that resolves. -/
theorem resolve_registerProvider (h : registry.resolve hash import' = .ok answer) :
    (registry.registerProvider hash descriptor implementations).2.resolve hash import' =
      .ok answer := by
  by_cases hacceptable : descriptor.Acceptable registry.runtimeAbi
  · rw [resolve] at h ⊢
    rw [registerProvider_snd hacceptable, registerFunctions_runtimeAbi]
    cases hfound : get import'.symbol registry.functions with
    | none => simp [hfound] at h
    | some found =>
      rw [registerFunctions_keeps hfound]
      rwa [hfound] at h
  · rwa [registerProvider_of_not_begins fun hbegins => hacceptable hbegins.1]

/-- An import that resolves keeps its function whatever providers are registered afterwards, in
any number and order, with success or without. -/
theorem resolve_registrations (providers : List (ProviderDescriptor × Implementations T))
    (h : registry.resolve hash import' = .ok answer) : (providers.foldl (fun registry provider =>
      (registry.registerProvider hash provider.1 provider.2).2) registry).resolve hash import' =
        .ok answer := by
  induction providers generalizing registry with
  | nil => exact h
  | cons provider providers ih => exact ih (resolve_registerProvider h)

/-! ## Successful registrations -/

/-- Registering one function does not matter to the others. -/
theorem admits_insert_iff (hne : function.symbol ≠ first.symbol) :
    (registry.insert descriptor first implementation hmodal).Admits hash
        (implementations.filter fun entry => entry.1 ≠ first.symbol) function ↔
      registry.Admits hash implementations function := by
  have hregistered : get function.symbol
      (registry.insert descriptor first implementation hmodal).functions =
        get function.symbol registry.functions := get_insert_of_ne hne
  have himplemented : get function.symbol
      (implementations.filter fun entry => entry.1 ≠ first.symbol) =
        get function.symbol implementations := by
    rw [get_filter_ne, if_neg hne]
  constructor
  · rintro ⟨hunregistered, hfound, hmodal'⟩
    rw [hregistered] at hunregistered
    rw [himplemented] at hfound
    exact ⟨hunregistered, hfound, hmodal'⟩
  · rintro ⟨hunregistered, hfound, hmodal'⟩
    rw [← hregistered] at hunregistered
    rw [← himplemented] at hfound
    exact ⟨hunregistered, hfound, hmodal'⟩

/-- All functions are taken when each is, and the implementations that are left are those of no
function. -/
theorem registerFunctions_eq_ok :
    (registerFunctions hash descriptor functions declared implementations registry).1 = .ok left ↔
      (∀ function ∈ functions, function.symbol ∉ declared ∧
        registry.Admits hash implementations function) ∧
      (functions.map ProviderFunctionDescriptor.symbol).Nodup ∧
      implementations.filter (fun entry =>
        entry.1 ∉ functions.map ProviderFunctionDescriptor.symbol) = left := by
  induction functions generalizing declared implementations registry with
  | nil => simp [registerFunctions]
  | cons first functions ih =>
    unfold registerFunctions
    cases hchecked : registry.checkFunction hash declared implementations first with
    | error error =>
      have hrefused : ¬ (first.symbol ∉ declared ∧ registry.Admits hash implementations first) := by
        intro hadmits
        obtain ⟨implementation, hok⟩ := checkFunction_eq_ok.mpr hadmits
        rw [hok] at hchecked
        cases hchecked
      simp [hrefused]
    | ok admitted =>
      obtain ⟨implementation, hmodal⟩ := admitted
      have hfirst := checkFunction_eq_ok.mp ⟨_, hchecked⟩
      rw [ih, filter_filter, forall_mem_cons, map_cons, nodup_cons]
      have hleft : ∀ entry : String × ProviderFunction T,
          (decide (entry.1 ∉ functions.map ProviderFunctionDescriptor.symbol) &&
            decide (entry.1 ≠ first.symbol)) =
          decide (entry.1 ∉ first.symbol :: functions.map ProviderFunctionDescriptor.symbol) := by
        intro entry
        rw [← Bool.decide_and, decide_eq_decide, mem_cons, not_or, and_comm]
      simp only [hleft]
      constructor
      · rintro ⟨hall, hnodup, hfilter⟩
        have hfresh : ∀ function ∈ functions, function.symbol ≠ first.symbol := by
          intro function hfunction heq
          exact (hall function hfunction).1 (heq ▸ Finset.mem_insert_self _ _)
        refine ⟨⟨hfirst, fun function hfunction => ⟨fun hdeclared => ?_, ?_⟩⟩, ⟨?_, hnodup⟩, hfilter⟩
        · exact (hall function hfunction).1 (Finset.mem_insert_of_mem hdeclared)
        · exact (admits_insert_iff (hfresh function hfunction)).mp (hall function hfunction).2
        · intro hmem
          obtain ⟨function, hfunction, heq⟩ := mem_map.mp hmem
          exact hfresh function hfunction heq
      · rintro ⟨⟨-, hall⟩, ⟨hnew, hnodup⟩, hfilter⟩
        refine ⟨fun function hfunction => ?_, hnodup, hfilter⟩
        have hfresh : function.symbol ≠ first.symbol := fun heq =>
          hnew (heq ▸ mem_map_of_mem hfunction)
        refine ⟨fun hdeclared => ?_, (admits_insert_iff hfresh).mpr (hall function hfunction).2⟩
        exact (Finset.mem_insert.mp hdeclared).elim hfresh (hall function hfunction).1

/-- The provider brings exactly what it declares, and all of it can be registered. -/
structure Complete (hash : FunctionSignature → String) (registry : ProviderRegistry T)
    (descriptor : ProviderDescriptor) (implementations : Implementations T) : Prop where
  acceptable : descriptor.Acceptable registry.runtimeAbi
  admits : ∀ function ∈ descriptor.functions, registry.Admits hash implementations function
  symbols : (descriptor.functions.map ProviderFunctionDescriptor.symbol).Nodup
  declared : ∀ entry ∈ implementations,
    entry.1 ∈ descriptor.functions.map ProviderFunctionDescriptor.symbol

theorem registerProvider_eq_ok {u : Unit} :
    (registry.registerProvider hash descriptor implementations).1 = .ok u ↔
      registry.Complete hash descriptor implementations := by
  have hfunctions : (registerFunctions hash descriptor descriptor.functions ∅ implementations
      registry).1 = .ok [] ↔
        (∀ function ∈ descriptor.functions, registry.Admits hash implementations function) ∧
        (descriptor.functions.map ProviderFunctionDescriptor.symbol).Nodup ∧
        ∀ entry ∈ implementations,
          entry.1 ∈ descriptor.functions.map ProviderFunctionDescriptor.symbol := by
    rw [registerFunctions_eq_ok]
    simp
  unfold registerProvider
  cases hchecked : registry.checkDescriptor descriptor with
  | error error =>
    refine ⟨nofun, fun hcomplete => ?_⟩
    have hok : registry.checkDescriptor descriptor = .ok () :=
      checkDescriptor_eq_ok.mpr hcomplete.acceptable
    rw [hchecked] at hok
    cases hok
  | ok _ =>
    have hacceptable := checkDescriptor_eq_ok.mp hchecked
    rcases hrun : registerFunctions hash descriptor descriptor.functions ∅ implementations registry
      with ⟨error | left, after⟩
    all_goals
      rw [hrun] at hfunctions
    · refine ⟨nofun, fun hcomplete => ?_⟩
      exact nomatch hfunctions.mpr ⟨hcomplete.admits, hcomplete.symbols, hcomplete.declared⟩
    · cases left with
      | nil =>
        obtain ⟨hadmits, hsymbols, hdeclared⟩ := hfunctions.mp rfl
        exact ⟨fun _ => ⟨hacceptable, hadmits, hsymbols, hdeclared⟩, fun _ => rfl⟩
      | cons entry left =>
        refine ⟨nofun, fun hcomplete => ?_⟩
        exact nomatch hfunctions.mpr ⟨hcomplete.admits, hcomplete.symbols, hcomplete.declared⟩

/-- Registration is all or nothing for the providers that fail before their first function, or
not at all. -/
theorem failed_registration_iff (hash : FunctionSignature → String) (registry : ProviderRegistry T)
    (descriptor : ProviderDescriptor) (implementations : Implementations T) :
    ((∃ error, (registry.registerProvider hash descriptor implementations).1 = .error error) →
      ∀ import', (registry.registerProvider hash descriptor implementations).2.resolve hash import' =
        registry.resolve hash import') ↔
      (registry.Begins hash descriptor implementations →
        registry.Complete hash descriptor implementations) := by
  constructor
  · intro hsame hbegins
    cases hresult : (registry.registerProvider hash descriptor implementations).1 with
    | ok u => exact registerProvider_eq_ok.mp hresult
    | error error =>
      obtain ⟨function, hbefore, answer, hafter⟩ := registerProvider_of_begins hbegins
      rw [hsame ⟨error, hresult⟩, hbefore] at hafter
      cases hafter
  · rintro hcomplete ⟨error, herror⟩ import'
    have hbegins : ¬ registry.Begins hash descriptor implementations := by
      intro hbegins
      have hok : (registry.registerProvider hash descriptor implementations).1 = .ok () :=
        registerProvider_eq_ok.mpr (hcomplete hbegins)
      rw [herror] at hok
      cases hok
    rw [registerProvider_of_not_begins hbegins]

/-- A declared function without parameters or result. -/
def action (symbol : String) : ProviderFunctionDescriptor where
  symbol
  signature := ⟨[], .unit, false⟩
  entry := symbol
  callMode := .sync
  blocking := .nonBlocking
  cancellation := .notApplicable
  threadSafe := true
  reentrant := true
  resourceCleanup := .none
  errorMapping := .structuredV1

/-- A provider of two functions. -/
def openClose : ProviderDescriptor where
  providerId := "host"
  providerVersion := "1.0.0"
  supportedAbi := [1]
  recordLayouts := []
  variantLayouts := []
  functions := [action "host.open", action "host.close"]

/-- Some hash of signatures. -/
def hashParameters (signature : FunctionSignature) : String := toString signature.parameters.length

/-- A provider is refused for its second function, and its first one is resolved from then on. -/
theorem openClose_halfway :
    let registry : ProviderRegistry Unit := .new 1
    let request := importOf hashParameters 1 (action "host.open")
    let outcome := registry.registerProvider hashParameters openClose
      [("host.open", ⟨(action "host.open").signature, ()⟩)]
    outcome.1 = .error (.missingImplementation "host.close") ∧
    registry.resolve hashParameters request = .error (.unresolvedImport "host.open") ∧
    outcome.2.resolve hashParameters request =
      .ok (resolved openClose (action "host.open") ⟨(action "host.open").signature, ()⟩) := by
  exact ⟨rfl, rfl, rfl⟩

/-- Its first function also stays when the provider is registered once more. -/
theorem openClose_stays :
    let provider : ProviderDescriptor × Implementations Unit :=
      (openClose, [("host.open", ⟨(action "host.open").signature, ()⟩)])
    ∃ answer, ([provider, provider].foldl (fun registry provider =>
      (registry.registerProvider hashParameters provider.1 provider.2).2) (new 1)).resolve
        hashParameters (importOf hashParameters 1 (action "host.open")) = .ok answer :=
  ⟨_, resolve_registrations [_] rfl⟩

end ProviderRegistry

end RSScript.Provider
