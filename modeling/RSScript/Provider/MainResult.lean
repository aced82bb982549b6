import Mathlib.SetTheory.Cardinal.Order
import RSScript.Provider.Boundary

/-!
# The result of `main` as a wire value

The table that numbers the types of `main` is built from its result type and the layouts of the
unit, which come out of hash maps in any order and are sorted by type first.

How type texts are parsed and the order types are sorted in are parameters.
-/

namespace RSScript.Abi

/-- The derived order of types. Of it only the laws are used. -/
structure TypeOrder where
  le : WireType → WireType → Bool
  total : ∀ first second, le first second || le second first
  trans : ∀ first second third, le first second → le second third → le first third
  antisymm : ∀ first second, le first second → le second first → first = second

/-- The table has more types than `u32` has numbers. -/
inductive WireTypeTableOverflow where
  | overflow

namespace WireCallTypeTable

/-- Numbers a type that has no number yet. -/
def pushType (types : List WireType) (ty : WireType) :
    Except WireTypeTableOverflow (List WireType) :=
  if ty ∈ types then .ok types
  else if types.length < 2 ^ 32 then .ok (types ++ [ty])
  else .error .overflow

def isResource : WireType → Bool
  | .resource _ | .handle _ => true
  | _ => false

def resourceOf : WireType → Option WireType
  | .qualified _ value => if isResource value then some value else none
  | ty => if isResource ty then some ty else none

/-- A type is entered, and the resource it is or qualifies among the resources. -/
def register (table : WireCallTypeTable) (ty : WireType) :
    Except WireTypeTableOverflow WireCallTypeTable := do
  let types ← pushType table.types ty
  match resourceOf ty with
  | some resource => return { table with types, resources := ← pushType table.resources resource }
  | none => return { table with types }

mutual

/-- The parts of a type come before it. -/
def insert (table : WireCallTypeTable) (ty : WireType) :
    Except WireTypeTableOverflow WireCallTypeTable := do
  let table ← match ty with
    | .list part | .option part | .qualified _ part => insert table part
    | .map first second | .result first second => do insert (← insert table first) second
    | .tuple parts | .named _ _ parts => insertAll table parts
    | .function parameters _ result => do insert (← insertAll table parameters) result
    | _ => pure table
  register table ty

def insertAll (table : WireCallTypeTable) :
    List WireType → Except WireTypeTableOverflow WireCallTypeTable
  | [] => return table
  | ty :: types => do insertAll (← insert table ty) types

end

def forSignature (signature : FunctionSignature) : Except WireTypeTableOverflow WireCallTypeTable :=
  insertAll ⟨[], [], [], []⟩ (signature.parameters.map (·.ty) ++ [signature.result])

variable (order : TypeOrder)

def withRecordLayouts (table : WireCallTypeTable) (records : List WireRecordLayout) :
    Except WireTypeTableOverflow WireCallTypeTable := do
  let records := records.mergeSort fun left right => order.le left.ty right.ty
  let table ← insertAll table
    (records.flatMap fun record => record.ty :: record.fields.map (·.ty))
  return { table with records }

def withVariantLayouts (table : WireCallTypeTable) (variants : List WireVariantLayout) :
    Except WireTypeTableOverflow WireCallTypeTable := do
  let variants := variants.mergeSort fun left right => order.le left.ty right.ty
  let table ← insertAll table (variants.flatMap fun layout =>
    layout.ty :: layout.variants.flatMap fun variant => variant.fields.map (·.ty))
  return { table with variants }

end WireCallTypeTable

end RSScript.Abi

namespace RSScript.Provider

open RSScript.Abi WireCallTypeTable

structure RegFieldInfo where
  name : String
  typeName : String

structure RegTypeInfo where
  name : String
  fields : List RegFieldInfo

structure RegVariantCaseInfo where
  name : String
  fields : List RegFieldInfo

structure RegVariantInfo where
  name : String
  variants : List RegVariantCaseInfo

/-- What `main_result_wire_value` reads of a unit; the layouts in the order of the hash maps. -/
structure ResultUnit where
  /-- The declared result of `main`. -/
  returnType : Option String
  types : List RegTypeInfo
  variantLayouts : List RegVariantInfo

section Result

variable (parse : String → WireType) (order : TypeOrder)

def fieldLayout (field : RegFieldInfo) : WireRecordFieldLayout := ⟨field.name, parse field.typeName⟩

def recordLayoutOf (layout : RegTypeInfo) : WireRecordLayout :=
  ⟨parse layout.name, layout.fields.map (fieldLayout parse)⟩

def variantLayoutOf (layout : RegVariantInfo) : WireVariantLayout :=
  ⟨parse layout.name, layout.variants.map fun variant =>
    ⟨variant.name, variant.fields.map (fieldLayout parse)⟩⟩

/-- The table for `main`, from its result type and the layouts of the unit. -/
def mainTypeTable (unit : ResultUnit) (result : WireType) :
    Except WireTypeTableOverflow WireCallTypeTable := do
  let types ← forSignature ⟨[], result, false⟩
  let types ← types.withRecordLayouts order (unit.types.map (recordLayoutOf parse))
  types.withVariantLayouts order (unit.variantLayouts.map (variantLayoutOf parse))

/-- The result of `main` as the caller sees it. -/
def mainResultWireValue (unit : ResultUnit) (value : VmValue) : Option WireValue := do
  let result := parse (← unit.returnType)
  let types ← (mainTypeTable parse order unit result).toOption
  (wireValueFromVmValue types value result).toOption

/-- Layouts of one type are one layout. -/
def OneEach (unit : ResultUnit) : Prop :=
  (∀ first ∈ unit.types, ∀ second ∈ unit.types, parse first.name = parse second.name →
    recordLayoutOf parse first = recordLayoutOf parse second) ∧
  ∀ first ∈ unit.variantLayouts, ∀ second ∈ unit.variantLayouts,
    parse first.name = parse second.name →
      variantLayoutOf parse first = variantLayoutOf parse second

/-- Sorting by type leaves no choice where a type has one layout. -/
theorem mergeSort_eq_of_perm {α : Type} {layouts layouts' : List α} (ty : α → WireType)
    (hone : ∀ first ∈ layouts, ∀ second ∈ layouts, ty first = ty second → first = second)
    (hperm : layouts'.Perm layouts) :
    layouts'.mergeSort (fun left right => order.le (ty left) (ty right)) =
      layouts.mergeSort fun left right => order.le (ty left) (ty right) := by
  have hsorted := List.pairwise_mergeSort
    (fun first second third => order.trans (ty first) (ty second) (ty third))
    (fun first second => order.total (ty first) (ty second))
  refine List.Perm.eq_of_pairwise (fun first second hfirst hsecond hle hge => ?_)
    (hsorted layouts') (hsorted layouts)
    ((List.mergeSort_perm ..).trans (hperm.trans (List.mergeSort_perm ..).symm))
  rw [List.mem_mergeSort] at hfirst hsecond
  exact hone first (hperm.mem_iff.mp hfirst) second hsecond (order.antisymm _ _ hle hge)

/-- The order in which the layouts come out of the hash maps does not show in the result, if no type
has two different layouts. -/
theorem mainResultWireValue_perm (unit unit' : ResultUnit) (hone : OneEach parse unit)
    (hreturn : unit'.returnType = unit.returnType) (htypes : unit'.types.Perm unit.types)
    (hvariants : unit'.variantLayouts.Perm unit.variantLayouts) :
    (∀ result, mainTypeTable parse order unit' result = mainTypeTable parse order unit result) ∧
      ∀ value, mainResultWireValue parse order unit' value =
        mainResultWireValue parse order unit value := by
  have htable (result : WireType) :
      mainTypeTable parse order unit' result = mainTypeTable parse order unit result := by
    have hrecords := mergeSort_eq_of_perm order WireRecordLayout.ty ?_
      (htypes.map (recordLayoutOf parse))
    have hvariants := mergeSort_eq_of_perm order WireVariantLayout.ty ?_
      (hvariants.map (variantLayoutOf parse))
    · simp only [mainTypeTable, withRecordLayouts, withVariantLayouts, hrecords, hvariants]
    all_goals
      simp only [List.forall_mem_map]
    · exact hone.2
    · exact hone.1
  exact ⟨htable, fun value => by simp only [mainResultWireValue, hreturn, htable]⟩

end Result

/-- An order of types. -/
noncomputable def someOrder : TypeOrder :=
  have := (exists_wellFoundedLT WireType).choose
  { le first second := first ≤ second
    total := by simp [le_total]
    trans := by simpa using fun _ _ _ => le_trans
    antisymm := by simpa using fun _ _ => le_antisymm }

/-- Two records with a field of type `Bool`, the first of them the result of `main`. -/
def twoRecords (types : List RegTypeInfo) : ResultUnit := ⟨some "A", types, []⟩

/-- Reads `Bool` and names of records. -/
def boolOrRecord (name : String) : WireType := if name = "Bool" then .bool else .named none name []

/-- The record that `main` returns is the same wire value in both orders of the layouts. -/
theorem mainResultWireValue_perm_two :
    let a : RegTypeInfo := ⟨"A", [⟨"x", "Bool"⟩]⟩
    let b : RegTypeInfo := ⟨"B", [⟨"y", "Bool"⟩]⟩
    let value : VmValue := .struct ⟨"A", ["x"]⟩ [.bool true]
    mainResultWireValue boolOrRecord someOrder (twoRecords [b, a]) value =
        mainResultWireValue boolOrRecord someOrder (twoRecords [a, b]) value ∧
      mainResultWireValue boolOrRecord someOrder (twoRecords [a, b]) value =
        some (.record ⟨0⟩ [.bool true]) := by
  intro a b value
  refine ⟨(mainResultWireValue_perm boolOrRecord someOrder (twoRecords [a, b]) (twoRecords [b, a])
    (by simp [OneEach, twoRecords, a, b, boolOrRecord, recordLayoutOf]) rfl (.swap ..) .nil).2 value, ?_⟩
  have hsort : ([a, b].map (recordLayoutOf boolOrRecord)).mergeSort
      (fun left right => someOrder.le left.ty right.ty) =
        [recordLayoutOf boolOrRecord a, recordLayoutOf boolOrRecord b] ∨
      ([a, b].map (recordLayoutOf boolOrRecord)).mergeSort
        (fun left right => someOrder.le left.ty right.ty) =
        [recordLayoutOf boolOrRecord b, recordLayoutOf boolOrRecord a] := by
    cases hle : someOrder.le (recordLayoutOf boolOrRecord a).ty (recordLayoutOf boolOrRecord b).ty <;>
      simp [List.mergeSort, List.MergeSort.Internal.splitInTwo, hle]
  have hnone : ([] : List WireVariantLayout).mergeSort
      (fun left right => someOrder.le left.ty right.ty) = [] := by simp
  obtain hsort | hsort := hsort
  all_goals
    simp only [mainResultWireValue, mainTypeTable, twoRecords, withRecordLayouts, withVariantLayouts,
      hsort, hnone, List.map_nil]
    rfl

/-- Two layouts of the type `A` number the types of their fields in the order they come in. -/
theorem recordLayouts_of_one_type :
    (withRecordLayouts someOrder ⟨[], [], [], []⟩ [⟨.named none "A" [], [⟨"x", .unit⟩]⟩,
        ⟨.named none "A" [], [⟨"x", .bool⟩]⟩]).toOption.bind (·.typeId .bool) = some ⟨2⟩ ∧
      (withRecordLayouts someOrder ⟨[], [], [], []⟩ [⟨.named none "A" [], [⟨"x", .bool⟩]⟩,
        ⟨.named none "A" [], [⟨"x", .unit⟩]⟩]).toOption.bind (·.typeId .bool) = some ⟨1⟩ := by
  have hle (ty : WireType) : someOrder.le ty ty = true := by simpa using someOrder.total ty ty
  have hsort (left right : List WireRecordFieldLayout) :
      [⟨.named none "A" [], left⟩, ⟨.named none "A" [], right⟩].mergeSort
        (fun left right => someOrder.le left.ty right.ty) =
      [WireRecordLayout.mk (.named none "A" []) left, ⟨.named none "A" [], right⟩] :=
    List.mergeSort_of_pairwise (by simp [hle])
  simp only [withRecordLayouts, hsort]
  decide

end RSScript.Provider
