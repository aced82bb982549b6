import Mathlib.Data.List.Sort
import Mathlib.Order.Basic

/-!
# Maps as sorted association lists

An ordered map is the list of its entries in increasing key order. Two such
lists with the same entries are the same list, so equality of maps is equality
of lists and a map built by insertions does not remember their order.
-/

namespace SortedMap

open List

variable {κ α : Type} [LinearOrder κ]

/-- The keys increase strictly, hence are distinct. -/
def Sorted (entries : List (κ × α)) : Prop :=
  entries.Pairwise fun left right => left.1 < right.1

/-- Insert an entry at its place; an entry with the same key is replaced. -/
def insert (key : κ) (value : α) : List (κ × α) → List (κ × α)
  | [] => [(key, value)]
  | entry :: entries =>
    if key < entry.1 then (key, value) :: entry :: entries
    else if key = entry.1 then (key, value) :: entries
    else entry :: insert key value entries

/-- The value stored under a key. -/
def get (key : κ) : List (κ × α) → Option α
  | [] => none
  | entry :: entries => if entry.1 = key then some entry.2 else get key entries

variable {entries added : List (κ × α)}

attribute [local simp] get insert

theorem get_eq_none_iff : get key entries = none ↔ key ∉ entries.map Prod.fst := by
  induction entries with
  | nil => simp
  | cons entry entries ih =>
    by_cases h : entry.1 = key
    · simp [h]
    · simp [h, ih, Ne.symm h]

theorem get_mem (h : get key entries = some value) : (key, value) ∈ entries := by
  induction entries with
  | nil => simp at h
  | cons entry entries ih =>
    by_cases hk : entry.1 = key
    · simp only [get, if_pos hk, Option.some.injEq] at h
      subst hk h
      exact mem_cons_self
    · simp only [get, if_neg hk] at h
      exact mem_cons_of_mem _ (ih h)

@[simp] theorem get_insert_self : get key (insert key value entries) = some value := by
  induction entries with
  | nil => simp
  | cons entry entries ih =>
    unfold insert
    split
    · simp
    · split
      · simp
      · rename_i hne
        simp [Ne.symm hne, ih]

theorem get_insert_of_ne (h : other ≠ key) :
    get other (insert key value entries) = get other entries := by
  induction entries with
  | nil => simp [h.symm]
  | cons entry entries ih =>
    unfold insert
    split
    · simp [h.symm]
    · split
      · rename_i heq
        simp [h.symm, ← heq]
      · simp [ih]

theorem get_insert :
    get other (insert key value entries) = if other = key then some value else get other entries := by
  split
  · rename_i h
    rw [h, get_insert_self]
  · rename_i h
    rw [get_insert_of_ne h]

@[simp] theorem insert_insert :
    insert key second (insert key first entries) = insert key second entries := by
  induction entries with
  | nil => simp
  | cons entry entries ih =>
    by_cases hlt : key < entry.1
    · simp [hlt]
    · by_cases heq : key = entry.1
      · simp [heq]
      · simp [hlt, heq, ih]

/-- What is left without the entries of one key. -/
theorem get_filter_ne : get other (entries.filter fun entry => entry.1 ≠ key) =
      if other = key then none else get other entries := by
  induction entries with
  | nil => simp
  | cons entry entries ih =>
    by_cases hkey : entry.1 = key
    · rw [filter_cons_of_neg (by simpa using hkey), ih]
      by_cases hother : other = key
      · simp [hother]
      · simp [hother, hkey, Ne.symm hother]
    · rw [filter_cons_of_pos (by simpa using hkey)]
      by_cases hother : entry.1 = other
      · subst hother
        simp [hkey]
      · rw [get, if_neg hother, ih, get, if_neg hother]

/-- Inserting a fresh key adds its entry and nothing else. -/
theorem insert_perm (h : key ∉ entries.map Prod.fst) :
    (insert key value entries).Perm ((key, value) :: entries) := by
  induction entries with
  | nil => exact Perm.refl _
  | cons entry entries ih =>
    obtain ⟨hne, htail⟩ : ¬key = entry.1 ∧ key ∉ entries.map Prod.fst := by simpa using h
    simp only [insert, if_neg hne]
    split
    · exact Perm.refl _
    · exact ((ih htail).cons entry).trans (Perm.swap _ _ _)

theorem mem_insert (h : entry ∈ insert key value entries) :
    entry = (key, value) ∨ entry ∈ entries := by
  induction entries with
  | nil => exact .inl (by simpa using h)
  | cons first entries ih =>
    unfold insert at h
    split at h
    · exact mem_cons.mp h
    · split at h
      · exact (mem_cons.mp h).imp_right (mem_cons_of_mem _)
      · rcases mem_cons.mp h with rfl | h
        · exact .inr mem_cons_self
        · exact (ih h).imp_right (mem_cons_of_mem _)

theorem insert_sorted (hs : Sorted entries) : Sorted (insert key value entries) := by
  induction entries with
  | nil => simp [Sorted]
  | cons entry entries ih =>
    obtain ⟨hhead, hrest⟩ := pairwise_cons.mp hs
    unfold insert
    split
    case isTrue hlt =>
      refine pairwise_cons.mpr ⟨?_, hs⟩
      intro other hmem
      rcases mem_cons.mp hmem with rfl | hmem
      · exact hlt
      · exact lt_trans hlt (hhead other hmem)
    case isFalse hlt =>
      split
      case isTrue heq => exact pairwise_cons.mpr ⟨fun other hmem => heq ▸ hhead other hmem, hrest⟩
      case isFalse hne =>
        refine pairwise_cons.mpr ⟨?_, ih hrest⟩
        intro other hmem
        rcases mem_insert hmem with rfl | hmem
        · exact lt_of_le_of_ne (not_lt.mp hlt) (Ne.symm hne)
        · exact hhead other hmem

/-- Sorted lists with the same entries are equal. -/
theorem Sorted.eq_of_perm {left right : List (κ × α)} (hl : Sorted left) (hr : Sorted right)
    (h : left.Perm right) : left = right :=
  h.eq_of_pairwise (fun _ _ _ _ hab hba => absurd (hab.trans hba) (lt_irrefl _)) hl hr

theorem map_get_zip {keys : List κ} (hnodup : keys.Nodup) (hlength : keys.length = values.length) :
    keys.map (fun key => get key (keys.zip values)) = values.map some := by
  induction keys generalizing values with
  | nil => rw [eq_nil_of_length_eq_zero hlength.symm]; rfl
  | cons key keys ih =>
    obtain ⟨value, values, rfl⟩ := exists_cons_of_length_eq_add_one hlength.symm
    rw [nodup_cons] at hnodup
    rw [map_cons, map_cons, ← ih hnodup.2 (Nat.succ.inj hlength)]
    refine congrArg₂ _ (by simp) (map_congr_left fun other hmem => ?_)
    have hne : key ≠ other := fun heq => hnodup.1 (heq ▸ hmem)
    simp [hne]

/-- Insert entries one after the other. -/
def insertAll (entries added : List (κ × α)) : List (κ × α) :=
  added.foldl (fun entries entry => insert entry.1 entry.2 entries) entries

theorem insertAll_sorted (hs : Sorted entries) : Sorted (insertAll entries added) := by
  induction added generalizing entries with
  | nil => exact hs
  | cons entry added ih => exact ih (insert_sorted hs)

/-- Entries with fresh keys are added, and nothing else. -/
theorem insertAll_perm (entries : List (κ × α))
    (hfresh : ∀ entry ∈ added, entry.1 ∉ entries.map Prod.fst)
    (hnodup : (added.map Prod.fst).Nodup) : (insertAll entries added).Perm (added ++ entries) := by
  induction added generalizing entries with
  | nil => exact Perm.refl _
  | cons entry added ih =>
    obtain ⟨hnew, hfresh⟩ := forall_mem_cons.mp hfresh
    obtain ⟨hnotin, hnodup⟩ := nodup_cons.mp hnodup
    have hperm : (insert entry.1 entry.2 entries).Perm (entry :: entries) := insert_perm hnew
    have hfresh' : ∀ other ∈ added, other.1 ∉ (insert entry.1 entry.2 entries).map Prod.fst := by
      intro other hmem hin
      rcases mem_cons.mp ((hperm.map Prod.fst).mem_iff.mp hin) with heq | hin
      · exact hnotin (heq ▸ mem_map_of_mem hmem)
      · exact hfresh other hmem hin
    exact (ih _ hfresh' hnodup).trans ((hperm.append_left added).trans perm_middle)

theorem Sorted.nodup_keys (h : Sorted entries) : (entries.map Prod.fst).Nodup := by
  rw [Nodup, pairwise_map]
  exact h.imp fun hlt => ne_of_lt hlt

theorem Sorted.mem_iff_get (hs : Sorted entries) :
    (key, value) ∈ entries ↔ get key entries = some value := by
  refine ⟨fun hmem => ?_, get_mem⟩
  cases h : get key entries with
  | none => exact absurd (mem_map_of_mem hmem) (get_eq_none_iff.mp h)
  | some other =>
    have heq := inj_on_of_nodup_map hs.nodup_keys hmem (get_mem h) rfl
    rw [(Prod.mk.inj heq).2]

/-- What inserting leaves under a key was inserted under it or was there before. -/
theorem get_insertAll (h : get key (insertAll entries added) = some value) :
    (key, value) ∈ added ∨ get key entries = some value := by
  induction added generalizing entries with
  | nil => exact .inr h
  | cons entry added ih =>
    obtain hmem | hget := ih h
    · exact .inl (mem_cons_of_mem _ hmem)
    · rw [get_insert] at hget
      split at hget
      next heq =>
        cases hget
        exact .inl (by rw [heq]; exact mem_cons_self)
      next => exact .inr hget

theorem get_insertAll_ne_none (h : key ∈ added.map Prod.fst ∨ get key entries ≠ none) :
    get key (insertAll entries added) ≠ none := by
  induction added generalizing entries with
  | nil => exact h.resolve_left (by simp)
  | cons entry added ih =>
    refine ih ?_
    simp only [map_cons, mem_cons, get_insert] at h ⊢
    grind

/-- A map is rebuilt from its entries, in whatever order they come. -/
theorem insertAll_eq_of_perm (hs : Sorted entries) (h : added.Perm entries) :
    insertAll [] added = entries := by
  have hnodup : (added.map Prod.fst).Nodup := (h.map Prod.fst).nodup_iff.mpr hs.nodup_keys
  have hperm := insertAll_perm [] (by simp) hnodup
  rw [append_nil] at hperm
  exact (insertAll_sorted Pairwise.nil).eq_of_perm hs (hperm.trans h)

/-! ## Entries as a multiset -/

theorem filter_ne_of_lt (h : ∀ entry ∈ entries, key < entry.1) :
    (entries.filter fun entry => entry.1 ≠ key) = entries := by
  apply filter_eq_self.mpr
  intro entry hmem
  simpa using (h entry hmem).ne'

/-- A map is an entry and the rest of it. -/
theorem Sorted.perm_cons_filter (hs : Sorted entries) (h : get key entries = some value) :
    entries.Perm ((key, value) :: entries.filter fun entry => entry.1 ≠ key) := by
  induction entries with
  | nil => cases h
  | cons entry entries ih =>
    obtain ⟨hhead, hrest⟩ := pairwise_cons.mp hs
    by_cases hkey : entry.1 = key
    · obtain rfl : entry.2 = value := by simpa [hkey] using h
      subst hkey
      rw [filter_cons_of_neg (by simp), filter_ne_of_lt hhead]
    · rw [filter_cons_of_pos (by simpa using hkey)]
      have hfound : get key entries = some value := by simpa [hkey] using h
      exact ((ih hrest hfound).cons entry).trans (Perm.swap _ _ _)

/-- An insertion is the new entry and what the map holds under other keys. -/
theorem Sorted.insert_perm_filter (hs : Sorted entries) : (insert key value entries).Perm
      ((key, value) :: entries.filter fun entry => entry.1 ≠ key) := by
  have hsorted : Sorted (insert key value entries) := insert_sorted hs
  have hfilter : ((insert key value entries).filter fun entry => entry.1 ≠ key) =
      entries.filter fun entry => entry.1 ≠ key := by
    clear hsorted hs
    induction entries with
    | nil => simp
    | cons entry entries ih =>
      unfold insert
      split
      · simp
      · split
        · rename_i heq
          simp [heq]
        · rw [filter_cons, ih, filter_cons]
  have hperm := hsorted.perm_cons_filter get_insert_self
  rwa [hfilter] at hperm

end SortedMap
