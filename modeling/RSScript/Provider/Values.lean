import RSScript.Abi.Wire

/-!
# Values of the machine

The values registers hold, as the trees they unfold to: a managed cell is the
value in it, and a value that contains itself has no tree. The two
representations of a present option and the three of a list are one constructor
each.
-/

namespace RSScript.Provider

structure TypeLayout where
  name : String
  fieldNames : List String
  deriving DecidableEq, Repr

def TypeLayout.slot (layout : TypeLayout) (field : String) : Option Nat :=
  layout.fieldNames.findIdx? (· = field)

/-- The values of registers. -/
inductive VmValue where
  | unit
  | int (value : Int64)
  | float (bits : UInt64)
  | bool (value : Bool)
  | char (value : Char)
  | bytes (value : List UInt8)
  | string (text : String)
  | json (text : String)
  | list (values : List VmValue)
  | deque (values : List VmValue)
  | map (entries : List (VmValue × VmValue))
  | optionSome (value : VmValue)
  | optionNone
  | struct (layout : TypeLayout) (fields : List VmValue)
  | variant (layout : TypeLayout) (fields : List VmValue)
  | native (typeName : String) (id : Int64)
  | managed (value : VmValue)
  | closure (function : Nat) (captures : List VmValue)

namespace VmValue

/-! ## Snapshots -/

mutual

/-- The value without its managed cells; the keys of a map have none. -/
def snapshotKeyValue : VmValue → VmValue
  | .list values => .list (snapshotAll values)
  | .deque values => .deque (snapshotAll values)
  | .map entries => .map (snapshotEntries entries)
  | .optionSome value => .optionSome value.snapshotKeyValue
  | .struct layout fields => .struct layout (snapshotAll fields)
  | .variant layout fields => .variant layout (snapshotAll fields)
  | .managed value => value.snapshotKeyValue
  | .unit => .unit
  | .int value => .int value
  | .float bits => .float bits
  | .bool value => .bool value
  | .char value => .char value
  | .bytes value => .bytes value
  | .string text => .string text
  | .json text => .json text
  | .optionNone => .optionNone
  | .native typeName id => .native typeName id
  | .closure function captures => .closure function captures

def snapshotAll : List VmValue → List VmValue
  | [] => []
  | value :: values => value.snapshotKeyValue :: snapshotAll values

def snapshotEntries : List (VmValue × VmValue) → List (VmValue × VmValue)
  | [] => []
  | entry :: entries => snapshotEntry entry :: snapshotEntries entries

def snapshotEntry : VmValue × VmValue → VmValue × VmValue
  | (key, value) => (key, value.snapshotKeyValue)

end

/-! ## Equality -/

def isNan (bits : UInt64) : Bool := 0x7ff0000000000000 < bits &&& 0x7fffffffffffffff

def isZero (bits : UInt64) : Bool := bits &&& 0x7fffffffffffffff = 0

/-- Equality of floats: zero is its negative, and a NaN is nothing. -/
def floatsEqual (left right : UInt64) : Bool :=
  !isNan left && !isNan right && (left = right || (isZero left && isZero right))

/-- What the managed cells around a value hold. -/
def unmanaged : VmValue → VmValue
  | .managed value => value.unmanaged
  | value => value

mutual

/-- Equality of values. Closures are compared by identity, which a tree does not have. -/
def valuesEqual (left right : VmValue) : Bool :=
  match left, right.unmanaged with
  | .managed left, right => valuesEqual left right
  | .unit, .unit => true
  | .int left, .int right => left = right
  | .float left, .float right => floatsEqual left right
  | .bool left, .bool right => left = right
  | .char left, .char right => left = right
  | .bytes left, .bytes right => left = right
  | .string left, .string right => left = right
  | .json left, .json right => left = right
  | .optionSome left, .optionSome right => valuesEqual left right
  | .optionNone, .optionNone => true
  | .list left, .list right => allEqual left right
  | .deque left, .deque right => allEqual left right
  | .map left, .map right => left.length = right.length && entriesEqual left right
  | .struct left fields, .struct right others => left.name = right.name && allEqual fields others
  | .variant left fields, .variant right others => left.name = right.name && allEqual fields others
  | .native typeName id, .native otherName otherId => typeName = otherName && id = otherId
  | _, _ => false

def allEqual : List VmValue → List VmValue → Bool
  | [], [] => true
  | left :: lefts, right :: rights => valuesEqual left right && allEqual lefts rights
  | _, _ => false

def entriesEqual : List (VmValue × VmValue) → List (VmValue × VmValue) → Bool
  | [], _ => true
  | entry :: entries, others => entryEqual entry others && entriesEqual entries others

/-- The other map has an equal value under an equal key. -/
def entryEqual : VmValue × VmValue → List (VmValue × VmValue) → Bool
  | (key, value), others =>
    match others.find? fun other => valuesEqual key other.1 with
    | some other => valuesEqual value other.2
    | none => false

end

/-! ## Keys -/

/-- What one value costs as a part of a key. -/
def keyWork : VmValue → Nat
  | .string text => 1 + text.utf8ByteSize / 64
  | .bytes value => 1 + value.length / 64
  | _ => 1

mutual

/-- The work done when the value is found hashable, from the work before it. -/
def isHashable (value : VmValue) (depth work : Nat) : Option Nat :=
  let spent := work + value.keyWork
  if 256 < depth ∨ 1000000 < spent then none
  else
    match value with
    | .unit | .bool _ | .int _ | .char _ | .string _ | .bytes _ | .native _ _ | .optionNone =>
      some spent
    | .optionSome value | .managed value => isHashable value (depth + 1) spent
    | .list values | .deque values => allHashable values (depth + 1) spent
    | .struct _ fields | .variant _ fields => allHashable fields (depth + 1) spent
    | .float _ | .map _ | .json _ | .closure _ _ => none

def allHashable (values : List VmValue) (depth work : Nat) : Option Nat :=
  match values with
  | [] => some work
  | value :: values =>
    match isHashable value depth work with
    | some spent => allHashable values depth spent
    | none => none

end

/-- A value as a key, with the work of checking it. -/
def mapKeyFromValue (value : VmValue) : Option (VmValue × Nat) :=
  (value.isHashable 0 0).map fun work => (value.snapshotKeyValue, work)

/-- Put an entry into a map; an equal key keeps its place and gets the new value. -/
def insertEntry (key value : VmValue) : List (VmValue × VmValue) → List (VmValue × VmValue)
  | [] => [(key, value)]
  | entry :: entries =>
    if valuesEqual key entry.1 then (entry.1, value) :: entries
    else entry :: insertEntry key value entries

/-! ## What the machine builds -/

mutual

/-- Fields stand under their names, and the keys of a map are distinct and without cells. -/
def WellFormed : VmValue → Prop
  | .list values | .deque values | .closure _ values => AllWellFormed values
  | .map entries => EntriesWellFormed entries ∧
      entries.Pairwise fun first second => valuesEqual second.1 first.1 = false
  | .optionSome value | .managed value => value.WellFormed
  | .struct layout fields | .variant layout fields =>
      layout.fieldNames.length = fields.length ∧ AllWellFormed fields
  | _ => True

def AllWellFormed : List VmValue → Prop
  | [] => True
  | value :: values => value.WellFormed ∧ AllWellFormed values

def EntriesWellFormed : List (VmValue × VmValue) → Prop
  | [] => True
  | entry :: entries => EntryWellFormed entry ∧ EntriesWellFormed entries

def EntryWellFormed : VmValue × VmValue → Prop
  | (key, value) => key.WellFormed ∧ key.snapshotKeyValue = key ∧ value.WellFormed

end

variable {entries collected added : List (VmValue × VmValue)}

theorem insertEntry_of_new (hnew : ∀ entry ∈ entries, valuesEqual key entry.1 = false) :
    insertEntry key value entries = entries ++ [(key, value)] := by
  induction entries with
  | nil => rfl
  | cons entry entries ih =>
    obtain ⟨hfirst, hrest⟩ := List.forall_mem_cons.mp hnew
    simp [insertEntry, hfirst, ih hrest]

/-- A map that got longer got the entry at its end. -/
theorem insertEntry_cases (key value : VmValue) (entries : List (VmValue × VmValue)) :
    (insertEntry key value entries).length = entries.length ∨
      insertEntry key value entries = entries ++ [(key, value)] := by
  induction entries with
  | nil => exact .inr rfl
  | cons entry entries ih =>
    unfold insertEntry
    split
    · exact .inl rfl
    · rcases ih with hlength | happended
      · exact .inl (by simp [hlength])
      · exact .inr (by simp [happended])

theorem insertEntry_frozen (hvalue : value.snapshotKeyValue = value)
    (hentries : snapshotEntries entries = entries) :
    snapshotEntries (insertEntry key value entries) = insertEntry key value entries := by
  induction entries with
  | nil => simp [insertEntry, snapshotEntries, snapshotEntry, hvalue]
  | cons entry entries ih =>
    simp only [snapshotEntries, List.cons.injEq] at hentries
    unfold insertEntry
    split
    · simp [snapshotEntries, snapshotEntry, hvalue, hentries.2]
    · simp [snapshotEntries, hentries.1, ih hentries.2]

theorem snapshotEntries_eq :
    snapshotEntries entries = entries.map fun entry => (entry.1, entry.2.snapshotKeyValue) := by
  induction entries with
  | nil => rfl
  | cons entry entries ih =>
    obtain ⟨key, value⟩ := entry
    rw [snapshotEntries, ih, snapshotEntry, List.map_cons]

def insertAll (collected added : List (VmValue × VmValue)) : List (VmValue × VmValue) :=
  added.foldl (fun entries entry => insertEntry entry.1 entry.2 entries) collected

theorem insertAll_length_le (collected added : List (VmValue × VmValue)) :
    (insertAll collected added).length ≤ collected.length + added.length := by
  induction added generalizing collected with
  | nil => exact Nat.le_refl _
  | cons entry added ih =>
    have hrest := ih (insertEntry entry.1 entry.2 collected)
    show (insertAll (insertEntry entry.1 entry.2 collected) added).length ≤ _
    rcases insertEntry_cases entry.1 entry.2 collected with hlength | happended
    · rw [hlength] at hrest
      exact Nat.le_trans hrest (Nat.add_le_add_left (Nat.le_succ _) _)
    · rw [happended, List.length_append, List.length_singleton, Nat.add_assoc,
        Nat.add_comm 1] at hrest
      rwa [happended]

/-- Entries that are all counted were all appended. -/
theorem insertAll_of_length
    (hlength : (insertAll collected added).length = collected.length + added.length) :
    insertAll collected added = collected ++ added := by
  induction added generalizing collected with
  | nil => simp [insertAll]
  | cons entry added ih =>
    have hbound := insertAll_length_le (insertEntry entry.1 entry.2 collected) added
    change (insertAll (insertEntry entry.1 entry.2 collected) added).length = _ at hlength
    show insertAll (insertEntry entry.1 entry.2 collected) added = _
    rcases insertEntry_cases entry.1 entry.2 collected with hshort | happended
    · rw [hlength, List.length_cons] at hbound
      omega
    · rw [happended] at hlength ⊢
      rw [ih (by rw [hlength]; simp; omega)]
      simp

theorem insertAll_of_distinct
    (hnew : ∀ entry ∈ added, ∀ before ∈ collected, valuesEqual entry.1 before.1 = false)
    (hdistinct : added.Pairwise fun first second => valuesEqual second.1 first.1 = false) :
    insertAll collected added = collected ++ added := by
  induction added generalizing collected with
  | nil => simp [insertAll]
  | cons entry added ih =>
    obtain ⟨hfirst, hrest⟩ := List.pairwise_cons.mp hdistinct
    obtain ⟨hentry, hadded⟩ := List.forall_mem_cons.mp hnew
    show insertAll (insertEntry entry.1 entry.2 collected) added = _
    rw [insertEntry_of_new hentry, ih _ hrest]
    · simp
    · intro other hother before hbefore
      rcases List.mem_append.mp hbefore with hbefore | hbefore
      · exact hadded other hother before hbefore
      · rw [List.mem_singleton.mp hbefore]
        exact hfirst other hother

end VmValue

end RSScript.Provider
