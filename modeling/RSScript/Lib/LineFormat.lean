import Mathlib.Data.List.Basic
import Mathlib.Data.List.Forall2
import Mathlib.Data.String.Basic

/-!
# Texts made of closed fields

A record is often written as text by writing its fields one after the other,
each closed by a line end. Nothing in such a text says where a field that itself
holds line ends stops, or how many entries a list has, so the text alone does not
determine the record. It does once the *layout* is known: how many line ends each
field has, how long each list is, which optional parts are there.

`Format` packages a writer with its layout relation and the law that makes
composition work: two alike values are told apart whatever text follows them.

Nothing here knows about a particular record.
-/

namespace LineFormat

/-- A writer that separates values of one layout from each other and from the
text that follows. -/
structure Format (α : Type) where
  write : α → String
  Alike : α → α → Prop
  alike_refl : ∀ a, Alike a a
  separates : ∀ {a b : α} {rest rest' : String}, Alike a b →
    write a ++ rest = write b ++ rest' → a = b ∧ rest = rest'

/-! ## Cutting a text at a terminator -/

/-- How many line ends a text has. -/
def lineEnds (text : String) : Nat := text.toList.count '\n'

/-- Two parts with equally many terminators end at the same terminator. -/
theorem cut_of_count [DecidableEq α] (stop : α) (hcount : left.count stop = right.count stop)
    (h : left ++ stop :: rest = right ++ stop :: rest') : left = right ∧ rest = rest' := by
  induction left generalizing right with
  | nil =>
    cases right with
    | nil => exact ⟨rfl, by simpa using h⟩
    | cons b right =>
      obtain ⟨rfl, -⟩ : stop = b ∧ rest = right ++ stop :: rest' := by simpa using h
      exact absurd hcount (by simp)
  | cons a left ih =>
    cases right with
    | nil =>
      obtain ⟨rfl, -⟩ : a = stop ∧ left ++ stop :: rest = rest' := by simpa using h
      exact absurd hcount (by simp)
    | cons b right =>
      obtain ⟨rfl, htail⟩ : a = b ∧ left ++ stop :: rest = right ++ stop :: rest' := by
        simpa using h
      have hcount : left.count stop = right.count stop := by simpa [List.count_cons] using hcount
      obtain ⟨rfl, rfl⟩ := ih hcount htail
      exact ⟨rfl, rfl⟩

theorem cut_line (hlines : lineEnds left = lineEnds right)
    (h : left ++ "\n" ++ rest = right ++ "\n" ++ rest') : left = right ∧ rest = rest' := by
  have htext := congrArg String.toList h
  obtain ⟨hleft, hrest⟩ := cut_of_count '\n' hlines (by simpa using htext)
  exact ⟨String.toList_inj.mp hleft, String.toList_inj.mp hrest⟩

/-! ## Numbers

A decimal number holds no terminator at all, so it needs no layout. -/

theorem count_repr (hstop : stop.isDigit = false) (n : Nat) : n.repr.toList.count stop = 0 := by
  rw [List.count_eq_zero]
  intro hmem
  have hdigit : stop.isDigit = true := by
    apply Nat.isDigit_of_mem_toDigits (by decide) (by decide) (n := n) (b := 10)
    simpa [Nat.repr] using hmem
  rw [hstop] at hdigit
  exact absurd hdigit (by decide)

theorem repr_toList_injective {m n : Nat} (h : m.repr.toList = n.repr.toList) : m = n := by
  have hdigits : Nat.toDigits 10 m = Nat.toDigits 10 n := by simpa [Nat.repr] using h
  have hvalue := congrArg (Nat.ofDigitChars 10 · 0) hdigits
  simpa [Nat.ofDigitChars_toDigits] using hvalue

/-- Two numbers closed by a character that is no digit. -/
theorem cut_number (hstop : stop.isDigit = false) {m n : Nat}
    (h : m.repr.toList ++ stop :: rest = n.repr.toList ++ stop :: rest') :
    m = n ∧ rest = rest' := by
  have hcount : m.repr.toList.count stop = n.repr.toList.count stop := by
    rw [count_repr hstop, count_repr hstop]
  obtain ⟨hnumbers, hrest⟩ := cut_of_count stop hcount h
  exact ⟨repr_toList_injective hnumbers, hrest⟩

/-- Numbers joined by colons on one line. -/
def writeNumbers : List Nat → String
  | [] => "\n"
  | [n] => n.repr ++ "\n"
  | n :: m :: rest => n.repr ++ ":" ++ writeNumbers (m :: rest)

theorem cut_numbers (hlength : left.length = right.length) {rest rest' : String}
    (h : writeNumbers left ++ rest = writeNumbers right ++ rest') :
    left = right ∧ rest = rest' := by
  induction left using writeNumbers.induct generalizing right with
  | case1 =>
    obtain rfl : right = [] := List.eq_nil_of_length_eq_zero hlength.symm
    have htext := congrArg String.toList h
    exact ⟨rfl, String.toList_inj.mp (by simpa [writeNumbers] using htext)⟩
  | case2 n =>
    obtain ⟨m, rfl⟩ := List.length_eq_one_iff.mp hlength.symm
    have htext := congrArg String.toList h
    have hline : n.repr.toList ++ '\n' :: rest.toList = m.repr.toList ++ '\n' :: rest'.toList := by
      simpa [writeNumbers] using htext
    obtain ⟨rfl, hrest⟩ := cut_number (by decide) hline
    exact ⟨rfl, String.toList_inj.mp hrest⟩
  | case3 n m tail ih =>
    match right, hlength with
    | n' :: m' :: tail', hlength =>
      have htext := congrArg String.toList h
      have hline : n.repr.toList ++ ':' :: ((writeNumbers (m :: tail)).toList ++ rest.toList)
          = n'.repr.toList ++ ':' :: ((writeNumbers (m' :: tail')).toList ++ rest'.toList) := by
        simpa [writeNumbers] using htext
      obtain ⟨rfl, htail⟩ := cut_number (by decide) hline
      rw [← String.toList_append, ← String.toList_append, String.toList_inj] at htail
      obtain ⟨htail, hrest⟩ := ih (by simpa using hlength) htail
      exact ⟨by rw [htail], hrest⟩

/-! ## Formats -/

namespace Format

variable {α β : Type}

/-- One field closed by a line end. -/
def line : Format String where
  write text := text ++ "\n"
  Alike left right := lineEnds left = lineEnds right
  alike_refl _ := rfl
  separates hlines h := cut_line hlines h

/-- A fixed piece of text. -/
def literal (text : String) : Format Unit where
  write _ := text
  Alike _ _ := True
  alike_refl _ := trivial
  separates _ h := ⟨rfl, String.append_right_inj _ |>.mp h⟩

/-- One value after another. -/
def both (first : Format α) (second : Format β) : Format (α × β) where
  write pair := first.write pair.1 ++ second.write pair.2
  Alike left right := first.Alike left.1 right.1 ∧ second.Alike left.2 right.2
  alike_refl pair := ⟨first.alike_refl pair.1, second.alike_refl pair.2⟩
  separates := by
    rintro ⟨a, b⟩ ⟨a', b'⟩ rest rest' ⟨hfirst, hsecond⟩ h
    simp only [String.append_assoc] at h
    obtain ⟨rfl, hsuffix⟩ := first.separates hfirst h
    obtain ⟨rfl, hrest⟩ := second.separates hsecond hsuffix
    exact ⟨rfl, hrest⟩

/-- The entries of a list, with nothing to mark its end. -/
def writeAll (entry : Format α) : List α → String
  | [] => ""
  | a :: rest => entry.write a ++ writeAll entry rest

def many (entry : Format α) : Format (List α) where
  write := writeAll entry
  Alike := List.Forall₂ entry.Alike
  alike_refl entries := List.forall₂_same.mpr fun a _ => entry.alike_refl a
  separates := by
    intro left right rest rest' halike h
    induction halike with
    | nil => exact ⟨rfl, by simpa [writeAll] using h⟩
    | cons hentry _ ih =>
      simp only [writeAll, String.append_assoc] at h
      obtain ⟨rfl, hsuffix⟩ := entry.separates hentry h
      obtain ⟨rfl, hrest⟩ := ih hsuffix
      exact ⟨rfl, hrest⟩

/-- An optional field that is written as an empty line when it is absent. -/
def optionalLine : Format (Option String) where
  write text := text.getD "" ++ "\n"
  Alike left right :=
    left.isSome = right.isSome ∧ lineEnds (left.getD "") = lineEnds (right.getD "")
  alike_refl _ := ⟨rfl, rfl⟩
  separates := by
    rintro left right rest rest' ⟨hsome, hlines⟩ h
    obtain ⟨htext, hrest⟩ := cut_line hlines h
    cases left <;> cases right <;> simp_all

/-- A part that is written only when it is present. -/
def present (part : Format α) : Format (Option α) where
  write
    | none => ""
    | some a => part.write a
  Alike
    | none, none => True
    | some a, some b => part.Alike a b
    | _, _ => False
  alike_refl
    | none => trivial
    | some a => part.alike_refl a
  separates := by
    intro left right rest rest' halike h
    match left, right, halike with
    | none, none, _ => exact ⟨rfl, by simpa using h⟩
    | some a, some b, halike =>
      obtain ⟨rfl, hrest⟩ := part.separates halike h
      exact ⟨rfl, hrest⟩

/-- Numbers joined by colons on one line. -/
def numbers : Format (List Nat) where
  write := writeNumbers
  Alike left right := left.length = right.length
  alike_refl _ := rfl
  separates hlength h := cut_numbers hlength h

/-- Write a value by what is recorded of it. -/
def via (format : Format β) (record : α → β) (hrecord : Function.Injective record) :
    Format α where
  write a := format.write (record a)
  Alike left right := format.Alike (record left) (record right)
  alike_refl a := format.alike_refl (record a)
  separates halike h :=
    have hparts := format.separates halike h
    ⟨hrecord hparts.1, hparts.2⟩

/-- Two alike values written as the same text are the same. -/
theorem write_injective_of_alike (format : Format α) (halike : format.Alike a b)
    (h : format.write a = format.write b) : a = b :=
  have hwhole : format.write a ++ "" = format.write b ++ "" := by rw [h]
  (format.separates halike hwhole).1

end Format

end LineFormat
