import Mathlib.Algebra.Ring.Nat
import Mathlib.Data.List.Basic
import Mathlib.Data.List.Find

/-!
# Closing what a source left open

For a source that ends with open delimiters `parse_source_prefix` offers the missing closers as a
suffix. The suffix is read as meant unless the source ends in a line comment, which swallows it
(`recovery_closes_iff`).

The scan here is the surface scan alone. Neither the lexer nor the parser is modelled, so nothing
is said about whether the completed source parses, or about the other recoveries offered for a
partial literal.
-/

namespace RSScript.Syntax.Prefix

inductive Delimiter where
  | paren
  | bracket
  | brace
  deriving DecidableEq, Repr

namespace Delimiter

def fromOpen : Char → Option Delimiter
  | '(' => some .paren
  | '[' => some .bracket
  | '{' => some .brace
  | _ => none

def expectedClose : Delimiter → Char
  | .paren => ')'
  | .bracket => ']'
  | .brace => '}'

end Delimiter

inductive LiteralKind where
  | string
  | multilineString
  | interpolatedString
  | char
  deriving DecidableEq, Repr

/-- The open delimiters stand innermost first, and ranges count bytes. -/
structure SurfaceScan where
  deadRange : Option (Nat × Nat) := none
  partialLiteral : Option (LiteralKind × Nat × Nat) := none
  unclosed : List Delimiter
  deriving DecidableEq, Repr

/-! ## Literals -/

/-- How long a literal is, read character by character with one character ahead. -/
def lengthUntil {σ : Type} (ends : σ → Char → Bool) (next : σ → Char → Option Char → Option σ) :
    σ → List Char → Option Nat
  | _, [] => none
  | state, ch :: rest =>
    if ends state ch then some 1
    else do return (← lengthUntil ends next (← next state ch rest.head?) rest) + 1

/-- Where the content of an interpolated string is: how many braces are open, whether inside a
string, and whether the next character is passed over. -/
structure Content where
  depth : Nat := 0
  inString : Bool := false
  skip : Bool := false

def Content.next (content : Content) (ch : Char) (ahead : Option Char) : Content :=
  if content.skip then { content with skip := false }
  else if ch = '\\' then { content with skip := true }
  else if content.inString then { content with inString := ch ≠ '"' }
  else if ch = '"' then { content with inString := true }
  else if (ch = '{' ∨ ch = '}') ∧ content.depth = 0 ∧ ahead = some ch then
    { content with skip := true }
  else if ch = '{' then { content with depth := content.depth + 1 }
  else if ch = '}' then { content with depth := content.depth - 1 }
  else content

def interpolatedContentLength : List Char → Option Nat :=
  lengthUntil (fun (content : Content) ch =>
      !content.skip && !content.inString && ch = '"' && content.depth = 0)
    (fun content ch ahead => some (content.next ch ahead)) {}

/-- `quoted_end`, behind the opening quote; the state says whether the last character escapes. -/
def quotedLength (quote : Char) (allowNewline : Bool) : List Char → Option Nat :=
  lengthUntil (fun escaped ch => !escaped && ch = quote)
    (fun escaped ch _ =>
      if !escaped && !allowNewline && ch = '\n' then none else some (!escaped && ch = '\\')) false

/-- Up to and with three quotes; the state counts the last ones. -/
def multilineLength : List Char → Option Nat :=
  lengthUntil (fun quotes ch => quotes = 2 && ch = '"')
    (fun quotes ch _ => some (if ch = '"' then quotes + 1 else 0)) 0

structure LiteralForm where
  kind : LiteralKind
  opening : List Char
  /-- The length of the rest, if it ends. -/
  length : List Char → Option Nat

def literalForms : List LiteralForm :=
  [⟨.multilineString, ['"', '"', '"'], multilineLength⟩,
    ⟨.interpolatedString, ['$', '"'], interpolatedContentLength⟩,
    ⟨.string, ['"'], quotedLength '"' true⟩, ⟨.char, ['\''], quotedLength '\'' false⟩]

/-- The literal that begins here, with its length if it ends. -/
def literal (rest : List Char) : Option (LiteralKind × Option Nat) :=
  (literalForms.find? (·.opening.isPrefixOf rest)).map fun form =>
    (form.kind, (form.length (rest.drop form.opening.length)).map (· + form.opening.length))

/-! ## The scan -/

/-- `char::is_whitespace` -/
def isWhitespace (ch : Char) : Bool :=
  ch.val ∈ [0x20, 0x85, 0xa0, 0x1680, 0x2028, 0x2029, 0x202f, 0x205f, 0x3000] ||
    (9 ≤ ch.val && ch.val ≤ 13) || (0x2000 ≤ ch.val && ch.val ≤ 0x200a)

def isLexicalCharacter (ch : Char) : Bool :=
  isWhitespace ch || ch = '_' || ch.isAlphanum || ch ∈ ":,.<>?|&~^+-*/%=!;#".toList

def utf8Len (chars : List Char) : Nat := (chars.map Char.utf8Size).sum

/-- The loop of `scan_surface`. It passes over comments and literals, `skip` characters at once. -/
def scanFrom (index : Nat) (unclosed : List Delimiter) : Nat → List Char → SurfaceScan
  | _, [] => { unclosed }
  | skip + 1, ch :: rest => scanFrom (index + ch.utf8Size) unclosed skip rest
  | 0, ch :: rest =>
    if ['/', '/'].isPrefixOf (ch :: rest) then
      scanFrom (index + ch.utf8Size) unclosed (rest.idxOf '\n') rest
    else
      match literal (ch :: rest) with
      | some (_, some length) => scanFrom (index + ch.utf8Size) unclosed (length - 1) rest
      | some (kind, none) =>
        { partialLiteral := some (kind, index, index + utf8Len (ch :: rest)), unclosed }
      | none =>
        match Delimiter.fromOpen ch with
        | some delimiter => scanFrom (index + ch.utf8Size) (delimiter :: unclosed) 0 rest
        | none =>
          if ch ∈ [')', ']', '}'] then
            if unclosed.head?.map Delimiter.expectedClose = some ch then
              scanFrom (index + ch.utf8Size) unclosed.tail 0 rest
            else { deadRange := some (index, index + ch.utf8Size), unclosed }
          else if isLexicalCharacter ch then scanFrom (index + ch.utf8Size) unclosed 0 rest
          else { deadRange := some (index, index + ch.utf8Size), unclosed }

/-- The surface of a whole source. -/
def scanSurface (source : List Char) : SurfaceScan := scanFrom 0 [] 0 source

/-- The closers of what is open, innermost first. -/
def surfaceRecoverySuffix (surface : SurfaceScan) : List Char :=
  surface.unclosed.map Delimiter.expectedClose

inductive ParserExpectationSite where
  | topLevel
  | functionHeader
  | unknown
  deriving DecidableEq, Repr

/-- What the lexer and the parser say of a source. -/
structure ParserFacts where
  hasRetiredTopLevelDeclaration : Bool
  programHasRecoveryMarker : Bool
  oracle : Option ParserExpectationSite

/-- The suffix that `parse_source_prefix` builds from the open delimiters, where it offers one. -/
def delimiterRecovery (facts : ParserFacts) (source : List Char) : Option (List Char) :=
  let surface := scanSurface source
  if surface.deadRange.isSome || surface.partialLiteral.isSome then none
  else if facts.hasRetiredTopLevelDeclaration then none
  else
    match surface.unclosed with
    -- nothing is open: a dead start, the parser's own terminals or a complete source
    | [] => none
    | close :: _ =>
      if close ≠ .paren ∨ facts.oracle = some .unknown ∨ facts.oracle = some .topLevel then
        some (surfaceRecoverySuffix surface)
      -- the parser's terminals come first here
      else if facts.oracle.isSome ∧ (facts.programHasRecoveryMarker ∨ source = [] ∨
          facts.oracle ≠ some .topLevel) then none
      else some (surfaceRecoverySuffix surface)

/-- Whether a comment that begins outside of literals runs to the end. -/
def endsInComment : Nat → List Char → Bool
  | _, [] => false
  | skip + 1, _ :: rest => endsInComment skip rest
  | 0, ch :: rest =>
    if ['/', '/'].isPrefixOf (ch :: rest) then
      '\n' ∉ rest || endsInComment (rest.idxOf '\n') rest
    else
      match literal (ch :: rest) with
      | some (_, some length) => endsInComment (length - 1) rest
      | _ => endsInComment 0 rest

theorem lengthUntil_append (h : lengthUntil ends next state rest = some length) (more : List Char) :
    length ≤ rest.length ∧ lengthUntil ends next state (rest ++ more) = some length := by
  induction rest generalizing state length with
  | nil => simp [lengthUntil] at h
  | cons ch rest ih =>
    rw [lengthUntil] at h
    rw [List.cons_append, lengthUntil]
    split at h
    · rename_i hends
      obtain rfl := Option.some.inj h
      simp [hends]
    · rename_i hends
      obtain ⟨state', hnext, h⟩ := Option.bind_eq_some_iff.mp h
      obtain ⟨length, hlength, h⟩ := Option.bind_eq_some_iff.mp h
      obtain rfl := Option.some.inj h
      obtain ⟨hle, hrest⟩ := ih hlength
      have hahead : (rest ++ more).head? = rest.head? := by
        cases rest with
        | nil => simp [lengthUntil] at hlength
        | cons ahead rest => rfl
      simp [hends, hahead, hnext, hrest, hle]

section Append

variable {closers : List Char} (hclosers : ∀ ch ∈ closers, ch ∈ [')', ']', '}'])

include hclosers

/-- What begins a comment or a literal does not begin in the closers. -/
theorem isPrefixOf_append {start : List Char} (hstart : ∀ ch ∈ start, ch ∉ [')', ']', '}'])
    (rest : List Char) : start.isPrefixOf (rest ++ closers) = start.isPrefixOf rest := by
  induction start generalizing rest with
  | nil => simp
  | cons ch start ih =>
    obtain ⟨hch, hstart⟩ := List.forall_mem_cons.mp hstart
    cases rest with
    | nil =>
      cases closers with
      | nil => rfl
      | cons closer closers =>
        have hne : ch ≠ closer := fun heq => hch (heq ▸ hclosers closer List.mem_cons_self)
        simp [List.isPrefixOf, hne]
    | cons next rest => simp [List.isPrefixOf, ih hstart]

/-- A literal that ends is read the same in front of the closers. -/
theorem literal_append (rest : List Char) (h : ∀ kind, literal rest ≠ some (kind, none)) :
    literal (rest ++ closers) = literal rest ∧
      ∀ kind length, literal rest = some (kind, some length) → length ≤ rest.length := by
  have hopening : ∀ form ∈ literalForms, form.opening.isPrefixOf (rest ++ closers) =
      form.opening.isPrefixOf rest := fun form hform =>
    isPrefixOf_append hclosers (by revert form; simp [literalForms]) rest
  have hlength : ∀ form ∈ literalForms, ∀ {rest count}, form.length rest = some count →
      count ≤ rest.length ∧ form.length (rest ++ closers) = some count := by
    simp only [literalForms, List.forall_mem_cons]
    refine ⟨?_, ?_, ?_, ?_, by simp⟩ <;> exact (lengthUntil_append · closers)
  unfold literal at h ⊢
  rw [List.find?_congr hopening]
  cases hform : literalForms.find? (·.opening.isPrefixOf rest) with
  | none => simp
  | some form =>
    have hopens := List.find?_some hform
    obtain ⟨tail, rfl⟩ := List.isPrefixOf_iff_prefix.mp hopens
    rw [hform] at h
    simp only [List.append_assoc, List.drop_left, Option.map_some] at h ⊢
    cases hcount : form.length tail with
    | none => exact absurd (by rw [hcount]; rfl) (h form.kind)
    | some count =>
      obtain ⟨hle, happend⟩ := hlength form (List.mem_of_find?_eq_some hform) hcount
      simp [happend, Nat.add_comm, hle]

omit hclosers in
/-- A line that runs to the end takes what comes after it along. -/
theorem scanFrom_skip (h : rest.length ≤ skip) :
    scanFrom index unclosed skip rest = { unclosed } := by
  induction rest generalizing index skip with
  | nil => simp [scanFrom]
  | cons ch rest ih =>
    cases skip with
    | zero => simp at h
    | succ skip => exact ih (Nat.le_of_succ_le_succ h)

theorem scanFrom_append (hskip : skip ≤ rest.length)
    (hdead : (scanFrom index unclosed skip rest).deadRange = none)
    (hwhole : (scanFrom index unclosed skip rest).partialLiteral = none) :
    scanFrom index unclosed skip (rest ++ closers) =
      if endsInComment skip rest then scanFrom index unclosed skip rest
      else scanFrom (index + utf8Len rest) (scanFrom index unclosed skip rest).unclosed 0
        closers := by
  have hcomment (ch rest) : ['/', '/'].isPrefixOf (ch :: (rest ++ closers)) =
      ['/', '/'].isPrefixOf (ch :: rest) := isPrefixOf_append hclosers (by simp) (ch :: rest)
  have hnone (ch rest) (h : literal (ch :: rest) = none) :
      literal (ch :: (rest ++ closers)) = none := by
    simpa [h] using literal_append hclosers (ch :: rest)
  have hlen (ch rest) : utf8Len (ch :: rest) = ch.utf8Size + utf8Len rest := by simp [utf8Len]
  fun_induction scanFrom index unclosed skip rest
  case case1 =>
    obtain rfl := Nat.le_zero.mp hskip
    simp [endsInComment, utf8Len]
  case case2 ih =>
    simpa [scanFrom, endsInComment, hlen, Nat.add_assoc] using
      ih (Nat.le_of_succ_le_succ hskip) hdead hwhole
  case case3 index unclosed ch rest hslash ih =>
    simp only [List.cons_append, scanFrom, hcomment, hslash, endsInComment, if_true, hlen,
      ← Nat.add_assoc]
    by_cases hbreak : '\n' ∈ rest
    · simpa [List.idxOf_append_of_mem hbreak, hbreak] using ih List.idxOf_le_length hdead hwhole
    · -- the comment swallows the closers too
      have hall : '\n' ∉ rest ++ closers := by
        rw [List.mem_append, not_or]
        exact ⟨hbreak, fun hmem => absurd (hclosers _ hmem) (by decide)⟩
      simp [scanFrom_skip, hbreak, List.idxOf_of_notMem hall]
  case case4 hslash kind length hliteral ih =>
    obtain ⟨heq, hle⟩ := literal_append hclosers (_ :: _) fun kind => by rw [hliteral]; simp
    have hle := hle _ _ hliteral
    simp only [List.cons_append, hliteral] at heq
    simpa [scanFrom, endsInComment, hcomment, hslash, heq, hliteral, hlen, Nat.add_assoc] using
      ih (by simp at hle; omega) hdead hwhole
  case case5 => simp at hwhole
  case case6 | case7 | case9 =>
    simp_all [scanFrom, endsInComment, Nat.add_assoc, -List.isPrefixOf_iff_prefix]
  case case8 | case10 => simp at hdead

end Append

theorem scanFrom_closers :
    scanFrom index unclosed 0 (unclosed.map Delimiter.expectedClose) = { unclosed := [] } := by
  induction unclosed generalizing index with
  | nil => simp [scanFrom]
  | cons delimiter unclosed ih =>
    cases delimiter <;>
      simp [scanFrom, literal, literalForms, List.isPrefixOf, Delimiter.expectedClose,
        Delimiter.fromOpen, ih]

/-- What is offered closes all that is open, exactly where no comment swallows it. -/
theorem recovery_closes_iff (facts : ParserFacts) (source suffix : List Char)
    (h : delimiterRecovery facts source = some suffix) :
    ((scanSurface (source ++ suffix)).unclosed = [] ∧
        (scanSurface (source ++ suffix)).deadRange = none) ↔ endsInComment 0 source = false := by
  have hopen : (scanSurface source).deadRange = none ∧ (scanSurface source).partialLiteral = none ∧
      (scanSurface source).unclosed ≠ [] ∧ suffix = surfaceRecoverySuffix (scanSurface source) := by
    unfold delimiterRecovery at h
    grind [Option.isSome_iff_ne_none]
  obtain ⟨hdead, hwhole, hunclosed, rfl⟩ := hopen
  have hclosers : ∀ ch ∈ surfaceRecoverySuffix (scanSurface source), ch ∈ [')', ']', '}'] := by
    intro ch hch
    obtain ⟨delimiter, -, rfl⟩ := List.mem_map.mp hch
    cases delimiter <;> decide
  have hscan := scanFrom_append hclosers (Nat.zero_le _) hdead hwhole
  rw [scanSurface, hscan, ← scanSurface]
  cases endsInComment 0 source with
  | true => simpa using fun hempty _ => hunclosed hempty
  | false => simp [surfaceRecoverySuffix, scanSurface, scanFrom_closers]

/-- `fn f() { // (` and on the next line `g(["[", (a`: the delimiters of the comment and of
the string are not open. -/
def unfinished : List Char := "fn f() \x7b // (\n g([\"[\", (a".toList

theorem recovery_closes_bracket :
    delimiterRecovery ⟨false, false, none⟩ unfinished = some [')', ']', ')', '}'] ∧
      (scanSurface (unfinished ++ [')', ']', ')', '}'])).unclosed = [] ∧
      (scanSurface (unfinished ++ [')', ']', ')', '}'])).deadRange = none := by
  have hoffered : delimiterRecovery ⟨false, false, none⟩ unfinished = some [')', ']', ')', '}'] := by
    decide +kernel
  exact ⟨hoffered, (recovery_closes_iff ⟨false, false, none⟩ unfinished [')', ']', ')', '}']
    hoffered).mpr (by decide +kernel)⟩

/-- The comment takes the offered brace with it. -/
theorem recovery_swallowed_by_comment :
    delimiterRecovery ⟨false, false, none⟩ "fn f() \x7b //".toList = some ['}'] ∧
      (scanSurface ("fn f() \x7b //".toList ++ ['}'])).unclosed = [.brace] := by decide +kernel

end RSScript.Syntax.Prefix
