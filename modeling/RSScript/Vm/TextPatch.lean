import RSScript.Lib.Outcome
import RSScript.Syntax.PrefixSurface

/-!
# Text patches

`Diff.unified` writes all lines of the old text as removed and all lines of the new one as added;
`Patch.apply` reads such texts back. The patcher slices lines by bytes, so that it can panic.
-/

open Outcome List
open RSScript.Syntax.Prefix (isWhitespace)

namespace RSScript.Vm.TextPatch

abbrev Line := List Char

def splitTextLines (value : List Char) : List Line :=
  if value = [] then []
  else (if value.getLast? = some '\n' then value.dropLast else value).splitOn '\n'

/-- `join("\n")` and a newline. -/
def joinLines (lines : List Line) : List Char := ['\n'].intercalate lines ++ ['\n']

def hunkHeader (old new : Nat) : Line :=
  ['@', '@', ' ', '-', '1', ','] ++ (Nat.toDigits 10 old ++ [' ', '+', '1', ','] ++
    Nat.toDigits 10 new ++ [' ', '@', '@'])

def diffLines (oldLines newLines : List Line) : List Line :=
  "--- old".toList :: "+++ new".toList :: hunkHeader oldLines.length newLines.length ::
    (oldLines.map ('-' :: ·) ++ newLines.map ('+' :: ·))

/-- One hunk that removes all old lines and adds all new ones. -/
def diffUnified (old new : List Char) : List Char :=
  if old = new then [] else joinLines (diffLines (splitTextLines old) (splitTextLines new))

/-! ## The patcher -/

abbrev Patched := Except (Fault String)

def fail {α : Type} (message : String) : Patched α := .error (.error message)

def splitWhitespace (line : Line) : List Line :=
  (line.splitOnP isWhitespace).filter (· ≠ [])

/-- `parse::<usize>()`. -/
def parseUsize (text : List Char) : Option Nat :=
  let digits := if text.head? = some '+' then text.tail else text
  let value := digits.foldl (fun value digit => 10 * value + (digit.toNat - '0'.toNat)) 0
  if digits ≠ [] ∧ digits.all Char.isDigit ∧ value < 2 ^ 64 then some value else none

def parsePatchHunkOldStart (line : Line) : Patched Nat :=
  match splitWhitespace line with
  | ['@', '@'] :: oldPart :: _ =>
    if oldPart.head? = some '-' then
      match parseUsize (oldPart.tail.takeWhile (· ≠ ',')) with
      | some start => .ok start
      | none => fail "hunk header old range start must be an integer"
    else fail "hunk header old range must start with `-`"
  | [['@', '@']] => fail "hunk header missing old range"
  | _ => fail "malformed hunk header"

/-- `line[1..]`, which is a slice only if the first character is a single byte. -/
def sliceFromOne : Line → Patched Line
  | [] => .error .panic
  | char :: rest => if char.utf8Size = 1 then .ok rest else .error .panic

/-- The loops between two lines of the patch. -/
structure Progress where
  output : List Line
  /-- The lines from `original_index` on. -/
  remaining : List Line
  /-- Whether the inner loop is running. -/
  inHunk : Bool

def isFileHeader (line : Line) : Bool :=
  ['-', '-', '-', ' '].isPrefixOf line || ['+', '+', '+', ' '].isPrefixOf line

/-- The next line of the original text, which has to be `value`. -/
def expectLine (what : String) (value : Line) : List Line → Patched (Line × List Line)
  | [] => fail s!"patch {what} extends past original text"
  | original :: rest =>
    if original = value then .ok (original, rest)
    else
      let (expected, got) := (String.ofList original, String.ofList value)
      fail s!"patch {what} mismatch: expected `{expected}`, got `{got}`"

/-- One line of a hunk against what is left of the original. -/
def applyHunkLine (state : Progress) (line : Line) : Patched Progress :=
  match line with
  | [] => fail "empty patch hunk line"
  | first :: _ => do
    let value ← sliceFromOne line
    if first = ' ' then
      let (original, rest) ← expectLine "context" value state.remaining
      return { state with output := state.output ++ [original], remaining := rest }
    else if first = '-' then
      let (_, rest) ← expectLine "removal" value state.remaining
      return { state with remaining := rest }
    else if first = '+' then return { state with output := state.output ++ [value] }
    else if first = '\\' then return state
    else fail s!"unsupported patch hunk prefix `{first}`"

/-- One line of the patch: headers end a hunk, whichever loop meets them. -/
def applyLine (originalLines : List Line) (state : Progress) (line : Line) : Patched Progress :=
  if isFileHeader line then return { state with inHunk := false }
  else if ['@', '@', ' '].isPrefixOf line then do
    let oldStart ← parsePatchHunkOldStart line
    let index := originalLines.length - state.remaining.length
    let target := oldStart - 1
    if target < index ∨ originalLines.length < target then
      fail "patch hunk applies outside the original text"
    else
      return ⟨state.output ++ state.remaining.take (target - index),
        state.remaining.drop (target - index), true⟩
  else if state.inHunk then applyHunkLine state line
  else fail s!"expected unified diff hunk header, got `{String.ofList line}`"

def patchApplyText (original patch : List Char) : Patched (List Char) :=
  let originalLines := splitTextLines original
  let patchLines := splitTextLines patch
  if patchLines = [] then .ok original
  else do
    let state ← patchLines.foldlM (applyLine originalLines) ⟨[], originalLines, false⟩
    let output := state.output ++ state.remaining
    if original.getLast? = some '\n' ∨ patch.getLast? = some '\n' then return joinLines output
    else return ['\n'].intercalate output

/-! ## Lines -/

theorem notMem_of_mem_splitOn {text : List Char} (h : line ∈ text.splitOn '\n') : '\n' ∉ line := by
  induction text generalizing line with
  | nil => simp_all
  | cons char text ih =>
    rw [splitOn_cons_eq_if_modifyHead] at h
    obtain ⟨first, rest, hsplit⟩ := exists_cons_of_ne_nil (splitOn_ne_nil '\n' text)
    simp only [hsplit, mem_cons] at ih
    split_ifs at h with hchar
    · simp only [hsplit, mem_cons] at h
      obtain rfl | h := h
      · simp
      · exact ih h
    · simp only [hsplit, modifyHead_cons, mem_cons] at h
      obtain rfl | h := h
      · simpa [Ne.symm (by simpa using hchar)] using ih (.inl rfl)
      · exact ih (.inr h)

theorem newline_notMem (h : line ∈ splitTextLines text) : '\n' ∉ line := by
  unfold splitTextLines at h
  split_ifs at h
  · cases h
  all_goals exact notMem_of_mem_splitOn h

theorem splitTextLines_joinLines (h : ∀ line ∈ lines, '\n' ∉ line) (hne : lines ≠ []) :
    splitTextLines (joinLines lines) = lines := by
  simp [splitTextLines, joinLines, splitOn_intercalate '\n' h hne]

private theorem joinLines_splitTextLines (h : text.getLast? = some '\n') :
    joinLines (splitTextLines text) = text := by
  obtain ⟨before, rfl⟩ := getLast?_eq_some_iff.mp h
  simp [splitTextLines, joinLines, intercalate_splitOn]

private theorem newline_notMem_hunkHeader : '\n' ∉ hunkHeader old new := by
  have hdigits (n : Nat) : '\n' ∉ Nat.toDigits 10 n := by
    intro hmem
    simpa using Nat.isDigit_of_mem_toDigits (by decide) (by decide) hmem
  simp [hunkHeader, hdigits]

private theorem parse_hunkHeader : parsePatchHunkOldStart (hunkHeader old new) = .ok 1 := by
  have hspace : isWhitespace ' ' = true ∧ isWhitespace '@' = false ∧ isWhitespace '-' = false ∧
    isWhitespace '1' = false ∧ isWhitespace ',' = false := by decide
  have hone : parseUsize ['1'] = some 1 := by decide
  obtain ⟨tail, htail⟩ : ∃ tail, hunkHeader old new = ['@', '@', ' ', '-', '1', ','] ++ tail :=
    ⟨_, rfl⟩
  obtain ⟨range, rest, hrange⟩ := exists_cons_of_ne_nil (splitOnP_ne_nil isWhitespace tail)
  have hparts : splitWhitespace (hunkHeader old new) =
      ['@', '@'] :: ('-' :: '1' :: ',' :: range) :: rest.filter (· ≠ []) := by
    simp [splitWhitespace, htail, splitOnP_cons_eq_if_modifyHead, hspace, hrange]
  simp [parsePatchHunkOldStart, hparts, hone]

/-! ## Hunks -/

section Hunks

variable {lines : List Line}

theorem isFileHeader_removed (line : Line) :
    isFileHeader ('-' :: line) = ['-', '-', ' '].isPrefixOf line := by
  simp [isFileHeader]

theorem isFileHeader_added (line : Line) :
    isFileHeader ('+' :: line) = ['+', '+', ' '].isPrefixOf line := by
  simp [isFileHeader]

/-- The lines up to the first that passes a test, if one does. -/
theorem first_of (test : Line → Bool) (lines : List Line) :
    (∀ line ∈ lines, test line = false) ∨ ∃ before line after, lines = before ++ line :: after ∧
      test line = true ∧ ∀ line ∈ before, test line = false := by
  cases h : lines.find? test with
  | none => exact .inl (by simpa using h)
  | some line =>
    obtain ⟨hline, before, after, hlines, hbefore⟩ := find?_eq_some_iff_append.mp h
    exact .inr ⟨before, line, after, hlines, hline, by simpa using hbefore⟩

theorem applyLine_header (h : isFileHeader line = true) :
    applyLine olds state line = .ok { state with inHunk := false } := by
  simp [applyLine, h, pure, Except.pure]

private theorem applyLine_removed (h : isFileHeader ('-' :: line) = false) :
    applyLine olds ⟨output, line :: rest, true⟩ ('-' :: line) = .ok ⟨output, rest, true⟩ := by
  have hbyte : '-'.utf8Size = 1 := by decide
  simp [applyLine, h, applyHunkLine, sliceFromOne, hbyte, expectLine, bind, Except.bind, pure,
    Except.pure]

private theorem applyLine_added (h : isFileHeader ('+' :: line) = false) :
    applyLine olds ⟨output, rest, true⟩ ('+' :: line) = .ok ⟨output ++ [line], rest, true⟩ := by
  have hbyte : '+'.utf8Size = 1 := by decide
  simp [applyLine, h, applyHunkLine, sliceFromOne, hbyte, bind, Except.bind, pure, Except.pure]

theorem foldlM_step (h : applyLine olds state line = .ok state') :
    (line :: lines).foldlM (applyLine olds) state = lines.foldlM (applyLine olds) state' := by
  rw [foldlM_cons, h]
  rfl

theorem foldlM_through (h : lines.foldlM (applyLine olds) state = .ok state') :
    (lines ++ more).foldlM (applyLine olds) state = more.foldlM (applyLine olds) state' := by
  rw [foldlM_append, h]
  rfl

theorem foldlM_removed (h : ∀ line ∈ lines, isFileHeader ('-' :: line) = false) :
    (lines.map ('-' :: ·)).foldlM (applyLine olds) ⟨output, lines ++ rest, true⟩ =
      .ok ⟨output, rest, true⟩ := by
  induction lines with
  | nil => rfl
  | cons line lines ih =>
    rw [map_cons, cons_append, foldlM_step (applyLine_removed (h line (by simp)))]
    exact ih fun other hmem => h other (by simp [hmem])

theorem foldlM_added (h : ∀ line ∈ lines, isFileHeader ('+' :: line) = false) :
    (lines.map ('+' :: ·)).foldlM (applyLine olds) ⟨output, rest, true⟩ =
      .ok ⟨output ++ lines, rest, true⟩ := by
  induction lines generalizing output with
  | nil => simp [pure, Except.pure]
  | cons line lines ih =>
    rw [map_cons, foldlM_step (applyLine_added (h line (by simp))),
      ih fun other hmem => h other (by simp [hmem])]
    simp

/-- Outside hunks only headers of files are read, and nothing happens. -/
theorem foldlM_outside (hmark : ∀ line ∈ lines, line.head? ≠ some '@')
    (h : lines.foldlM (applyLine olds) ⟨output, rest, false⟩ = .ok state) :
    state = ⟨output, rest, false⟩ ∧ ∀ line ∈ lines, isFileHeader line = true := by
  induction lines with
  | nil => exact ⟨by simpa [pure, Except.pure] using h.symm, by simp⟩
  | cons line lines ih =>
    have hno : ['@', '@', ' '].isPrefixOf line = false := by
      cases line with
      | nil => rfl
      | cons char line =>
        have hchar : char ≠ '@' := by simpa using hmark (char :: line) (by simp)
        simp [isPrefixOf, Ne.symm hchar]
    by_cases hheader : isFileHeader line = true
    · rw [foldlM_step (applyLine_header hheader)] at h
      obtain ⟨hstate, hall⟩ := ih (fun other hmem => hmark other (by simp [hmem])) h
      exact ⟨hstate, forall_mem_cons.mpr ⟨hheader, hall⟩⟩
    · simp [applyLine, hheader, hno, fail, bind, Except.bind] at h

end Hunks

/-! ## Patching with a difference -/

private theorem applyLine_hunkHeader (news : List Line) :
    applyLine olds ⟨[], olds, false⟩ (hunkHeader olds.length news.length) =
      .ok ⟨[], olds, true⟩ := by
  have hmarks : isFileHeader (hunkHeader olds.length news.length) = false ∧
      ['@', '@', ' '].isPrefixOf (hunkHeader olds.length news.length) = true := ⟨rfl, rfl⟩
  simp [applyLine, hmarks, parse_hunkHeader, bind, Except.bind, pure, Except.pure]

private theorem foldlM_diffLines : (diffLines olds news).foldlM (applyLine olds) ⟨[], olds, false⟩ =
      (olds.map ('-' :: ·) ++ news.map ('+' :: ·)).foldlM (applyLine olds) ⟨[], olds, true⟩ := by
  rw [diffLines, foldlM_step (applyLine_header (by decide)),
    foldlM_step (applyLine_header (by decide)), foldlM_step (applyLine_hunkHeader news)]

theorem newline_notMem_diffLines (h : line ∈ diffLines (splitTextLines old) (splitTextLines new)) :
    '\n' ∉ line := by
  simp only [diffLines, mem_cons, mem_append, mem_map] at h
  obtain rfl | rfl | rfl | ⟨text, hmem, rfl⟩ | ⟨text, hmem, rfl⟩ := h
  · decide
  · decide
  · exact newline_notMem_hunkHeader
  all_goals simpa using newline_notMem hmem

/-- The run of the patcher on a difference, from the line after the header of the hunk. -/
theorem patchApplyText_diffUnified (h : old ≠ new) : patchApplyText old (diffUnified old new) = do
      let state ← ((splitTextLines old).map ('-' :: ·) ++
        (splitTextLines new).map ('+' :: ·)).foldlM
          (applyLine (splitTextLines old)) ⟨[], splitTextLines old, true⟩
      return joinLines (state.output ++ state.remaining) := by
  have hlines : splitTextLines (diffUnified old new) =
      diffLines (splitTextLines old) (splitTextLines new) := by
    rw [diffUnified, if_neg h]
    exact splitTextLines_joinLines (fun _ => newline_notMem_diffLines) (by simp [diffLines])
  have hlast : (diffUnified old new).getLast? = some '\n' := by
    rw [diffUnified, if_neg h, joinLines, getLast?_concat]
  have hne : diffLines (splitTextLines old) (splitTextLines new) ≠ [] := by simp [diffLines]
  simp only [patchApplyText, hlines, hlast, if_neg hne, or_true, if_true, foldlM_diffLines]

private theorem run_eq_ok {run : Patched Progress} :
    (do let state ← run; return joinLines (state.output ++ state.remaining)) = Except.ok text ↔
      ∃ state, run = .ok state ∧ joinLines (state.output ++ state.remaining) = text := by
  cases run <;> simp [bind, Except.bind, pure, Except.pure]

/-- A line that looks like a header ends the hunk, and what follows it is not read. -/
theorem foldlM_header (hheader : isFileHeader line = true)
    (hmark : ∀ line ∈ lines, line.head? ≠ some '@')
    (h : (line :: lines).foldlM (applyLine olds) ⟨output, rest, true⟩ = .ok state) :
    state = ⟨output, rest, false⟩ ∧ ∀ line ∈ lines, isFileHeader line = true := by
  rw [foldlM_step (applyLine_header hheader)] at h
  exact foldlM_outside hmark h

/-- A patch with the difference of two texts gives the new one exactly where the texts are equal,
or the new one ends with a newline and no line looks like the header of a file once it is marked. -/
theorem patchApplyText_diffUnified_iff (old new : List Char) :
    patchApplyText old (diffUnified old new) = .ok new ↔
      old = new ∨ new.getLast? = some '\n' ∧
        (∀ line ∈ splitTextLines old, ['-', '-', ' '].isPrefixOf line = false) ∧
        ∀ line ∈ splitTextLines new, ['+', '+', ' '].isPrefixOf line = false := by
  by_cases hsame : old = new
  · simp [hsame, patchApplyText, diffUnified, splitTextLines]
  rw [patchApplyText_diffUnified hsame, run_eq_ok]
  simp only [hsame, false_or, ← isFileHeader_removed, ← isFileHeader_added]
  have hnewlines : ∀ line ∈ splitTextLines new, '\n' ∉ line := fun _ => newline_notMem
  obtain holds | ⟨before, bad, after, hold, hbad, hbefore⟩ :=
    first_of (fun line => isFileHeader ('-' :: line)) (splitTextLines old)
  · have hremoved : ((splitTextLines old).map ('-' :: ·)).foldlM (applyLine (splitTextLines old))
        ⟨[], splitTextLines old ++ [], true⟩ = .ok ⟨[], [], true⟩ := foldlM_removed holds
    rw [append_nil] at hremoved
    rw [foldlM_through hremoved]
    obtain hnews | ⟨before, bad, after, hnew, hbad, hbefore⟩ :=
      first_of (fun line => isFileHeader ('+' :: line)) (splitTextLines new)
    · rw [foldlM_added hnews]
      constructor
      · rintro ⟨state, hstate, rfl⟩
        exact ⟨by simp [joinLines], holds, hnews⟩
      · rintro ⟨hlast, -⟩
        exact ⟨_, rfl, by simpa using joinLines_splitTextLines hlast⟩
    · refine iff_of_false ?_ fun h => by simpa [hbad] using h.2.2 bad (by simp [hnew])
      -- the lines from `bad` on are missing
      rintro ⟨state, hrun, hjoin⟩
      rw [hnew, map_append, foldlM_through (foldlM_added hbefore), map_cons] at hrun
      obtain ⟨rfl, -⟩ := foldlM_header hbad (by simp) hrun
      by_cases hempty : before = []
      · subst hempty hjoin
        obtain ⟨rfl, -⟩ : bad = [] ∧ after = [] := by
          simpa [joinLines, splitTextLines] using hnew.symm
        exact absurd hbad (by decide)
      · have hlines : splitTextLines new = before := by
          rw [← hjoin]
          simpa using splitTextLines_joinLines
            (fun line hmem => hnewlines line (by simp [hnew, hmem])) hempty
        simpa [hnew] using congrArg length hlines
  · refine iff_of_false ?_ fun h => by simpa [hbad] using h.2.1 bad (by simp [hold])
    -- the lines from `bad` on are kept, and the lines of the new text are skipped
    rintro ⟨state, hrun, hjoin⟩
    rw [hold, map_append, append_assoc, foldlM_through (foldlM_removed hbefore),
      map_cons, cons_append] at hrun
    obtain ⟨rfl, hskipped⟩ := foldlM_header hbad (by simp [or_imp, forall_and]) hrun
    have hlines : splitTextLines new = bad :: after := by
      rw [← hjoin]
      refine splitTextLines_joinLines (fun line hmem => ?_) (by simp)
      exact newline_notMem (hold ▸ mem_append_right before hmem)
    have hadded : isFileHeader ('+' :: bad) = true := hskipped _ (by simp [hlines])
    rw [isFileHeader_removed] at hbad
    rw [isFileHeader_added] at hadded
    cases bad with
    | nil => simp at hbad
    | cons char bad =>
      simp only [isPrefixOf, Bool.and_eq_true, beq_iff_eq] at hbad hadded
      exact absurd (hbad.1.trans hadded.1.symm) (by decide)

/-- A new text that does not end with a newline gets one. -/
theorem patchApplyText_adds_newline :
    patchApplyText ['a'] (diffUnified ['a'] ['b']) = .ok ['b', '\n'] := by
  decide

/-! ## Panics -/

/-- What a line of the patch moves on to, if it fits the original text: the place in that text, and
whether a hunk is open. -/
inductive Advance (originalLines : List Line) : Nat → Bool → Line → Nat → Bool → Prop where
  | fileHeader (h : isFileHeader line = true) : Advance originalLines place inHunk line place false
  | hunkHeader (hfile : isFileHeader line = false) (hmark : ['@', '@', ' '].isPrefixOf line = true)
      (hstart : parsePatchHunkOldStart line = .ok start) (hle : place ≤ start - 1)
      (hend : start - 1 ≤ originalLines.length) :
      Advance originalLines place inHunk line (start - 1) true
  /-- A context line or a removed one repeats the line at its place. -/
  | kept (hfile : isFileHeader (mark :: line) = false) (hmark : mark = ' ' ∨ mark = '-')
      (hline : originalLines[place]? = some line) :
      Advance originalLines place true (mark :: line) (place + 1) true
  /-- An added line, or the remark that no newline follows. -/
  | added (hfile : isFileHeader (mark :: line) = false) (hmark : mark = '+' ∨ mark = '\\') :
      Advance originalLines place true (mark :: line) place true

/-- The lines of the patch so far fit the original text and leave off at a place. -/
inductive Reaches (originalLines : List Line) : Nat → Bool → List Line → Nat → Bool → Prop where
  | nil : Reaches originalLines place inHunk [] place inHunk
  | cons (hline : Advance originalLines place inHunk line middle open_)
      (hlines : Reaches originalLines middle open_ lines last inHunk') :
      Reaches originalLines place inHunk (line :: lines) last inHunk'

/-- The loops stand at a place of the original text. -/
structure Progress.At (state : Progress) (originalLines : List Line) (place : Nat)
    (inHunk : Bool) : Prop where
  remaining : state.remaining = originalLines.drop place
  place_le : place ≤ originalLines.length
  inHunk : state.inHunk = inHunk

section Places

variable {originalLines : List Line} {place last : Nat} {inHunk inHunk' : Bool}
  {state state' : Progress}

theorem Progress.At.index (h : state.At originalLines place inHunk) :
    originalLines.length - state.remaining.length = place := by
  have hle := h.place_le
  rw [h.remaining, length_drop]
  omega

theorem utf8Size_of_mark (h : mark = ' ' ∨ mark = '-' ∨ mark = '+' ∨ mark = '\\') :
    mark.utf8Size = 1 := by
  obtain rfl | rfl | rfl | rfl := h <;> decide

/-- No mark of a hunk's line opens a hunk. -/
theorem not_hunkMark (h : mark ≠ '@') : ['@', '@', ' '].isPrefixOf (mark :: line) = false := by
  simp [isPrefixOf, Ne.symm h]

theorem applyLine_hunkLine (hfile : isFileHeader line = false)
    (hmark : ['@', '@', ' '].isPrefixOf line = false) (hopen : state.inHunk = true) :
    applyLine originalLines state line = applyHunkLine state line := by
  simp [applyLine, hfile, hmark, hopen]

theorem applyHunkLine_cons (h : mark.utf8Size = 1) :
    applyHunkLine state (mark :: line) =
      if mark = ' ' then do
        let (original, rest) ← expectLine "context" line state.remaining
        return { state with output := state.output ++ [original], remaining := rest }
      else if mark = '-' then do
        let (_, rest) ← expectLine "removal" line state.remaining
        return { state with remaining := rest }
      else if mark = '+' then return { state with output := state.output ++ [line] }
      else if mark = '\\' then return state
      else fail s!"unsupported patch hunk prefix `{mark}`" := by
  simp [applyHunkLine, sliceFromOne, h, bind, Except.bind]

/-- The line at a place is the first of those that remain there. -/
theorem remaining_eq_cons (h : originalLines[place]? = some line) :
    originalLines.drop place = line :: originalLines.drop (place + 1) ∧
      place + 1 ≤ originalLines.length := by
  obtain ⟨hlt, rfl⟩ := List.getElem?_eq_some_iff.mp h
  exact ⟨drop_eq_getElem_cons hlt, hlt⟩

/-- A line that fits is read. -/
theorem applyLine_of_advance (hstate : state.At originalLines place inHunk)
    (h : Advance originalLines place inHunk line last inHunk') :
    ∃ state', applyLine originalLines state line = .ok state' ∧
      state'.At originalLines last inHunk' := by
  cases h with
  | fileHeader hfile =>
    exact ⟨_, applyLine_header hfile, ⟨hstate.remaining, hstate.place_le, rfl⟩⟩
  | hunkHeader hfile hmark hstart hle hend =>
    rename_i start
    refine ⟨⟨state.output ++ state.remaining.take (start - 1 - place),
      state.remaining.drop (start - 1 - place), true⟩, ?_, ?_, hend, rfl⟩
    · simp [applyLine, hfile, hmark, hstart, hstate.index, hle, hend, bind, Except.bind, pure,
        Except.pure]
    · rw [hstate.remaining, drop_drop, Nat.add_sub_cancel' hle]
  | @kept mark line _ hfile hmark hline =>
    obtain ⟨hremaining, hle⟩ := remaining_eq_cons hline
    rw [applyLine_hunkLine hfile (not_hunkMark (by obtain rfl | rfl := hmark <;> decide))
      hstate.inHunk, applyHunkLine_cons (utf8Size_of_mark (by tauto)), hstate.remaining, hremaining]
    obtain rfl | rfl := hmark
    · refine ⟨⟨state.output ++ [line], originalLines.drop (place + 1), state.inHunk⟩, ?_,
        rfl, hle, hstate.inHunk⟩
      simp [expectLine, bind, Except.bind, pure, Except.pure]
    · refine ⟨⟨state.output, originalLines.drop (place + 1), state.inHunk⟩, ?_,
        rfl, hle, hstate.inHunk⟩
      simp [expectLine, bind, Except.bind, pure, Except.pure]
  | @added mark line _ hfile hmark =>
    rw [applyLine_hunkLine hfile (not_hunkMark (by obtain rfl | rfl := hmark <;> decide))
      hstate.inHunk, applyHunkLine_cons (utf8Size_of_mark (by tauto))]
    obtain rfl | rfl := hmark
    · exact ⟨{ state with output := state.output ++ [line] }, by simp [pure, Except.pure],
        hstate.remaining, hstate.place_le, hstate.inHunk⟩
    · exact ⟨state, by simp [pure, Except.pure], hstate⟩

private theorem graceful_parse : Graceful (parsePatchHunkOldStart line) := by
  unfold parsePatchHunkOldStart fail
  repeat' split
  all_goals first | exact .ok _ | exact .error _

theorem graceful_expectLine : Graceful (expectLine what value remaining) := by
  unfold expectLine fail
  repeat' split
  all_goals first | exact .ok _ | exact .error _

private theorem graceful_applyHunkLine (h : ∀ first ∈ line.head?, first.utf8Size = 1) :
    Graceful (applyHunkLine state line) := by
  unfold applyHunkLine fail
  split
  · exact .error _
  next first rest =>
    have hslice : sliceFromOne (first :: rest) = .ok rest := if_pos (h first rfl)
    rw [hslice]
    refine .bind (.ok rest) fun value _ => ?_
    repeat' split
    · exact .bind (graceful_expectLine) fun _ _ => .ok _
    · exact .bind (graceful_expectLine) fun _ _ => .ok _
    all_goals first | exact .ok _ | exact .error _

theorem expectLine_eq_ok (h : expectLine what value remaining = .ok (original, rest)) :
    remaining = value :: rest := by
  unfold expectLine at h
  split at h
  · cases h
  · split_ifs at h with hsame
    · cases h
      rw [hsame]
    · cases h

theorem getElem?_of_remaining (h : originalLines.drop place = line :: rest) :
    originalLines[place]? = some line ∧ rest = originalLines.drop (place + 1) := by
  have hline : originalLines[place]? = some line := by
    rw [← head?_drop, h, head?_cons]
  obtain ⟨hremaining, -⟩ := remaining_eq_cons hline
  exact ⟨hline, (cons.inj (h.symm.trans hremaining)).2⟩

/-- A line of a hunk that is read fits. -/
theorem advance_of_applyHunkLine (hstate : state.At originalLines place true)
    (hfile : isFileHeader line = false) (h : applyHunkLine state line = .ok state') :
    ∃ last, Advance originalLines place true line last true ∧
      state'.At originalLines last true := by
  cases line with
  | nil => cases h
  | cons mark line =>
    by_cases hbyte : mark.utf8Size = 1
    swap
    · simp [applyHunkLine, sliceFromOne, hbyte, bind, Except.bind] at h
    rw [applyHunkLine_cons hbyte, hstate.remaining] at h
    have hkept (hmark : mark = ' ' ∨ mark = '-') {rest : List Line}
        (hrest : originalLines.drop place = line :: rest) {output : List Line} :
        ∃ last, Advance originalLines place true (mark :: line) last true ∧
          Progress.At ⟨output, rest, state.inHunk⟩ originalLines last true := by
      obtain ⟨hline, rfl⟩ := getElem?_of_remaining hrest
      exact ⟨place + 1, .kept hfile hmark hline,
        rfl, (remaining_eq_cons hline).2, hstate.inHunk⟩
    split_ifs at h with hspace hminus hplus hremark
    · obtain ⟨⟨original, rest⟩, hexpect, heq⟩ := Guards.bind_eq_ok.mp h
      obtain rfl := Except.ok.inj heq
      exact hkept (.inl hspace) (expectLine_eq_ok hexpect)
    · obtain ⟨⟨original, rest⟩, hexpect, heq⟩ := Guards.bind_eq_ok.mp h
      obtain rfl := Except.ok.inj heq
      exact hkept (.inr hminus) (expectLine_eq_ok hexpect)
    · obtain rfl := Except.ok.inj h
      exact ⟨place, .added hfile (.inl hplus), rfl, hstate.place_le, hstate.inHunk⟩
    · obtain rfl := Except.ok.inj h
      exact ⟨place, .added hfile (.inr hremark), hstate⟩
    · cases h

/-- A line that is read fits. -/
theorem advance_of_applyLine (hstate : state.At originalLines place inHunk)
    (h : applyLine originalLines state line = .ok state') :
    ∃ last inHunk', Advance originalLines place inHunk line last inHunk' ∧
      state'.At originalLines last inHunk' := by
  unfold applyLine at h
  split_ifs at h with hfile hmark hopen
  · obtain rfl := Except.ok.inj h
    exact ⟨place, false, .fileHeader hfile, hstate.remaining, hstate.place_le, rfl⟩
  · obtain ⟨start, hstart, h⟩ := Guards.bind_eq_ok.mp h
    simp only [hstate.index] at h
    split_ifs at h with hrange
    · cases h
    · obtain rfl := Except.ok.inj h
      simp only [not_or, not_lt] at hrange
      refine ⟨start - 1, true, .hunkHeader (by simpa using hfile) hmark hstart hrange.1 hrange.2,
        ?_, hrange.2, rfl⟩
      rw [hstate.remaining, drop_drop, Nat.add_sub_cancel' hrange.1]
  · obtain rfl : inHunk = true := hstate.inHunk.symm.trans hopen
    obtain ⟨last, hline, hstate'⟩ := advance_of_applyHunkLine hstate (by simpa using hfile) h
    exact ⟨last, true, hline, hstate'⟩
  · cases h

theorem graceful_applyLine (h : state.inHunk = true → ∀ first ∈ line.head?, first.utf8Size = 1) :
    Graceful (applyLine originalLines state line) := by
  unfold applyLine fail
  split_ifs with hfile hmark hopen
  · exact .ok _
  · refine .bind (graceful_parse) fun start _ => ?_
    dsimp only
    split_ifs
    · exact .error _
    · exact .ok _
  · exact graceful_applyHunkLine (h hopen)
  · exact .error _

/-- The byte slice of a hunk's line panics inside its first character. -/
theorem applyLine_panics (hopen : state.inHunk = true) (hbyte : mark.utf8Size ≠ 1) :
    applyLine originalLines state (mark :: line) = .error .panic := by
  have hmark (known : Char) (hknown : known.utf8Size = 1) : mark ≠ known :=
    fun hsame => hbyte (hsame ▸ hknown)
  have hfile : isFileHeader (mark :: line) = false := by
    simp [isFileHeader, isPrefixOf, Ne.symm (hmark '-' (by decide)),
      Ne.symm (hmark '+' (by decide))]
  rw [applyLine_hunkLine hfile (not_hunkMark (hmark '@' (by decide))) hopen]
  simp [applyHunkLine, sliceFromOne, hbyte, bind, Except.bind]

/-- Lines that fit are read. -/
theorem foldlM_of_reaches (hstate : state.At originalLines place inHunk)
    (h : Reaches originalLines place inHunk lines last inHunk') :
    ∃ state', lines.foldlM (applyLine originalLines) state = .ok state' ∧
      state'.At originalLines last inHunk' := by
  induction h generalizing state with
  | nil => exact ⟨state, rfl, hstate⟩
  | cons hline _ ih =>
    obtain ⟨middle, hmiddle, hat⟩ := applyLine_of_advance hstate hline
    rw [foldlM_step hmiddle]
    exact ih hat

/-- The loops panic at the first line of a hunk they reach that starts with several bytes. -/
theorem graceful_foldlM_iff (hstate : state.At originalLines place inHunk) :
    Graceful (lines.foldlM (applyLine originalLines) state) ↔
      ∀ before line after last, lines = before ++ line :: after →
        Reaches originalLines place inHunk before last true →
          ∀ first ∈ line.head?, first.utf8Size = 1 := by
  constructor
  · rintro hgraceful before line after last rfl hreaches first hfirst
    obtain ⟨rest, rfl⟩ : ∃ rest, line = first :: rest := head?_eq_some_iff.mp hfirst
    by_contra hbyte
    obtain ⟨state', hrun, hat⟩ := foldlM_of_reaches hstate hreaches
    rw [foldlM_through hrun, foldlM_cons, applyLine_panics hat.inHunk hbyte] at hgraceful
    obtain ⟨_, herror⟩ := hgraceful .panic rfl
    cases herror
  · intro h
    induction lines generalizing state place inHunk with
    | nil => exact .ok state
    | cons line lines ih =>
      rw [foldlM_cons]
      refine .bind (graceful_applyLine fun hopen => ?_) fun state' hline => ?_
      · have hnil : Reaches originalLines place inHunk [] place true := by
          rw [← hstate.inHunk, hopen]
          exact .nil
        exact h [] line lines place rfl hnil
      · obtain ⟨next, inHunk', hadvance, hat⟩ := advance_of_applyLine hstate hline
        refine ih hat fun before line after last hlines hreaches => ?_
        exact h _ line after last (by rw [hlines, cons_append]) (.cons hadvance hreaches)

end Places

/-- The patcher panics exactly where it reaches, inside a hunk, a line that starts with a character
of several bytes: the lines before it fit the original text. -/
theorem graceful_patchApplyText_iff (original patch : List Char) :
    Graceful (patchApplyText original patch) ↔
      ∀ before line after place, splitTextLines patch = before ++ line :: after →
        Reaches (splitTextLines original) 0 false before place true →
          ∀ first ∈ line.head?, first.utf8Size = 1 := by
  have hstart : Progress.At ⟨[], splitTextLines original, false⟩ (splitTextLines original) 0 false :=
    ⟨rfl, by simp, rfl⟩
  rw [← graceful_foldlM_iff hstart]
  simp only [patchApplyText]
  constructor
  · intro hgraceful fault hfault
    split_ifs at hgraceful with hempty
    · simp [hempty, pure, Except.pure] at hfault
    all_goals exact hgraceful fault (by rw [hfault]; rfl)
  · intro hgraceful
    split_ifs
    · exact .ok _
    all_goals exact .bind hgraceful fun _ _ => .ok _

/-- A line of a hunk that starts with `é` is sliced inside that character. -/
theorem patchApplyText_panics :
    patchApplyText [] ['@', '@', ' ', '-', '1', '\n', 'é', '\n'] = .error .panic := by
  decide

end RSScript.Vm.TextPatch
