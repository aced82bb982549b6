import Mathlib.Data.List.Basic

/-!
# Path strings

The path functions of the host work on text, through the components that the standard library
reads from it on a Unix host. Here the text of a path is also looked up lexically, component by
component from a directory, to say what the functions keep.

The file system is not consulted: a symbolic link is a name like others.
-/

namespace RSScript.Vm.PathString

/-! ## Components -/

/-- What a file or directory can be called. -/
structure Name where
  text : List Char
  plain : '/' ∉ text ∧ text ≠ [] ∧ text ≠ ['.'] ∧ text ≠ ['.', '.']
  deriving DecidableEq

inductive Component where
  | rootDir
  | curDir
  | parentDir
  | normal (name : Name)
  deriving DecidableEq

def Component.asOsStr : Component → List Char
  | .rootDir => ['/']
  | .curDir => ['.']
  | .parentDir => ['.', '.']
  | .normal name => name.text

/-- The texts between separators. -/
def segments (path : List Char) : List (List Char) := path.splitOn '/'

/-- Empty segments and `.` are skipped. -/
def segmentComponent (segment : List Char) : Option Component :=
  if segment = ['.', '.'] then some .parentDir
  else if plain : '/' ∉ segment ∧ segment ≠ [] ∧ segment ≠ ['.'] ∧ segment ≠ ['.', '.'] then
    some (.normal ⟨segment, plain⟩)
  else none

/-- A leading separator is a component, and so is the `.` a relative path starts with. -/
def startComponents (path : List Char) : List Component :=
  if path.head? = some '/' then [.rootDir]
  else if (segments path).head? = some ['.'] then [.curDir]
  else []

/-- `Path::components`. -/
def components (path : List Char) : List Component :=
  startComponents path ++ (segments path).filterMap segmentComponent

def isAbsolute (path : List Char) : Bool := path.head? = some '/'

/-! ## The functions -/

/-- A `PathBuf` that is built from components, the last one first. -/
abbrev PathBuf := List Component

def PathBuf.push (buf : PathBuf) : Component → PathBuf
  | .rootDir => [.rootDir]
  | component => component :: buf

/-- `pop` takes any last component, `..` too. It fails at the root and on the empty path. -/
def PathBuf.pop : PathBuf → Option PathBuf
  | [] | .rootDir :: _ => none
  | _ :: buf => some buf

def joined (parts : List Component) : List Char :=
  ['/'].intercalate (parts.map Component.asOsStr)

def PathBuf.toText (buf : PathBuf) : List Char :=
  match buf.reverse with
  | .rootDir :: rest => '/' :: joined rest
  | parts => joined parts

/-- `path_join_string`: an absolute child replaces the base. -/
def pathJoinString (base child : List Char) : List Char :=
  if isAbsolute child then child
  else if base = [] ∨ base.getLast? = some '/' then base ++ child
  else base ++ '/' :: child

def normalizeComponent (normalized : PathBuf) : Component → PathBuf
  | .curDir => normalized
  | .parentDir => normalized.pop.getD (normalized.push .parentDir)
  | component => normalized.push component

/-- `path_normalize_string`. -/
def pathNormalizeString (path : List Char) : List Char :=
  PathBuf.toText ((components path).foldl normalizeComponent [])

def safeComponent (normalized : PathBuf) : Component → Except String PathBuf
  | .curDir => .ok normalized
  | .normal part => .ok (normalized.push (.normal part))
  | .parentDir => .error "parent-directory traversal is not allowed"
  | .rootDir => .error "absolute paths are not allowed"

/-- `path_safe_relative_string`: neither the root nor `..` may occur. -/
def pathSafeRelativeString (value : List Char) : Except String (List Char) :=
  if value = [] then .error "path must be non-empty"
  else if isAbsolute value then .error "absolute paths are not allowed"
  else do
    let normalized ← (components value).foldlM safeComponent []
    if normalized.toText = [] then .error "path must name a relative file or directory"
    else return normalized.toText

/-- `starts_with` compares components. -/
def pathResolveRelativeString (root relative : List Char) :
    Except String (List Char) := do
  let relative ← pathSafeRelativeString relative
  let resolved := pathNormalizeString (pathJoinString root relative)
  if components root <+: components resolved then return resolved
  else .error "resolved path escapes the workspace root"

/-! ## Reading the text of components back -/

/-- The components between the start of a path and its end. -/
def Component.Inner (component : Component) : Prop :=
  component = .parentDir ∨ ∃ name, component = .normal name

variable {component : Component} {start parts : List Component}

private theorem segmentComponent_asOsStr (h : component.Inner) :
    segmentComponent component.asOsStr = some component := by
  obtain rfl | ⟨name, rfl⟩ := h
  · rfl
  · simp [segmentComponent, Component.asOsStr, name.plain]

theorem segmentComponent_inner {segment : List Char} (h : segmentComponent segment = some component) :
    component.Inner := by
  unfold segmentComponent at h
  split at h
  · exact .inl (by simpa using h.symm)
  · split at h
    · exact .inr ⟨_, (Option.some.inj h).symm⟩
    · cases h

theorem Component.Inner.plain (h : component.Inner) :
    '/' ∉ component.asOsStr ∧ component.asOsStr ≠ [] ∧ component.asOsStr ≠ ['.'] := by
  obtain rfl | ⟨name, rfl⟩ := h
  · simp [asOsStr]
  · exact ⟨name.plain.1, name.plain.2.1, name.plain.2.2.1⟩

/-- The two ways a normalized path starts. -/
def IsStart (start : List Component) : Prop := start = [] ∨ start = [.rootDir]

section Joined

variable (h : ∀ component ∈ parts, component.Inner)

include h

theorem segments_joined (hne : parts ≠ []) :
    segments (joined parts) = parts.map Component.asOsStr := by
  refine List.splitOn_intercalate '/' ?_ (by simpa using hne)
  intro text hmem
  obtain ⟨component, hcomponent, rfl⟩ := List.mem_map.mp hmem
  exact (Component.Inner.plain (h component hcomponent)).1

theorem filterMap_joined : (segments (joined parts)).filterMap segmentComponent = parts := by
  by_cases hne : parts = []
  · subst hne
    rfl
  · rw [segments_joined h hne, List.filterMap_map]
    exact (List.filterMap_congr fun component hmem =>
      segmentComponent_asOsStr (h component hmem)).trans List.filterMap_some

theorem dot_notMem_segments : ['.'] ∉ segments (joined parts) := by
  by_cases hne : parts = []
  · simp [hne, joined, segments]
  · rw [segments_joined h hne, List.mem_map]
    rintro ⟨component, hmem, htext⟩
    exact (Component.Inner.plain (h component hmem)).2.2 htext

theorem head_joined : (joined parts).head? ≠ some '/' := by
  intro hhead
  obtain ⟨rest, hrest⟩ := List.head?_eq_some_iff.mp hhead
  have hne : parts ≠ [] := by
    rintro rfl
    cases hrest
  obtain ⟨component, parts, rfl⟩ := List.exists_cons_of_ne_nil hne
  have hsegments := segments_joined h hne
  rw [hrest, segments, List.splitOn_cons_eq_if_modifyHead] at hsegments
  exact (Component.Inner.plain (h component (by simp))).2.1 (List.cons.inj hsegments).1.symm

theorem components_joined : components (joined parts) = parts := by
  have hhead : (segments (joined parts)).head? ≠ some ['.'] :=
    fun hhead => dot_notMem_segments h (List.mem_of_mem_head? hhead)
  simp [components, startComponents, head_joined h, hhead, filterMap_joined h]

private theorem components_toText (hstart : IsStart start) :
    components (PathBuf.toText (start ++ parts).reverse) = start ++ parts ∧
      ['.'] ∉ segments (PathBuf.toText (start ++ parts).reverse) := by
  unfold PathBuf.toText
  rw [List.reverse_reverse]
  obtain rfl | rfl := hstart
  · split
    next hroot => simpa [Component.Inner] using h .rootDir (by simp_all)
    exact ⟨components_joined h, dot_notMem_segments h⟩
  · have hskip : segmentComponent [] = none := rfl
    have hsegments : segments ('/' :: joined parts) = [] :: segments (joined parts) :=
      List.splitOn_append_cons_self [] _
    simpa [components, startComponents, hsegments, hskip, filterMap_joined h]
      using dot_notMem_segments h

end Joined

/-! ## Locations -/

/-- Where a component leads from a directory, which is given by its names, the deepest first. -/
def lookup (directory : List Name) : Component → List Name
  | .rootDir => []
  | .curDir => directory
  | .parentDir => directory.tail
  | .normal name => name :: directory

/-- Where a path leads from a directory. -/
def resolve (directory : List Name) (path : List Char) : List Name :=
  (components path).foldl lookup directory

/-- How far above its start a path climbs. -/
def climb : List Component → Nat
  | [] => 0
  | .parentDir :: rest => climb rest + 1
  | .normal _ :: rest => climb rest - 1
  | _ :: rest => climb rest

/-- What the loop has built where the path has climbed `ups` times above its start and gone down
along `names` from there. -/
def built (start : List Component) (ups : Nat) (names : List Name) : PathBuf :=
  names.map .normal ++ (List.replicate (ups % 2) .parentDir ++ start)

private theorem normalizeComponent_climb (hstart : IsStart start) (ups : Nat) :
    normalizeComponent (built start ups []) .parentDir = built start (ups + 1) [] := by
  obtain h | h := Nat.mod_two_eq_zero_or_one ups
  · have hnext : (ups + 1) % 2 = 1 := by omega
    obtain rfl | rfl := hstart <;>
      simp [built, normalizeComponent, h, hnext, PathBuf.pop, PathBuf.push]
  · have hnext : (ups + 1) % 2 = 0 := by omega
    simp [built, normalizeComponent, h, hnext, PathBuf.pop]

/-- The loop keeps the names, but of the climbs only their parity. -/
theorem normalize_run (hstart : IsStart start) (h : ∀ component ∈ parts, component.Inner)
    (ups : Nat) (names : List Name) : ∃ names',
      parts.foldl normalizeComponent (built start ups names) =
        built start (ups + (climb parts - names.length)) names' ∧
      ∀ base : List Name, parts.foldl lookup (names ++ base.drop ups) =
        names' ++ base.drop (ups + (climb parts - names.length)) := by
  induction parts generalizing ups names with
  | nil => exact ⟨names, by simp [climb], by simp [climb]⟩
  | cons component parts ih =>
    have ih := ih fun other hmem => h other (by simp [hmem])
    obtain rfl | ⟨name, rfl⟩ := h component (by simp)
    · cases names with
      | nil =>
        obtain ⟨names', hbuilt, hlookup⟩ := ih (ups + 1) []
        refine ⟨names', ?_, fun base => ?_⟩
        · simpa [normalizeComponent_climb hstart, climb, Nat.add_assoc, Nat.add_comm 1] using hbuilt
        · simpa [lookup, climb, Nat.add_assoc, Nat.add_comm 1] using hlookup base
      | cons name names =>
        obtain ⟨names', hbuilt, hlookup⟩ := ih ups names
        have hpop : normalizeComponent (built start ups (name :: names)) .parentDir =
          built start ups names := by simp [built, normalizeComponent, PathBuf.pop]
        exact ⟨names', by simpa [hpop, climb] using hbuilt, by simpa [lookup, climb] using hlookup⟩
    · obtain ⟨names', hbuilt, hlookup⟩ := ih ups (name :: names)
      have hclimb : climb (.normal name :: parts) - names.length =
        climb parts - (name :: names).length := by simp [climb]; omega
      exact ⟨names', by rwa [hclimb], fun base => by rw [hclimb]; exact hlookup base⟩

/-! ## Normal forms -/

/-- An optional root, at most one `..`, and names. -/
def Settled (path : List Component) : Prop :=
  ∃ (start : List Component) (ups : Nat) (names : List Name), IsStart start ∧ ups ≤ 1 ∧
    path = start ++ (List.replicate ups .parentDir ++ names.map .normal)

theorem inner_of_mem {names : List Name}
    (h : component ∈ List.replicate ups .parentDir ++ names.map .normal) : component.Inner := by
  simp only [List.mem_append, List.mem_replicate, List.mem_map] at h
  obtain ⟨-, rfl⟩ | ⟨name, -, rfl⟩ := h
  · exact .inl rfl
  · exact .inr ⟨name, rfl⟩

theorem foldl_push (names : List Name) (buf : PathBuf) :
    (names.map .normal).foldl normalizeComponent buf = (names.map .normal).reverse ++ buf := by
  induction names generalizing buf with
  | nil => rfl
  | cons name names ih => simp [ih, normalizeComponent, PathBuf.push]

theorem foldl_lookup (names directory : List Name) :
    (names.map .normal).foldl lookup directory = names.reverse ++ directory := by
  induction names generalizing directory with
  | nil => rfl
  | cons name names ih => simp [ih, lookup]

/-- A path in normal form is left as it is, and its text reads back as it. -/
theorem Settled.normalized (h : Settled path) :
    path.foldl normalizeComponent [] = path.reverse ∧
      components (PathBuf.toText path.reverse) = path ∧
      ['.'] ∉ segments (PathBuf.toText path.reverse) := by
  obtain ⟨start, ups, names, hstart, hups, rfl⟩ := h
  refine ⟨?_, components_toText (fun _ hmem => inner_of_mem hmem) hstart⟩
  have hups : ups = 0 ∨ ups = 1 := by omega
  obtain rfl | rfl := hstart <;> obtain rfl | rfl := hups <;>
    simp [foldl_push, normalizeComponent, PathBuf.push, PathBuf.pop]

theorem normalized_spec (path : List Char) : ∃ start names, IsStart start ∧
    (isAbsolute path = true ↔ start = [.rootDir]) ∧
    (components path).foldl normalizeComponent [] = built start (climb (components path)) names ∧
    ∀ directory, resolve directory path =
      names ++ (start.foldl lookup directory).drop (climb (components path)) := by
  have hinner : ∀ component ∈ (segments path).filterMap segmentComponent, component.Inner := by
    intro component hmem
    obtain ⟨segment, -, hsegment⟩ := List.mem_filterMap.mp hmem
    exact segmentComponent_inner hsegment
  by_cases hroot : path.head? = some '/'
  · obtain ⟨names, hbuilt, hlookup⟩ := normalize_run (.inr rfl) hinner 0 []
    refine ⟨[.rootDir], names, .inr rfl, by simp [isAbsolute, hroot], ?_, fun directory => ?_⟩
    · simpa [components, startComponents, hroot, climb, built, normalizeComponent, PathBuf.push]
        using hbuilt
    · simpa [resolve, components, startComponents, hroot, climb, lookup] using hlookup []
  · obtain ⟨names, hbuilt, hlookup⟩ := normalize_run (.inl rfl) hinner 0 []
    refine ⟨[], names, .inl rfl, by simp [isAbsolute, hroot], ?_, fun directory => ?_⟩
    · unfold components startComponents
      split_ifs <;> simpa [climb, built, normalizeComponent] using hbuilt
    · have hlookup := hlookup directory
      unfold resolve components startComponents
      split_ifs <;> simpa [climb, lookup] using hlookup

theorem reverse_built (hstart : IsStart start) (ups : Nat) (names : List Name) :
    (built start ups names).reverse =
      start ++ (List.replicate (ups % 2) .parentDir ++ names.reverse.map .normal) := by
  obtain rfl | rfl := hstart <;> simp [built]

theorem settled_built (hstart : IsStart start) (ups : Nat) (names : List Name) :
    Settled (built start ups names).reverse :=
  ⟨start, ups % 2, names.reverse, hstart, by omega, reverse_built hstart ups names⟩

theorem components_of_built (hstart : IsStart start) (ups : Nat) (names : List Name) :
    components (PathBuf.toText (built start ups names)) = (built start ups names).reverse := by
  simpa using (settled_built hstart ups names).normalized.2.1

theorem resolve_built (hstart : IsStart start) (ups : Nat) (names directory : List Name) :
    resolve directory (PathBuf.toText (built start ups names)) =
      names ++ (start.foldl lookup directory).drop (ups % 2) := by
  have hclimb (n : Nat) (base : List Name) :
      (List.replicate n Component.parentDir).foldl lookup base = base.drop n := by
    induction n generalizing base with
    | zero => rfl
    | succ n ih => simp [List.replicate_succ, ih, lookup]
  rw [resolve, components_of_built hstart, reverse_built hstart]
  rw [List.foldl_append, List.foldl_append, hclimb, foldl_lookup, List.reverse_reverse]

/-- Normalization keeps the location of a path exactly where the path is absolute or does not climb
further than to the parent of its start; its other properties always hold. -/
theorem pathNormalizeString_iff (path : List Char) :
    ((∀ directory, resolve directory (pathNormalizeString path) = resolve directory path) ∧
      pathNormalizeString (pathNormalizeString path) = pathNormalizeString path ∧
      ['.'] ∉ segments (pathNormalizeString path) ∧
      (components (pathNormalizeString path)).Pairwise fun first second =>
        ∀ name, first = .normal name → second ≠ .parentDir) ↔
    isAbsolute path = true ∨ climb (components path) ≤ 1 := by
  obtain ⟨start, names, hstart, habsolute, hbuilt, hresolve⟩ := normalized_spec path
  have htext : pathNormalizeString path =
    PathBuf.toText (built start (climb (components path)) names) := congrArg PathBuf.toText hbuilt
  have hcomponents := components_of_built hstart (climb (components path)) names
  have hsettled := settled_built hstart (climb (components path)) names
  constructor
  · rintro ⟨hkeep, -⟩
    by_contra hneither
    obtain ⟨hrelative, hclimb⟩ := not_or.mp hneither
    obtain rfl : start = [] := hstart.resolve_right fun hroot => hrelative (habsolute.mpr hroot)
    -- a directory that is just deep enough tells the climbs from their parity
    have hlength := congrArg List.length
      (hkeep (List.replicate (climb (components path)) ⟨['a'], by simp⟩))
    rw [htext, resolve_built hstart, hresolve] at hlength
    simp at hlength
    omega
  · intro hcondition
    refine ⟨fun directory => ?_, ?_, ?_, ?_⟩
    · rw [htext, resolve_built hstart, hresolve]
      obtain hroot | hclimb := hcondition
      · simp [habsolute.mp hroot, lookup]
      · rw [Nat.mod_eq_of_lt (by omega)]
    · rw [htext, pathNormalizeString, hcomponents, hsettled.normalized.1, List.reverse_reverse]
    · simpa [htext] using hsettled.normalized.2.2
    · rw [htext, hcomponents, reverse_built hstart]
      have hnames : (names.reverse.map Component.normal).Pairwise fun first second =>
          ∀ name, first = .normal name → second ≠ .parentDir :=
        List.pairwise_map.mpr (List.pairwise_of_forall (by simp))
      obtain rfl | rfl := hstart <;>
        simpa [List.pairwise_append, List.pairwise_replicate] using hnames

/-- From `/a/b` the path `../..` leads to the root, but its normal form, which is empty, stays. -/
theorem pathNormalizeString_two_climbs : ∃ directory : List Name,
    resolve directory (pathNormalizeString ['.', '.', '/', '.', '.']) ≠
      resolve directory ['.', '.', '/', '.', '.'] :=
  ⟨[⟨['b'], by simp⟩, ⟨['a'], by simp⟩], by decide⟩

/-! ## Below a root -/

private theorem safe_run {path : List Component} (h : path.foldlM safeComponent buf = .ok buf') :
    ∃ names : List Name, buf' = (names.map .normal).reverse ++ buf ∧
      ∀ directory, path.foldl lookup directory = names.reverse ++ directory := by
  induction path generalizing buf with
  | nil => exact ⟨[], by simpa [pure, Except.pure] using h.symm, fun _ => rfl⟩
  | cons component path ih =>
    rw [List.foldlM_cons] at h
    cases component with
    | rootDir | parentDir => cases h
    | curDir => exact ih h
    | normal name =>
      obtain ⟨names, rfl, hlookup⟩ := ih h
      exact ⟨name :: names, by simp [PathBuf.push], fun directory => by simp [lookup, hlookup]⟩

/-- A relative path that is accepted is given by its names. -/
theorem pathSafeRelativeString_names (h : pathSafeRelativeString relative = .ok safe) :
    ∃ names : List Name, safe = joined (names.map .normal) ∧
      ∀ directory, resolve directory relative = names.reverse ++ directory := by
  unfold pathSafeRelativeString at h
  split_ifs at h
  obtain ⟨buf, hbuf, h⟩ : ∃ buf, (components relative).foldlM safeComponent [] = .ok buf ∧
      (if buf.toText = [] then .error "path must name a relative file or directory"
        else .ok buf.toText) = Except.ok safe := by
    cases hbuf : (components relative).foldlM safeComponent [] with
    | error => simp [hbuf, bind, Except.bind] at h
    | ok buf => exact ⟨buf, rfl, by simpa [hbuf, bind, Except.bind, pure, Except.pure] using h⟩
  obtain ⟨names, rfl, hlookup⟩ := safe_run hbuf
  split_ifs at h
  have htext : PathBuf.toText (names.map .normal).reverse = joined (names.map .normal) := by
    cases names <;> simp [PathBuf.toText]
  exact ⟨names, by simpa [htext] using h.symm, hlookup⟩

theorem startComponents_append (before after : List Char) :
    startComponents (before ++ '/' :: after) =
      if before = [] then [.rootDir] else startComponents before := by
  cases before with
  | nil => rfl
  | cons char before =>
    unfold startComponents segments
    rw [List.splitOn_append_cons_self, List.head?_append_of_ne_nil _ (List.splitOn_ne_nil '/' _)]
    simp

private theorem components_join (root : List Char) (h : ∀ component ∈ parts, component.Inner) :
    components (pathJoinString root (joined parts)) = components root ++ parts := by
  have hrelative : isAbsolute (joined parts) = false := by simpa [isAbsolute] using head_joined h
  have hskip : segments [] = [[]] ∧ segmentComponent [] = none := ⟨rfl, rfl⟩
  have hsegments (before after : List Char) :
      segments (before ++ '/' :: after) = segments before ++ segments after :=
    List.splitOn_append_cons_self before after
  unfold pathJoinString
  rw [if_neg (by simp [hrelative])]
  split_ifs with hroot
  · obtain rfl | hlast := hroot
    · exact components_joined h
    · obtain ⟨before, rfl⟩ := List.getLast?_eq_some_iff.mp hlast
      simp [components, startComponents_append, hsegments, filterMap_joined h, hskip]
  · simp [components, startComponents_append, hsegments, filterMap_joined h, not_or.mp hroot]

theorem Settled.of_start (h : Settled path) (hstarts : before <+: path) : Settled before := by
  obtain ⟨start, ups, names, hstart, hups, rfl⟩ := h
  rw [List.prefix_iff_eq_take] at hstarts
  generalize before.length = taken at hstarts
  refine ⟨start.take taken, min (taken - start.length) ups, names.take (taken - start.length - ups),
    ?_, by omega, ?_⟩
  · obtain rfl | rfl := hstart
    · exact .inl (by simp)
    · cases taken with
      | zero => exact .inl rfl
      | succ taken => exact .inr (by simp)
  · simp [hstarts, List.take_append, List.take_replicate]

/-- A resolved path is the path of the root followed by the names, where the root is a normal form;
no other root resolves a path. -/
theorem pathResolveRelativeString_eq (root : List Char) (names : List Name)
    (h : pathSafeRelativeString relative = .ok (joined (names.map .normal))) :
    (Settled (components root) → ∃ path, pathResolveRelativeString root relative = .ok path ∧
      components path = components root ++ names.map .normal) ∧
    ((∃ path, pathResolveRelativeString root relative = .ok path) → Settled (components root)) := by
  have hinner : ∀ component ∈ names.map Component.normal, component.Inner :=
    fun component hmem => @inner_of_mem component 0 names (by simpa using hmem)
  obtain ⟨start, names₀, hstart, -, hbuilt, -⟩ := normalized_spec root
  set ups := climb (components root)
  have hjoin : pathNormalizeString (pathJoinString root (joined (names.map .normal))) =
      PathBuf.toText (built start ups (names.reverse ++ names₀)) := by
    rw [pathNormalizeString, components_join root hinner, List.foldl_append, foldl_push, hbuilt]
    simp [built]
  have hcomponents := components_of_built hstart ups (names.reverse ++ names₀)
  have hresolve : pathResolveRelativeString root relative =
      if components root <+: (built start ups (names.reverse ++ names₀)).reverse
      then .ok (PathBuf.toText (built start ups (names.reverse ++ names₀)))
      else .error "resolved path escapes the workspace root" := by
    rw [← hcomponents, ← hjoin]
    simp [pathResolveRelativeString, h, bind, Except.bind, pure, Except.pure]
  constructor
  · intro hsettled
    have hroot : (built start ups names₀).reverse = components root := by
      rw [← hbuilt, hsettled.normalized.1, List.reverse_reverse]
    have hparts : (built start ups (names.reverse ++ names₀)).reverse =
        components root ++ names.map .normal := by simp [← hroot, built]
    exact ⟨_, by rw [hresolve, if_pos (by simp [hparts])], hcomponents.trans hparts⟩
  · rintro ⟨path, hpath⟩
    rw [hresolve] at hpath
    split_ifs at hpath with hstarts
    exact (settled_built hstart _ _).of_start hstarts

/-- A root resolves the paths below it exactly where it is a normal form. -/
theorem pathResolveRelativeString_iff (root : List Char) :
    ((∀ relative safe, pathSafeRelativeString relative = .ok safe →
        ∃ path, pathResolveRelativeString root relative = .ok path ∧
          ∀ directory, resolve directory path = resolve (resolve directory root) relative) ∧
      ∀ relative path, pathResolveRelativeString root relative = .ok path →
        ∃ below, ∀ directory, resolve directory path = below ++ resolve directory root) ↔
    Settled (components root) := by
  constructor
  · rintro ⟨hresolves, -⟩
    have hsafe : pathSafeRelativeString ['a'] = .ok (joined ([⟨['a'], by simp⟩].map .normal)) := by
      decide
    obtain ⟨path, hpath, -⟩ := hresolves ['a'] _ hsafe
    exact (pathResolveRelativeString_eq root _ hsafe).2 ⟨path, hpath⟩
  · intro hsettled
    have hbelow : ∀ relative safe, pathSafeRelativeString relative = .ok safe →
        ∃ path, pathResolveRelativeString root relative = .ok path ∧ ∃ below,
          ∀ directory, resolve directory path = below ++ resolve directory root ∧
            resolve (resolve directory root) relative = below ++ resolve directory root := by
      intro relative safe hsafe
      obtain ⟨names, rfl, hnames⟩ := pathSafeRelativeString_names hsafe
      obtain ⟨path, hpath, hcomponents⟩ := (pathResolveRelativeString_eq root names hsafe).1 hsettled
      refine ⟨path, hpath, names.reverse, fun directory => ⟨?_, hnames _⟩⟩
      rw [resolve, hcomponents, List.foldl_append, foldl_lookup]
      rfl
    refine ⟨fun relative safe hsafe => ?_, fun relative path hpath => ?_⟩
    · obtain ⟨path, hpath, below, hsame⟩ := hbelow relative safe hsafe
      exact ⟨path, hpath, fun directory => (hsame directory).1.trans (hsame directory).2.symm⟩
    · cases hsafe : pathSafeRelativeString relative with
      | error => simp [pathResolveRelativeString, hsafe, bind, Except.bind] at hpath
      | ok safe =>
        obtain ⟨path', hpath', below, hsame⟩ := hbelow relative safe hsafe
        obtain rfl := Except.ok.inj (hpath.symm.trans hpath')
        exact ⟨below, fun directory => (hsame directory).1⟩

/-- The root `.` refuses the file `a` in it. -/
theorem pathResolveRelativeString_dot : pathSafeRelativeString ['a'] = .ok ['a'] ∧
    pathResolveRelativeString ['.'] ['a'] = .error "resolved path escapes the workspace root" := by
  decide

end RSScript.Vm.PathString
