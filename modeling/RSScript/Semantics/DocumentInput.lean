import Mathlib.Data.List.Nodup
import Mathlib.Data.List.Perm.Subperm
import Mathlib.Logic.Relation
import Mathlib.Order.Bounds.Basic
import RSScript.Lib.Saturation
import RSScript.Syntax.Items

/-!
# The files a document is analysed with

`semantic_document_input` selects the sources that imports lead to from a document through
sources, and the interfaces that they lead to through interfaces. The selection is closed under
imports only where no file needs a chain through both kinds (`selected_isLeast_iff`).
-/

namespace RSScript.Semantics

open Syntax Saturation List

/-! ### The module graph -/

structure ModuleHeader where
  modules : List String
  imports : List String

def dotted (path : List String) : Option String :=
  if path = [] then none else some (".".intercalate path)

def moduleHeaderFromProgram (program : Program) : ModuleHeader where
  modules := program.items.filterMap fun item =>
    match item with
    | .module decl => dotted decl.path
    | _ => none
  imports := program.items.filterMap fun item =>
    match item with
    | .use decl => dotted decl.path
    | _ => none

structure WorkspaceModuleNode where
  path : String
  isInterface : Bool
  modules : List String
  imports : List String
  deriving DecidableEq

/-- `trim_end_matches`, on the reversed text. -/
def trimMatches (ending : List Char) : Nat → List Char → List Char
  | 0, text => text
  | fuel + 1, text =>
    if ending <+: text then trimMatches ending fuel (text.drop ending.length) else text

def interfaceFilenameModule (path : String) : Option String :=
  let name := path.toList.reverse.takeWhile (· ≠ '/')
  let fallback := trimMatches "ssr.".toList name.length (trimMatches "issr.".toList name.length name)
  if fallback = [] then none else some (String.ofList fallback.reverse)

def importMatchesModule (imported module : String) : Bool :=
  imported = module ∨ module.toList <+: imported.toList ∧
    (imported.toList.drop module.length).head? ∈ [some '.', some '\x7b']

/-- The files of a session; a store has one file at a path. -/
structure Workspace where
  sources : List (String × Program)
  interfaces : List (String × Program)
  sourcePaths : (sources.map Prod.fst).Nodup
  interfacePaths : (interfaces.map Prod.fst).Nodup

def sourceNode (file : String × Program) : WorkspaceModuleNode :=
  let header := moduleHeaderFromProgram file.2
  ⟨file.1, false, header.modules, header.imports⟩

/-- An interface without a module declaration has the module of its file name. -/
def interfaceNode (file : String × Program) : WorkspaceModuleNode :=
  let header := moduleHeaderFromProgram file.2
  ⟨file.1, true, if header.modules = [] then (interfaceFilenameModule file.1).toList
    else header.modules, header.imports⟩

def Workspace.graph (workspace : Workspace) : List WorkspaceModuleNode :=
  workspace.sources.map sourceNode ++ workspace.interfaces.map interfaceNode

def visit (currentPath : String) (isInterface : Bool) (seen : List String × List String)
    (node : WorkspaceModuleNode) : List String × List String :=
  if node.isInterface = isInterface ∧ node.path ≠ currentPath ∧ node.path ∉ seen.1 ∧
      node.modules.any (fun module => seen.2.any (importMatchesModule · module)) then
    (seen.1 ++ [node.path], seen.2 ++ node.imports)
  else seen

/-- Every round but the last adds the path of a file, so that as many rounds as files and one
more are enough. -/
def visiblePaths (nodes : List WorkspaceModuleNode) (currentPath : String)
    (rootImports : List String) (isInterface : Bool) : List String :=
  (saturate (visit currentPath isInterface) nodes (nodes.length + 1) ([], rootImports)).1

def rootImports (nodes : List WorkspaceModuleNode) (isInterface : Bool) (path : String) :
    List String :=
  ((nodes.find? fun node => node.isInterface = isInterface ∧ node.path = path).map
    (·.imports)).getD []

structure SemanticDocumentInput where
  path : String
  program : Program
  sources : List (String × Program)
  interfaces : List (String × Program)

/-- The selection for a source document. -/
def semanticDocumentInput (workspace : Workspace) (file : String × Program) :
    SemanticDocumentInput where
  path := file.1
  program := file.2
  sources :=
    let paths := visiblePaths workspace.graph file.1 (rootImports workspace.graph false file.1) false
    workspace.sources.filter fun candidate => candidate.1 ≠ file.1 ∧ candidate.1 ∈ paths
  interfaces :=
    let paths := visiblePaths workspace.graph file.1 (rootImports workspace.graph false file.1) true
    workspace.interfaces.filter fun candidate => candidate.1 ≠ file.1 ∧ candidate.1 ∈ paths

/-- The selected files. -/
def SemanticDocumentInput.selected (input : SemanticDocumentInput) : List WorkspaceModuleNode :=
  sourceNode (input.path, input.program) ::
    (input.sources.map sourceNode ++ input.interfaces.map interfaceNode)

/-! ### What is visible -/

namespace Workspace

/-- A source document of the workspace. -/
abbrev Document (workspace : Workspace) := {file // file ∈ workspace.sources}

def Document.node {workspace : Workspace} (document : workspace.Document) : WorkspaceModuleNode :=
  sourceNode document.1

variable (workspace : Workspace)

def Imports (node target : WorkspaceModuleNode) : Prop :=
  target ∈ workspace.graph ∧
    ∃ imported ∈ node.imports, ∃ module ∈ target.modules, importMatchesModule imported module

/-- An import of a file of one kind that is not at the document's path. -/
def ImportsKind (document : WorkspaceModuleNode) (isInterface : Bool)
    (node target : WorkspaceModuleNode) : Prop :=
  workspace.Imports node target ∧ target.isInterface = isInterface ∧ target.path ≠ document.path

def ImportClosed (document : WorkspaceModuleNode) (files : Set WorkspaceModuleNode) : Prop :=
  document ∈ files ∧ ∀ node ∈ files, ∀ target, workspace.Imports node target → target ∈ files

variable {workspace} {node : WorkspaceModuleNode} {seen : List String × List String}

theorem node_eq (hnode : node ∈ workspace.graph) (hother : other ∈ workspace.graph)
    (hkind : node.isInterface = other.isInterface) (hpath : node.path = other.path) :
    node = other := by
  rcases mem_append.mp hnode with h | h <;> rcases mem_append.mp hother with h' | h' <;>
    obtain ⟨file, hfile, rfl⟩ := mem_map.mp h <;>
    obtain ⟨file', hfile', rfl⟩ := mem_map.mp h'
  · rw [inj_on_of_nodup_map workspace.sourcePaths hfile hfile' hpath]
  · cases hkind
  · cases hkind
  · rw [inj_on_of_nodup_map workspace.interfacePaths hfile hfile' hpath]

section Visible

variable (workspace) (document : WorkspaceModuleNode) (isInterface : Bool)

/-- Imports of one kind lead from the document to a file. -/
abbrev Leads : WorkspaceModuleNode → Prop :=
  Relation.TransGen (workspace.ImportsKind document isInterface) document

/-- What was seen are the paths and the imports of files that imports lead to. -/
def Visible (seen : List String × List String) : Prop :=
  ∃ found : List WorkspaceModuleNode,
    seen = (found.map (·.path), document.imports ++ found.flatMap (·.imports)) ∧
      (found.map (·.path)).Nodup ∧ ∀ node ∈ found, workspace.Leads document isInterface node

variable {workspace document isInterface}

theorem Leads.last (h : workspace.Leads document isInterface node) :
    node ∈ workspace.graph ∧ node.isInterface = isInterface ∧ node.path ≠ document.path := by
  obtain ⟨_, -, hlast⟩ := Relation.TransGen.tail'_iff.mp h
  exact ⟨hlast.1.1, hlast.2⟩

theorem Visible.visit (h : workspace.Visible document isInterface seen)
    (hnode : node ∈ workspace.graph) :
    workspace.Visible document isInterface (visit document.path isInterface seen node) := by
  unfold Semantics.visit
  split
  case isFalse => exact h
  case isTrue hguard =>
    obtain ⟨hkind, hpath, hnew, hmatch⟩ := hguard
    obtain ⟨found, rfl, hnodup, hleads⟩ := h
    simp only [any_eq_true] at hmatch
    obtain ⟨module, hmodule, imported, himported, hmatch⟩ := hmatch
    have hstep {source : WorkspaceModuleNode} (hsource : imported ∈ source.imports) :
        workspace.ImportsKind document isInterface source node :=
      ⟨⟨hnode, imported, hsource, module, hmodule, hmatch⟩, hkind, hpath⟩
    refine ⟨found ++ [node], by simp, ?_, fun other hother => ?_⟩
    · rw [map_append]
      exact hnodup.append (nodup_singleton _) (by simpa using hnew)
    · rcases mem_append.mp hother with hother | hother
      · exact hleads other hother
      · obtain rfl := mem_singleton.mp hother
        rcases mem_append.mp himported with hroot | hfound
        · exact .single (hstep hroot)
        · obtain ⟨source, hsource, himported⟩ := mem_flatMap.mp hfound
          exact (hleads source hsource).tail (hstep himported)

theorem Visible.length_le (h : workspace.Visible document isInterface seen) :
    seen.1.length ≤ workspace.graph.length := by
  obtain ⟨found, rfl, hnodup, hleads⟩ := h
  rw [← length_map WorkspaceModuleNode.path]
  exact (hnodup.subperm (map_subset _ fun node hnode => (hleads node hnode).last.1)).length_le

variable (document) in
theorem mem_visiblePaths (hnode : node ∈ workspace.graph) (hkind : node.isInterface = isInterface) :
    node.path ∈ visiblePaths workspace.graph document.path document.imports isInterface ↔
      workspace.Leads document isInterface node := by
  obtain ⟨⟨found, hseen, -, hleads⟩, hfixed⟩ := saturate_spec
    (fun _ _ => by unfold visit; split; exacts [.inr (by simp), .inl rfl]) (fun _ h _ hnode => Visible.visit h hnode)
    (fun _ h => h.length_le)
    (show workspace.Visible document isInterface ([], document.imports) from ⟨[], by simp, .nil, nofun⟩)
    (Nat.lt_add_left 0 (Nat.lt_succ_self _))
  have hmem {other : WorkspaceModuleNode} (hother : other ∈ workspace.graph)
      (hkind : other.isInterface = isInterface) :
      other.path ∈ found.map (·.path) ↔ other ∈ found := by
    refine ⟨fun h => ?_, fun h => mem_map_of_mem h⟩
    obtain ⟨same, hsame, hpath⟩ := mem_map.mp h
    obtain ⟨hgraph, hkind', -⟩ := (hleads same hsame).last
    rwa [← node_eq hgraph hother (hkind'.trans hkind.symm) hpath]
  -- No import of the kind is left to follow after the last round.
  have hfollow {source target : WorkspaceModuleNode}
      (h : workspace.ImportsKind document isInterface source target)
      (hsource : source.imports ⊆ document.imports ++ found.flatMap (·.imports)) :
      target ∈ found := by
    obtain ⟨⟨htarget, imported, himported, module, hmodule, hmatch⟩, hkind, hpath⟩ := h
    have hvisit := hfixed target htarget
    rw [hseen] at hvisit
    by_contra hnew
    rw [visit, if_pos ⟨hkind, hpath, mt (hmem htarget hkind).mp hnew, by
      simp only [any_eq_true]
      exact ⟨module, hmodule, imported, hsource himported, hmatch⟩⟩] at hvisit
    simpa using congrArg Prod.fst hvisit
  rw [visiblePaths, hseen, hmem hnode hkind]
  refine ⟨hleads node, fun hreach => ?_⟩
  clear hnode hkind
  induction hreach with
  | single h => exact hfollow h (subset_append_left _ _)
  | tail _ h ih =>
    exact hfollow h fun _ himport => mem_append_right _ (mem_flatMap.mpr ⟨_, ih, himport⟩)

end Visible

/-! ### What is selected -/

variable (document : workspace.Document)

theorem Document.mem_graph : document.node ∈ workspace.graph :=
  mem_append_left _ (mem_map_of_mem document.2)

theorem rootImports_document :
    rootImports workspace.graph false document.1.1 = document.node.imports := by
  cases hfind : workspace.graph.find? fun node =>
      node.isInterface = false ∧ node.path = document.1.1 with
  | none =>
    have hnone := find?_eq_none.mp hfind document.node document.mem_graph
    simp [Document.node, sourceNode] at hnone
  | some node =>
    have hnode : node.isInterface = false ∧ node.path = document.1.1 := by
      simpa using find?_some hfind
    rw [rootImports, hfind, node_eq (mem_of_find?_eq_some hfind) document.mem_graph hnode.1 hnode.2]
    rfl

theorem mem_selected :
    node ∈ (semanticDocumentInput workspace document.1).selected ↔ node = document.node ∨
      workspace.Leads document.node node.isInterface node := by
  simp only [SemanticDocumentInput.selected, semanticDocumentInput, rootImports_document,
    mem_cons, mem_append, mem_map, mem_filter, decide_eq_true_eq]
  refine or_congr Iff.rfl ⟨?_, fun hreach => ?_⟩
  · rintro (⟨file, ⟨hfile, -, hmem⟩, rfl⟩ | ⟨file, ⟨hfile, -, hmem⟩, rfl⟩)
    · refine (mem_visiblePaths document.node ?_ rfl).mp hmem
      exact mem_append_left _ (mem_map_of_mem hfile)
    · refine (mem_visiblePaths document.node ?_ rfl).mp hmem
      exact mem_append_right _ (mem_map_of_mem hfile)
  · obtain ⟨hgraph, -, hpath⟩ := hreach.last
    have hmem := (mem_visiblePaths document.node hgraph rfl).mpr hreach
    rcases mem_append.mp hgraph with h | h <;> obtain ⟨file, hfile, rfl⟩ := mem_map.mp h
    · exact .inl ⟨file, ⟨hfile, hpath, hmem⟩, rfl⟩
    · exact .inr ⟨file, ⟨hfile, hpath, hmem⟩, rfl⟩

end Workspace

/-- The selection is the least set of files with the document that is closed under imports if and
only if every file that imports lead to from the document is led to through files of its own
kind, none of them at the path of the document. -/
theorem selected_isLeast_iff (workspace : Workspace) (document : workspace.Document) :
    IsLeast {files | workspace.ImportClosed document.node files}
        {node | node ∈ (semanticDocumentInput workspace document.1).selected} ↔
      ∀ target, Relation.ReflTransGen workspace.Imports document.node target →
        target = document.node ∨ workspace.Leads document.node target.isInterface target := by
  have hleast : IsLeast {files | workspace.ImportClosed document.node files}
      {node | Relation.ReflTransGen workspace.Imports document.node node} := by
    refine ⟨⟨.refl, fun node hnode target h => hnode.tail h⟩, fun files hfiles node hnode => ?_⟩
    induction hnode with
    | refl => exact hfiles.1
    | tail _ h ih => exact hfiles.2 _ ih _ h
  have hsound : ∀ node ∈ (semanticDocumentInput workspace document.1).selected,
      Relation.ReflTransGen workspace.Imports document.node node := by
    intro node hnode
    rcases (Workspace.mem_selected document).mp hnode with rfl | hreach
    · exact .refl
    · exact hreach.to_reflTransGen.lift id fun _ _ h => h.1
  constructor
  · intro h target hreach
    exact (Workspace.mem_selected document).mp (hleast.2 h.1 hreach)
  · intro h
    have hselected : {node | node ∈ (semanticDocumentInput workspace document.1).selected} =
        {node | Relation.ReflTransGen workspace.Imports document.node node} :=
      Set.ext fun node => ⟨hsound node, fun hreach =>
        (Workspace.mem_selected document).mpr (h node hreach)⟩
    rw [hselected]
    exact hleast

/-- A program of one module with its imports. -/
def moduleOf (path : List String) (imports : List (List String)) : Program where
  protocols := []
  protocolImpls := []
  items := .module ⟨path, ""⟩ :: imports.map fun path => .use ⟨path, none, false, ""⟩

/-- The source `app` imports the source `util`, which imports the interface `host`. -/
def crossing : Workspace where
  sources := [("app.rss", moduleOf ["app"] [["util"]]), ("util.rss", moduleOf ["util"] [["host"]])]
  interfaces := [("host.rssi", moduleOf ["host"] [])]
  sourcePaths := by decide
  interfacePaths := by decide

/-- The analysis of `app` is without the interface. -/
theorem crossing_not_closed :
    ¬ IsLeast {files | crossing.ImportClosed (sourceNode crossing.sources[0]) files}
      {node | node ∈ (semanticDocumentInput crossing crossing.sources[0]).selected} := by
  intro h
  have hutil := h.1.2 _ h.1.1 (sourceNode crossing.sources[1])
    (by unfold Workspace.Imports; decide +kernel)
  have hhost := h.1.2 _ hutil (interfaceNode crossing.interfaces[0])
    (by unfold Workspace.Imports; decide +kernel)
  exact absurd hhost (by decide +kernel)

end RSScript.Semantics
