import Mathlib.Data.List.Sort
import Mathlib.Data.Set.Basic
import RSScript.Lib.LineFormat

/-!
# Lock hashes

`package_checksum`, `effective_interface_hash` and `package_review_hash`: three
texts built field by field, each field closed by a line end, each hashed. The
sources are listed by relative path; an interface source enters by its
comment-free formatting.

Two things come from outside and are parameters: the formatter and the hash.

A hash identifies what was fed to it only up to the layout of the text. Two
inputs with one hash cover the same data exactly when they are alike: equal
numbers of line ends field by field, equal numbers of entries list by list, and
the same optional fields present.
-/

namespace RSScript.Review

open LineFormat Format String

inductive PackageFileKind where
  | interface
  | source
  | test
  deriving DecidableEq, Repr

/-- A file of a package. -/
structure PackageSource where
  path : String
  relativePath : String
  contents : String
  kind : PackageFileKind
  deriving DecidableEq, Repr

structure LoadedPackage where
  manifestSource : String
  sources : List PackageSource
  deriving Repr

inductive PackageRisk where
  | low
  | elevated
  | high
  | unknown
  deriving DecidableEq, Repr

def packageRiskLabel : PackageRisk → String
  | .low => "low"
  | .elevated => "elevated"
  | .high => "high"
  | .unknown => "unknown"

inductive PackageReviewAwaitBoundary where
  | runtimePending
  | nativePending
  | rssCall
  | unknown
  deriving DecidableEq, Repr

def awaitBoundaryHashLabel : PackageReviewAwaitBoundary → String
  | .runtimePending => "runtime_pending"
  | .nativePending => "native_pending"
  | .rssCall => "rss_call"
  | .unknown => "unknown"

structure PackageIdentity where
  name : String
  version : String
  edition : String
  deriving DecidableEq, Repr

structure PackageProviderImplementation where
  interfacePackage : String
  version : Option String
  interfaceFeatures : List String
  interfaceEffectiveHash : Option String
  deriving DecidableEq, Repr

/-- The counts that enter the hash. -/
structure PackageReviewSummary where
  interfaceFiles : Nat
  sourceFiles : Nat
  diagnostics : Nat
  errors : Nat
  dependencies : Nat
  devDependencies : Nat
  packageFeatures : Nat
  publicTypes : Nat
  publicSumTypes : Nat
  publicTypeAliases : Nat
  publicConsts : Nat
  publicFunctions : Nat
  publicApis : Nat
  mutatingApis : Nat
  retainingApis : Nat
  resourceApis : Nat
  freshReturningApis : Nat
  nativeApis : Nat
  asyncApis : Nat
  awaitSites : Nat
  unsafeApis : Nat
  unknownApis : Nat
  deriving DecidableEq, Repr

structure PackageReviewExport where
  kind : String
  name : String
  classification : String
  functionKind : Option String
  retainedParams : List String
  reasons : List String
  deriving DecidableEq, Repr

structure Span where
  file : String
  line : Nat
  column : Nat
  length : Nat
  deriving DecidableEq, Repr

structure PackageReviewAwaitSite where
  function : String
  callee : Option String
  boundary : PackageReviewAwaitBoundary
  liveAcrossAwait : List String
  span : Span
  deriving DecidableEq, Repr

structure PackageNativeRustUnsafePolicies where
  rssUnsafeApis : Option String
  wrapperUnsafeBlocks : Option String
  transitiveUnsafeBlocks : Option String
  deriving DecidableEq, Repr

structure PackageNativeRustReview where
  path : String
  crateName : Option String
  buildScripts : Option String
  procMacros : Option String
  unsafePolicies : PackageNativeRustUnsafePolicies
  links : List String
  deriving DecidableEq, Repr

structure Diagnostic where
  code : String
  summary : String
  deriving DecidableEq, Repr

structure PackageExternalBinding where
  bindingSymbol : String
  category : String
  provider : Option String
  service : Option String
  action : Option String
  resource : Option String
  deriving DecidableEq, Repr

/-- The part of a review that `package_review_hash` reads. -/
structure PackageReview where
  package : PackageIdentity
  risk : PackageRisk
  reasons : List String
  implements : List PackageProviderImplementation
  summary : PackageReviewSummary
  exports : List PackageReviewExport
  awaitSites : List PackageReviewAwaitSite
  nativeRust : Option PackageNativeRustReview
  diagnostics : List Diagnostic
  externalBindings : List PackageExternalBinding
  deriving DecidableEq, Repr

/-! ## The hashed texts -/

/-- A field and the line end that closes it. -/
def pushLine (input text : String) : String := input ++ text ++ "\n"

section Sources

variable (formatSourceWithoutComments : String → String → String)

/-- What enters the hash of a source: its relative path, and its contents as they
are hashed. -/
def PackageSource.hashed (source : PackageSource) : String × String :=
  (source.relativePath,
    if source.kind = .interface then formatSourceWithoutComments source.path source.contents
    else source.contents)

def byRelativePath (left right : PackageSource) : Prop := left.relativePath ≤ right.relativePath

instance : DecidableRel byRelativePath := fun _ _ => inferInstanceAs (Decidable (_ ≤ _))

/-- Sources in the order of their relative paths. -/
def appendSourcesHashInput (input : String) (sources : List PackageSource) : String :=
  (sources.insertionSort byRelativePath).foldl
    (fun input source =>
      let hashed := source.hashed formatSourceWithoutComments
      pushLine (pushLine input hashed.1) hashed.2)
    input

/-- The text that `package_checksum` hashes. -/
def packageChecksumInput (package : LoadedPackage) (nativeHash : Option String) : String :=
  let input := "manifest\n" ++ package.manifestSource ++ "\nsources\n"
  let input := appendSourcesHashInput formatSourceWithoutComments input package.sources
  match nativeHash with
  | some nativeHash => input ++ "\nnative\n" ++ nativeHash
  | none => input

/-- `Vec::dedup`: neighbours that are equal are merged. -/
def dedup : List String → List String
  | [] => []
  | [text] => [text]
  | first :: second :: rest =>
    if first = second then dedup (second :: rest) else first :: dedup (second :: rest)

def interfaceSources (sources : List PackageSource) : List PackageSource :=
  sources.filter (·.kind = .interface)

/-- The text that `effective_interface_hash` hashes. -/
def effectiveInterfaceHashInput (sources : List PackageSource) (features : List String) : String :=
  let filtered := interfaceSources sources
  let features := dedup (features.insertionSort (· ≤ ·))
  let input := features.foldl pushLine "features\n"
  appendSourcesHashInput formatSourceWithoutComments (input ++ "interfaces\n") filtered

end Sources

def PackageReviewSummary.counts (summary : PackageReviewSummary) : List Nat :=
  [summary.interfaceFiles, summary.sourceFiles, summary.diagnostics, summary.errors,
    summary.dependencies, summary.devDependencies, summary.packageFeatures, summary.publicTypes,
    summary.publicSumTypes, summary.publicTypeAliases, summary.publicConsts,
    summary.publicFunctions, summary.publicApis, summary.mutatingApis, summary.retainingApis,
    summary.resourceApis, summary.freshReturningApis, summary.nativeApis, summary.asyncApis,
    summary.awaitSites, summary.unsafeApis, summary.unknownApis]

def pushOptional (input : String) (text : Option String) : String := pushLine input (text.getD "")

def pushImplementation (input : String) (implementation : PackageProviderImplementation) :
    String :=
  let input := pushLine input implementation.interfacePackage
  let input := pushOptional input implementation.version
  let input := implementation.interfaceFeatures.foldl pushLine input
  pushOptional input implementation.interfaceEffectiveHash

def pushExport (input : String) (exported : PackageReviewExport) : String :=
  let input := pushLine input exported.kind
  let input := pushLine input exported.name
  let input := pushLine input exported.classification
  let input := pushOptional input exported.functionKind
  let input := exported.retainedParams.foldl pushLine input
  exported.reasons.foldl pushLine input

def pushAwaitSite (input : String) (site : PackageReviewAwaitSite) : String :=
  let input := pushLine input site.function
  let input := pushOptional input site.callee
  let input := pushLine input (awaitBoundaryHashLabel site.boundary)
  let input := site.liveAcrossAwait.foldl pushLine input
  let input := pushLine input site.span.file
  input ++ writeNumbers [site.span.line, site.span.column, site.span.length]

def pushNative (input : String) (native : PackageNativeRustReview) : String :=
  let input := pushLine input native.path
  let input := pushOptional input native.crateName
  let input := pushOptional input native.buildScripts
  let input := pushOptional input native.procMacros
  let input := pushOptional input native.unsafePolicies.rssUnsafeApis
  let input := pushOptional input native.unsafePolicies.wrapperUnsafeBlocks
  let input := pushOptional input native.unsafePolicies.transitiveUnsafeBlocks
  native.links.foldl pushLine input

def pushDiagnostic (input : String) (diagnostic : Diagnostic) : String :=
  pushLine (pushLine input diagnostic.code) diagnostic.summary

def pushExternalBinding (input : String) (binding : PackageExternalBinding) : String :=
  let input := pushLine input binding.bindingSymbol
  let input := pushLine input binding.category
  let input := pushOptional input binding.provider
  let input := pushOptional input binding.service
  let input := pushOptional input binding.action
  pushOptional input binding.resource

/-- The text that `package_review_hash` hashes. -/
def packageReviewHashInput (review : PackageReview) : String :=
  let input := pushLine "" review.package.name
  let input := pushLine input review.package.version
  let input := pushLine input review.package.edition
  let input := pushLine input (packageRiskLabel review.risk)
  let input := review.reasons.foldl pushLine input
  let input := review.implements.foldl pushImplementation input
  let input := input ++ writeNumbers review.summary.counts
  let input := review.exports.foldl pushExport input
  let input := review.awaitSites.foldl pushAwaitSite input
  let input :=
    match review.nativeRust with
    | some native => pushNative input native
    | none => input
  let input := review.diagnostics.foldl pushDiagnostic input
  review.externalBindings.foldl pushExternalBinding input

section Hashes

variable (formatSourceWithoutComments : String → String → String) (sha256Label : String → String)

def packageChecksum (package : LoadedPackage) (nativeHash : Option String) : String :=
  sha256Label (packageChecksumInput formatSourceWithoutComments package nativeHash)

def effectiveInterfaceHash (sources : List PackageSource) (features : List String) : String :=
  sha256Label (effectiveInterfaceHashInput formatSourceWithoutComments sources features)

def packageReviewHash (review : PackageReview) : String :=
  sha256Label (packageReviewHashInput review)

end Hashes

/-! ## The texts as formats -/

/-- A loop that pushes entries writes them one after the other. -/
theorem foldl_push (format : Format α) (push : String → α → String)
    (hpush : ∀ input a, push input a = input ++ format.write a) :
    entries.foldl push input = input ++ format.many.write entries := by
  induction entries generalizing input with
  | nil => simp [many, writeAll]
  | cons a entries ih =>
    rw [List.foldl_cons, ih, hpush, append_assoc]
    rfl

theorem pushLine_eq (input text : String) : pushLine input text = input ++ Format.line.write text :=
  append_assoc

theorem pushOptional_eq : pushOptional input text = input ++ Format.optionalLine.write text :=
  append_assoc

theorem foldl_pushLine : texts.foldl pushLine input = input ++ Format.line.many.write texts :=
  foldl_push line pushLine pushLine_eq

def sourceFormat : Format (String × String) := Format.line.both Format.line

/-- The sources as they are hashed: by relative path. -/
def hashedSources (formatSourceWithoutComments : String → String → String)
    (sources : List PackageSource) : List (String × String) :=
  (sources.insertionSort byRelativePath).map (·.hashed formatSourceWithoutComments)

def pushSource (input : String) (hashed : String × String) : String :=
  pushLine (pushLine input hashed.1) hashed.2

private theorem pushSource_eq (input : String) (hashed : String × String) :
    pushSource input hashed = input ++ sourceFormat.write hashed := by
  unfold pushSource
  rw [pushLine_eq, pushLine_eq, append_assoc]
  rfl

variable (sources : List PackageSource) (features : List String)

section Covered

variable (format : String → String → String)

theorem appendSourcesHashInput_eq : appendSourcesHashInput format input sources
      = input ++ sourceFormat.many.write (hashedSources format sources) := by
  rw [hashedSources, ← foldl_push sourceFormat pushSource pushSource_eq, List.foldl_map]
  rfl

/-- The manifest and the sources of a checksum; the native hash follows them. -/
def checksumFormat : Format (String × List (String × String)) :=
  ((Format.literal "manifest\n").both
    (Format.line.both ((Format.literal "sources\n").both sourceFormat.many))).via
    (fun covered => ((), covered.1, (), covered.2))
    (fun left right h => by
      obtain ⟨manifest, sources⟩ := left
      obtain ⟨manifest', sources'⟩ := right
      simpa using h)

def nativeSection : Option String → String
  | some nativeHash => "\nnative\n" ++ nativeHash
  | none => ""

theorem nativeSection_injective (h : nativeSection left = nativeSection right) : left = right := by
  cases left <;> cases right <;> simp_all [nativeSection]

theorem packageChecksumInput_eq : packageChecksumInput format package nativeHash
      = checksumFormat.write
          (package.manifestSource, hashedSources format package.sources)
        ++ nativeSection nativeHash := by
  have hsources : "\nsources\n" = "\n" ++ "sources\n" := rfl
  unfold packageChecksumInput
  simp only [appendSourcesHashInput_eq]
  cases nativeHash <;>
    simp only [nativeSection, checksumFormat, via, both, literal, line,
      append_assoc, append_empty, append_right_inj] <;>
    rw [hsources, append_assoc]

/-- The features as they are hashed: in order and without repetition. -/
def hashedFeatures (features : List String) : List String :=
  dedup (features.insertionSort (· ≤ ·))

def interfaceFormat : Format (List String × List (String × String)) :=
  ((Format.literal "features\n").both
    (Format.line.many.both ((Format.literal "interfaces\n").both sourceFormat.many))).via
    (fun covered => ((), covered.1, (), covered.2))
    (fun left right h => by
      obtain ⟨features, sources⟩ := left
      obtain ⟨features', sources'⟩ := right
      simpa using h)

theorem effectiveInterfaceHashInput_eq : effectiveInterfaceHashInput format sources features
      = interfaceFormat.write (hashedFeatures features,
          hashedSources format (interfaceSources sources)) := by
  unfold effectiveInterfaceHashInput
  simp only [appendSourcesHashInput_eq, foldl_pushLine]
  simp [interfaceFormat, hashedFeatures, via, both, literal, append_assoc]

end Covered

def riskFormat : Format PackageRisk :=
  Format.line.via packageRiskLabel (fun left right h => by
    cases left <;> cases right <;> simp [packageRiskLabel] at h ⊢)

def boundaryFormat : Format PackageReviewAwaitBoundary :=
  Format.line.via awaitBoundaryHashLabel (fun left right h => by
    cases left <;> cases right <;> simp [awaitBoundaryHashLabel] at h ⊢)

def identityFormat : Format PackageIdentity :=
  (Format.line.both (Format.line.both Format.line)).via
    (fun identity => (identity.name, identity.version, identity.edition))
    (by rintro ⟨⟩ ⟨⟩ h; simpa using h)

def implementationFormat : Format PackageProviderImplementation :=
  (Format.line.both
    (Format.optionalLine.both (Format.line.many.both Format.optionalLine))).via
    (fun implementation => (implementation.interfacePackage, implementation.version,
      implementation.interfaceFeatures, implementation.interfaceEffectiveHash))
    (by rintro ⟨⟩ ⟨⟩ h; simpa using h)

def summaryFormat : Format PackageReviewSummary :=
  Format.numbers.via PackageReviewSummary.counts
    (by rintro ⟨⟩ ⟨⟩ h; simpa [PackageReviewSummary.counts] using h)

def exportFormat : Format PackageReviewExport :=
  (Format.line.both (Format.line.both (Format.line.both (Format.optionalLine.both
    (Format.line.many.both Format.line.many))))).via
    (fun exported => (exported.kind, exported.name, exported.classification,
      exported.functionKind, exported.retainedParams, exported.reasons))
    (by rintro ⟨⟩ ⟨⟩ h; simpa using h)

def spanFormat : Format Span :=
  (Format.line.both Format.numbers).via
    (fun span => (span.file, [span.line, span.column, span.length]))
    (by rintro ⟨⟩ ⟨⟩ h; simpa using h)

def awaitSiteFormat : Format PackageReviewAwaitSite :=
  (Format.line.both (Format.optionalLine.both (boundaryFormat.both
    (Format.line.many.both spanFormat)))).via
    (fun site => (site.function, site.callee, site.boundary, site.liveAcrossAwait, site.span))
    (by rintro ⟨⟩ ⟨⟩ h; simpa using h)

def policiesFormat : Format PackageNativeRustUnsafePolicies :=
  (Format.optionalLine.both (Format.optionalLine.both Format.optionalLine)).via
    (fun policies => (policies.rssUnsafeApis, policies.wrapperUnsafeBlocks,
      policies.transitiveUnsafeBlocks))
    (by rintro ⟨⟩ ⟨⟩ h; simpa using h)

def nativeFormat : Format PackageNativeRustReview :=
  (Format.line.both (Format.optionalLine.both (Format.optionalLine.both
    (Format.optionalLine.both (policiesFormat.both Format.line.many))))).via
    (fun native => (native.path, native.crateName, native.buildScripts, native.procMacros,
      native.unsafePolicies, native.links))
    (by rintro ⟨⟩ ⟨⟩ h; simpa using h)

def diagnosticFormat : Format Diagnostic :=
  (Format.line.both Format.line).via (fun diagnostic => (diagnostic.code, diagnostic.summary))
    (by rintro ⟨⟩ ⟨⟩ h; simpa using h)

def externalBindingFormat : Format PackageExternalBinding :=
  (Format.line.both (Format.line.both (Format.optionalLine.both (Format.optionalLine.both
    (Format.optionalLine.both Format.optionalLine))))).via
    (fun binding => (binding.bindingSymbol, binding.category, binding.provider, binding.service,
      binding.action, binding.resource))
    (by rintro ⟨⟩ ⟨⟩ h; simpa using h)

def reviewFormat : Format PackageReview :=
  (identityFormat.both (riskFormat.both (Format.line.many.both (implementationFormat.many.both
    (summaryFormat.both (exportFormat.many.both (awaitSiteFormat.many.both
      (nativeFormat.present.both (diagnosticFormat.many.both externalBindingFormat.many))))))))).via
    (fun review => (review.package, review.risk, review.reasons, review.implements,
      review.summary, review.exports, review.awaitSites, review.nativeRust, review.diagnostics,
      review.externalBindings))
    (by rintro ⟨⟩ ⟨⟩ h; simpa using h)

theorem pushImplementation_eq (input : String) (implementation : PackageProviderImplementation) :
    pushImplementation input implementation
      = input ++ implementationFormat.write implementation := by
  simp only [pushImplementation, pushLine_eq, pushOptional_eq, foldl_pushLine, append_assoc]
  rfl

private theorem pushExport_eq (input : String) (exported : PackageReviewExport) :
    pushExport input exported = input ++ exportFormat.write exported := by
  simp only [pushExport, pushLine_eq, pushOptional_eq, foldl_pushLine, append_assoc]
  rfl

private theorem pushAwaitSite_eq (input : String) (site : PackageReviewAwaitSite) :
    pushAwaitSite input site = input ++ awaitSiteFormat.write site := by
  simp only [pushAwaitSite, pushLine_eq, pushOptional_eq, foldl_pushLine, append_assoc]
  rfl

private theorem pushNative_eq : pushNative input native = input ++ nativeFormat.write native := by
  simp only [pushNative, pushLine_eq, pushOptional_eq, foldl_pushLine, nativeFormat, policiesFormat,
    via, both, append_assoc]

private theorem pushDiagnostic_eq (input : String) (diagnostic : Diagnostic) :
    pushDiagnostic input diagnostic = input ++ diagnosticFormat.write diagnostic := by
  simp only [pushDiagnostic, pushLine_eq, append_assoc]
  rfl

private theorem pushExternalBinding_eq (input : String) (binding : PackageExternalBinding) :
    pushExternalBinding input binding = input ++ externalBindingFormat.write binding := by
  simp only [pushExternalBinding, pushLine_eq, pushOptional_eq, append_assoc]
  rfl

theorem packageReviewHashInput_eq : packageReviewHashInput review = reviewFormat.write review := by
  have hnative : ∀ input : String,
      (match review.nativeRust with
        | some native => pushNative input native
        | none => input) = input ++ nativeFormat.present.write review.nativeRust := by
    intro input
    cases review.nativeRust with
    | none => simp [present]
    | some native => exact pushNative_eq
  simp only [packageReviewHashInput, hnative,
    foldl_push _ _ pushImplementation_eq, foldl_push _ _ pushExport_eq,
    foldl_push _ _ pushAwaitSite_eq, foldl_push _ _ pushDiagnostic_eq,
    foldl_push _ _ pushExternalBinding_eq, foldl_pushLine, pushLine_eq, append_assoc,
    reviewFormat, identityFormat, riskFormat, summaryFormat, via, both, numbers, empty_append]

/-! ## Sets and hashed lists -/

theorem mem_dedup : text ∈ dedup texts ↔ text ∈ texts := by
  induction texts using dedup.induct with
  | case1 => simp [dedup]
  | case2 first => simp [dedup]
  | case3 first rest ih =>
    rw [dedup, if_pos rfl, ih]
    simp
  | case4 first second rest hne ih =>
    rw [dedup, if_neg hne, List.mem_cons, ih]
    simp

private theorem pairwise_dedup (h : texts.Pairwise (· ≤ ·)) : (dedup texts).Pairwise (· < ·) := by
  induction texts using dedup.induct with
  | case1 => simp [dedup]
  | case2 first => simp [dedup]
  | case3 first rest ih =>
    rw [dedup, if_pos rfl]
    exact ih h.of_cons
  | case4 first second rest hne ih =>
    rw [dedup, if_neg hne, List.pairwise_cons]
    refine ⟨fun text hmem => ?_, ih h.of_cons⟩
    have hmem := (mem_dedup).mp hmem
    have hfirst : first < second := lt_of_le_of_ne (List.rel_of_pairwise_cons h (by simp)) hne
    rcases List.mem_cons.mp hmem with rfl | hrest
    · exact hfirst
    · exact hfirst.trans_le (List.rel_of_pairwise_cons h.of_cons hrest)

theorem mem_hashedFeatures : feature ∈ hashedFeatures features ↔ feature ∈ features := by
  rw [hashedFeatures, mem_dedup, (List.perm_insertionSort _ features).mem_iff]

theorem pairwise_hashedFeatures : (hashedFeatures features).Pairwise (· < ·) :=
  pairwise_dedup (List.pairwise_insertionSort (· ≤ ·) features)

/-- Equal sets of features are hashed as one list. -/
theorem hashedFeatures_eq_iff :
    hashedFeatures left = hashedFeatures right ↔ ∀ feature, feature ∈ left ↔ feature ∈ right := by
  constructor
  · intro h feature
    rw [← mem_hashedFeatures left, h, mem_hashedFeatures]
  · intro h
    apply (pairwise_hashedFeatures left).eq_of_mem_iff (pairwise_hashedFeatures right)
    intro feature
    rw [mem_hashedFeatures, mem_hashedFeatures, h]

section Entries

variable (format : String → String → String)

theorem mem_hashedSources : entry ∈ hashedSources format sources
      ↔ entry ∈ sources.map (·.hashed format) :=
  ((List.perm_insertionSort byRelativePath sources).map _).mem_iff

/-- No two sources of a package have the same relative path. -/
def DistinctPaths (sources : List PackageSource) : Prop :=
  (sources.map PackageSource.relativePath).Nodup

theorem pairwise_hashedSources {sources : List PackageSource} (h : DistinctPaths sources) :
    (hashedSources format sources).Pairwise (·.1 < ·.1) := by
  have hperm := List.perm_insertionSort byRelativePath sources
  have hsorted : (sources.insertionSort byRelativePath).Pairwise byRelativePath := by
    have htotal : Std.Total byRelativePath := ⟨fun left right => le_total _ _⟩
    have htrans : IsTrans PackageSource byRelativePath := ⟨fun _ _ _ => le_trans⟩
    exact List.pairwise_insertionSort byRelativePath sources
  have hdistinct : (sources.insertionSort byRelativePath).Pairwise
      (fun left right => left.relativePath ≠ right.relativePath) :=
    List.pairwise_map.mp ((hperm.map PackageSource.relativePath).nodup_iff.mpr h)
  refine List.pairwise_map.mpr ((hsorted.and hdistinct).imp ?_)
  intro left right hboth
  exact lt_of_le_of_ne hboth.1 hboth.2

/-- Packages without repeated paths that hold the same entries are hashed as one
list. -/
theorem hashedSources_eq_of_same (hleft : DistinctPaths left) (hright : DistinctPaths right)
    (h : ∀ entry, entry ∈ left.map (·.hashed format) ↔ entry ∈ right.map (·.hashed format)) :
    hashedSources format left
      = hashedSources format right := by
  apply (pairwise_hashedSources format hleft).eq_of_mem_iff
    (pairwise_hashedSources format hright)
  intro entry
  rw [mem_hashedSources, mem_hashedSources, h]

theorem same_of_hashedSources_eq (h : hashedSources format left = hashedSources format right)
    (entry : String × String) : entry ∈ left.map (·.hashed format)
      ↔ entry ∈ right.map (·.hashed format) := by
  rw [← mem_hashedSources, h, mem_hashedSources]

end Entries

/-! ## What the hashes identify -/

section Identified

section

variable (formatSourceWithoutComments : String → String → String)

/-- Two packages with their native hashes cover the same data. -/
structure SamePackage (package package' : LoadedPackage) (nativeHash nativeHash' : Option String) :
    Prop where
  manifest : package.manifestSource = package'.manifestSource
  sources : ∀ entry, entry ∈ package.sources.map (·.hashed formatSourceWithoutComments)
    ↔ entry ∈ package'.sources.map (·.hashed formatSourceWithoutComments)
  native : nativeHash = nativeHash'

/-- Two selections of features and interfaces are the same. -/
structure SameInterface (sources sources' : List PackageSource) (features features' : List String) :
    Prop where
  features : ∀ feature, feature ∈ features ↔ feature ∈ features'
  interfaces : ∀ entry,
    entry ∈ (interfaceSources sources).map (·.hashed formatSourceWithoutComments)
      ↔ entry ∈ (interfaceSources sources').map (·.hashed formatSourceWithoutComments)

/-- The manifests have equally many line ends, and so have path and contents of
the sources, pairwise in the hashed order. -/
def AlikePackage (package package' : LoadedPackage) : Prop :=
  checksumFormat.Alike
    (package.manifestSource, hashedSources formatSourceWithoutComments package.sources)
    (package'.manifestSource, hashedSources formatSourceWithoutComments package'.sources)

def AlikeInterface (sources sources' : List PackageSource) (features features' : List String) :
    Prop :=
  interfaceFormat.Alike
    (hashedFeatures features,
      hashedSources formatSourceWithoutComments (interfaceSources sources))
    (hashedFeatures features',
      hashedSources formatSourceWithoutComments (interfaceSources sources'))

end

variable {sources : List PackageSource} {features : List String}

private theorem samePackage_of_alike (hsha : Function.Injective sha256Label)
    (h : packageChecksum format sha256Label package nativeHash
      = packageChecksum format sha256Label package' nativeHash')
    (halike : AlikePackage format package package') :
    SamePackage format package package' nativeHash nativeHash' := by
  have htext := hsha h
  rw [packageChecksumInput_eq, packageChecksumInput_eq] at htext
  obtain ⟨hcovered, hnative⟩ := checksumFormat.separates halike htext
  obtain ⟨hmanifest, hsources⟩ := Prod.mk.inj hcovered
  exact ⟨hmanifest, same_of_hashedSources_eq _ hsources, nativeSection_injective hnative⟩

private theorem alike_of_samePackage (hpaths : DistinctPaths package.sources)
    (hpaths' : DistinctPaths package'.sources)
    (h : SamePackage format package package' nativeHash nativeHash') :
    AlikePackage format package package' := by
  unfold AlikePackage
  rw [h.manifest, hashedSources_eq_of_same _ hpaths hpaths' h.sources]
  exact checksumFormat.alike_refl _

private theorem sameInterface_of_alike (hsha : Function.Injective sha256Label)
    (h : effectiveInterfaceHash format sha256Label sources features
      = effectiveInterfaceHash format sha256Label sources' features')
    (halike : AlikeInterface format sources sources' features features') :
    SameInterface format sources sources' features features' := by
  have htext := hsha h
  rw [effectiveInterfaceHashInput_eq, effectiveInterfaceHashInput_eq] at htext
  obtain ⟨hfeatures, hsources⟩ :=
    Prod.mk.inj (interfaceFormat.write_injective_of_alike halike htext)
  exact ⟨hashedFeatures_eq_iff.mp hfeatures, same_of_hashedSources_eq _ hsources⟩

private theorem alike_of_sameInterface (hpaths : DistinctPaths (interfaceSources sources))
    (hpaths' : DistinctPaths (interfaceSources sources'))
    (h : SameInterface format sources sources' features features') :
    AlikeInterface format sources sources' features features' := by
  unfold AlikeInterface
  rw [hashedFeatures_eq_iff.mpr h.features, hashedSources_eq_of_same _ hpaths hpaths' h.interfaces]
  exact interfaceFormat.alike_refl _

private theorem review_eq_iff_alike (hsha : Function.Injective sha256Label)
    (h : packageReviewHash sha256Label review = packageReviewHash sha256Label review') :
    review = review' ↔ reviewFormat.Alike review review' := by
  have htext := hsha h
  rw [packageReviewHashInput_eq, packageReviewHashInput_eq] at htext
  constructor
  · rintro rfl
    exact reviewFormat.alike_refl review
  · intro halike
    exact reviewFormat.write_injective_of_alike halike htext

end Identified

/-- Inputs with one hash cover the same data exactly when they are alike. For
sources the data are sets, so that being alike is forced only where no relative
path is repeated. -/
theorem lockHashes_identify_alike_inputs
    (formatSourceWithoutComments : String → String → String) (sha256Label : String → String)
    (hsha : Function.Injective sha256Label) :
    (∀ package package' nativeHash nativeHash',
      packageChecksum formatSourceWithoutComments sha256Label package nativeHash
        = packageChecksum formatSourceWithoutComments sha256Label package' nativeHash' →
      (AlikePackage formatSourceWithoutComments package package' →
        SamePackage formatSourceWithoutComments package package' nativeHash nativeHash') ∧
      (DistinctPaths package.sources → DistinctPaths package'.sources →
        SamePackage formatSourceWithoutComments package package' nativeHash nativeHash' →
        AlikePackage formatSourceWithoutComments package package')) ∧
    (∀ sources sources' features features',
      effectiveInterfaceHash formatSourceWithoutComments sha256Label sources features
        = effectiveInterfaceHash formatSourceWithoutComments sha256Label sources' features' →
      (AlikeInterface formatSourceWithoutComments sources sources' features features' →
        SameInterface formatSourceWithoutComments sources sources' features features') ∧
      (DistinctPaths (interfaceSources sources) → DistinctPaths (interfaceSources sources') →
        SameInterface formatSourceWithoutComments sources sources' features features' →
        AlikeInterface formatSourceWithoutComments sources sources' features features')) ∧
    (∀ review review' : PackageReview,
      packageReviewHash sha256Label review = packageReviewHash sha256Label review' →
      (review = review' ↔ reviewFormat.Alike review review')) := by
  refine ⟨?_, ?_, ?_⟩
  · intro package package' nativeHash nativeHash' h
    exact ⟨samePackage_of_alike hsha h, alike_of_samePackage⟩
  · intro sources sources' features features' h
    exact ⟨sameInterface_of_alike hsha h, alike_of_sameInterface⟩
  · intro review review' h
    exact review_eq_iff_alike hsha h

/-! ### Inputs that collide

Two files, and one file whose contents spell the second file's path; two features
that one name spells; a retained parameter and a reason, which stand in two lists
with nothing between them. -/

def sourceNamed (name contents : String) : PackageSource :=
  { path := name, relativePath := name, contents, kind := .source }

def twoFiles : LoadedPackage :=
  { manifestSource := "", sources := [sourceNamed "a.rss" "x", sourceNamed "b.rss" "y"] }

def oneFile : LoadedPackage :=
  { manifestSource := "", sources := [sourceNamed "a.rss" "x\nb.rss\ny"] }

def emptySummary : PackageReviewSummary :=
  { interfaceFiles := 0, sourceFiles := 0, diagnostics := 0, errors := 0, dependencies := 0,
    devDependencies := 0, packageFeatures := 0, publicTypes := 0, publicSumTypes := 0,
    publicTypeAliases := 0, publicConsts := 0, publicFunctions := 0, publicApis := 0,
    mutatingApis := 0, retainingApis := 0, resourceApis := 0, freshReturningApis := 0,
    nativeApis := 0, asyncApis := 0, awaitSites := 0, unsafeApis := 0, unknownApis := 0 }

def reviewOfExport (retainedParams reasons : List String) : PackageReview :=
  { package := { name := "demo", version := "0.1.0", edition := "2024" }
    risk := .low
    reasons := []
    implements := []
    summary := emptySummary
    exports := [{
      kind := "function", name := "keep", classification := "retaining", functionKind := none
      retainedParams, reasons }]
    awaitSites := []
    nativeRust := none
    diagnostics := []
    externalBindings := [] }

/-- A line end inside a field, or an entry that could be of either of two lists, leaves no trace. -/
theorem lockHashes_collide :
    (packageChecksum (fun _ contents => contents) id twoFiles none
        = packageChecksum (fun _ contents => contents) id oneFile none ∧
      ¬SamePackage (fun _ contents => contents) twoFiles oneFile none none) ∧
    (effectiveInterfaceHash (fun _ contents => contents) id [] ["a", "b"]
        = effectiveInterfaceHash (fun _ contents => contents) id [] ["a\nb"] ∧
      ¬SameInterface (fun _ contents => contents) [] [] ["a", "b"] ["a\nb"]) ∧
    (packageReviewHash id (reviewOfExport ["value"] [])
        = packageReviewHash id (reviewOfExport [] ["value"]) ∧
      reviewOfExport ["value"] [] ≠ reviewOfExport [] ["value"]) := by
  refine ⟨⟨rfl, fun h => ?_⟩, ⟨rfl, fun h => ?_⟩, ⟨rfl, by decide⟩⟩
  · have hmem := (h.sources ("b.rss", "y")).mp (by simp [twoFiles, sourceNamed, PackageSource.hashed])
    exact absurd hmem (by simp [oneFile, sourceNamed, PackageSource.hashed])
  · exact absurd ((h.features "a").mp (by simp)) (by simp)

def twoFilesReversed : LoadedPackage := { twoFiles with sources := twoFiles.sources.reverse }

theorem lockHashes_identify_reordered_sources :
    SamePackage (fun _ contents => contents) twoFiles twoFilesReversed (some "native")
      (some "native") :=
  ((lockHashes_identify_alike_inputs (fun _ contents => contents) id Function.injective_id).1
    twoFiles twoFilesReversed (some "native") (some "native") rfl).1 (checksumFormat.alike_refl _)

end RSScript.Review
