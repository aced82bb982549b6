import RSScript.Semantics.TypeNames
import RSScript.Syntax.Ast

/-!
# Fresh returns

A function that promises a `fresh` result may return literals, constructions, the results
of `fresh` functions, and locals that nothing else holds. The lowering of a `return` sums its
value up in one proof, and the ownership flow is asked about that proof only.

The ownership flow itself is not modelled: the states at the statements are arbitrary, and
so are the resolution of calls and the kinds of fields. Nothing is said here about values
that reach a return through a local; whether that local is clean is the flow's to say. An
issue carries the position of its return, where the source points at the value returned.
-/

namespace RSScript.Semantics

open Syntax

/-- What a returned value says for itself. -/
inductive HirReturnProof where
  | noValue
  | ident (name : String)
  | structConstructor
  | freshCall
  | literal
  | unknown
  deriving DecidableEq, Repr

inductive CallResolution where
  | resolved (returnsFresh constructsStruct : Bool)
  | enumVariant
  | ambiguous
  | unknown

structure HirFieldAccess where
  isHandle : Bool
  isWeak : Bool

def calleeName : Callee → String
  | .name name | .qualified _ name => typeRootName name
  | .receiverCall _ method _ => method

def isReceiverCall : Callee → Bool
  | .receiverCall _ _ _ => true
  | _ => false

/-- What the declarations, and the types of the local values, decide at a place. -/
structure ReturnFacts where
  isVariant : String → Bool
  /-- The name of a value: neither an inlined constant nor a payload-free case. -/
  isBinding : String → Bool
  resolve : Callee → CallResolution
  access : Expr → String → HirFieldAccess
  builtin_cases : ∀ callee, isReceiverCall callee = false →
    calleeName callee ∈ ["Ok", "Some", "Err", "None"] → resolve callee = .enumVariant

/-- The facts inside of a returned value, under the names that are bound there. A name that
is bound hides the local of that name, and the types of the bindings decide what receiver calls
and fields mean. A call by name is resolved among the declarations. -/
structure ScopedFacts where
  within : List String → ReturnFacts
  isVariant_within : ∀ bound, (within bound).isVariant = (within []).isVariant
  isBinding_within : ∀ bound name,
    (within bound).isBinding name = (decide (name ∈ bound) || (within []).isBinding name)
  resolve_within : ∀ bound callee, isReceiverCall callee = false →
    (within bound).resolve callee = (within []).resolve callee

namespace ReturnFacts

variable (facts : ReturnFacts)

/-! ### The proof of a value -/

def classifyCall (callee : Callee) : HirReturnProof :=
  match facts.resolve callee with
  | .resolved _ true => .structConstructor
  | .resolved true false => .freshCall
  | .enumVariant => .literal
  | .resolved false false | .ambiguous | .unknown => .unknown

mutual

/-- `classify_return_expr`: the first arm stands for a match, the first argument for `Ok`. -/
def classifyReturnExpr : Expr → HirReturnProof
  | .ident name =>
    if name = "true" ∨ name = "false" ∨ facts.isVariant name then .literal else .ident name
  | .call callee args =>
    if calleeName callee ∈ ["Err", "None"] then .noValue
    else if calleeName callee ∈ ["Ok", "Some"] then classifyFirst (facts.classifyCall callee) args
    else facts.classifyCall callee
  | .effect _ value | .manage value | .spawn value | .await value | .try value =>
    classifyReturnExpr value
  | .match _ _ arms => classifyFirstArm arms
  | .objectLiteral _ | .mapLiteral _ | .arrayLiteral _ => .freshCall
  | .number _ | .string _ | .charLiteral _ | .multilineString _ => .literal
  | .field _ _ | .index _ _ | .binary _ _ _ | .closure _ _ | .unknown => .unknown

def classifyFirst (absent : HirReturnProof) : List (Option String × Expr) → HirReturnProof
  | [] => absent
  | (_, value) :: _ => classifyReturnExpr value

def classifyFirstArm : List MatchArm → HirReturnProof
  | [] => .unknown
  | .mk _ _ body :: _ => classifyBlockReturnExpr body

/-- The last statement decides. -/
def classifyBlockReturnExpr : List Stmt → HirReturnProof
  | [] => .noValue
  | [statement] => classifyStmt statement
  | _ :: rest => classifyBlockReturnExpr rest

def classifyStmt : Stmt → HirReturnProof
  | .return none => .noValue
  | .return (some value) | .expr value => classifyReturnExpr value
  | .let _ _ _ _ _ | .letElse _ _ _ _ | .assign _ _ => .noValue
  | _ => .unknown

end

/-! ### Projections of the lowered value -/

def freshWrapperCallee : Callee → Bool
  | .name name => name = "Ok" || name = "Some"
  | _ => false

/-- The local at the base of a field path. -/
def freshFieldAccessBase : Expr → Option String
  | .field base name =>
    let access := facts.access base name
    if access.isHandle || access.isWeak then none else freshFieldAccessBase base
  | .ident name => if facts.isBinding name then some name else none
  | .call callee ((_, value) :: _) =>
    if freshWrapperCallee callee then freshFieldAccessBase value else none
  | .effect _ value | .spawn value | .await value | .try value => freshFieldAccessBase value
  | _ => none

def freshExprPath : Expr → Option String
  | .ident name => if facts.isBinding name then some name else none
  | .field base name => (freshExprPath base).map (· ++ "." ++ name)
  | .effect _ value | .try value => freshExprPath value
  | _ => none

def freshHandleOrWeakFieldPath : Expr → Option String
  | .field base name =>
    let access := facts.access base name
    if access.isHandle || access.isWeak then
      some ((facts.freshExprPath base).getD "<expr>" ++ "." ++ name)
    else freshHandleOrWeakFieldPath base
  | .call callee ((_, value) :: _) =>
    if freshWrapperCallee callee then freshHandleOrWeakFieldPath value else none
  | .effect _ value | .spawn value | .await value | .try value => freshHandleOrWeakFieldPath value
  | _ => none

/-- A literal, or a call that makes a value of its own. -/
def constructed : Expr → Bool
  | .ident name => name = "true" || name = "false" || !facts.isBinding name
  | .call callee _ => facts.classifyCall callee ≠ .unknown
  | .objectLiteral _ | .mapLiteral _ | .arrayLiteral _ => true
  | .number _ | .string _ | .charLiteral _ | .multilineString _ => true
  | _ => false

end ReturnFacts

/-! ### The values a return may yield -/

/-- An expression whose value may become the value of the whole, under the names that are bound
between the return and itself. -/
structure Leaf where
  value : Expr
  bound : List String
  /-- The classification looks at it, and takes it for what it is. -/
  examined : Bool

def Leaf.overlook (leaf : Leaf) : Leaf :=
  { leaf with examined := false }

/-- The names that a statement binds for those after it. -/
def boundByStmt : Stmt → List String
  | .let _ name _ _ destructure => name :: destructure.getD []
  | .letElse pattern _ _ bindingName => bindingName :: pattern.bindingNames
  | _ => []

namespace ScopedFacts

open ReturnFacts

variable (facts : ScopedFacts)

mutual

def leaves (bound : List String) : Expr → List Leaf
  | .ident name =>
    [⟨.ident name, bound,
      name ∉ bound && !((facts.within []).isVariant name && (facts.within []).isBinding name)⟩]
  | .call callee args =>
    let named := calleeName callee ∈ ["Ok", "Some", "Err", "None"]
    if isReceiverCall callee then [⟨.call callee args, bound, bound.isEmpty && !named⟩]
    else if calleeName callee ∈ ["Ok", "Some"] then
      leavesFirst bound ⟨.call callee args, bound, true⟩ args
    else [⟨.call callee args, bound, true⟩]
  | .effect _ value | .manage value | .spawn value | .await value | .try value => leaves bound value
  | .match _ _ arms => leavesArms bound arms
  | value => [⟨value, bound, true⟩]

def leavesFirst (bound : List String) (absent : Leaf) : List (Option String × Expr) → List Leaf
  | [] => [absent]
  | (_, value) :: _ => leaves bound value

/-- Only the first arm is looked at. -/
def leavesArms (bound : List String) : List MatchArm → List Leaf
  | [] => []
  | .mk pattern _ body :: arms =>
    leavesBlock (pattern.bindingNames ++ bound) body ++ (leavesArms bound arms).map Leaf.overlook

def leavesBlock (bound : List String) : List Stmt → List Leaf
  | [] => []
  | [statement] => leavesStmt bound statement
  | statement :: rest => leavesBlock (boundByStmt statement ++ bound) rest

def leavesStmt (bound : List String) : Stmt → List Leaf
  | .return (some value) | .expr value => leaves bound value
  | .if _ thenBody (some elseBody) => leavesBlock bound thenBody ++ leavesBlock bound elseBody
  | .match _ _ arms => leavesArms bound arms
  | _ => []

end

/-- The leaf makes a value of its own, where it stands. -/
def Constructed (leaf : Leaf) : Prop := (facts.within leaf.bound).constructed leaf.value = true

instance decidableConstructed : DecidablePred facts.Constructed := fun _ => inferInstanceAs (Decidable (_ = true))

/-- The leaf is a local, or an inline field of one, that was there before the return. -/
def IsOuter (leaf : Leaf) (name : String) : Prop :=
  (facts.within leaf.bound).freshFieldAccessBase leaf.value = some name ∧ name ∉ leaf.bound

/-- The proof speaks for the leaves that were examined. -/
def Spoken (proof : HirReturnProof) (leaves : List Leaf) : Prop :=
  proof ≠ .unknown → ∀ leaf ∈ leaves, leaf.examined = true →
    facts.Constructed leaf ∨ ∃ name, proof = .ident name ∧ leaf.value = .ident name ∧
      name ∉ leaf.bound

theorem classifyCall_within (receiver : isReceiverCall callee = false) :
    (facts.within bound).classifyCall callee = (facts.within []).classifyCall callee := by
  rw [classifyCall, facts.resolve_within bound callee receiver]
  rfl

attribute [local simp] Spoken Constructed constructed leaves classifyReturnExpr

mutual

theorem spoken_expr (bound : List String) : ∀ value,
    facts.Spoken ((facts.within []).classifyReturnExpr value) (facts.leaves bound value)
  | .ident name => by
    have binding := facts.isBinding_within bound name
    by_cases outer : name ∈ bound
    · simp [outer]
    · by_cases variant : (facts.within []).isVariant name
      · simp +contextual [variant, binding, outer]
      · by_cases literal : name = "true" ∨ name = "false"
        · rcases literal with rfl | rfl
          · simp
          · simp
        · simp [variant, not_or.mp literal, outer]
  | .call callee args => by
    by_cases receiver : isReceiverCall callee
    · by_cases named : calleeName callee ∈ ["Ok", "Some", "Err", "None"]
      · simp [receiver, named]
      · simp only [List.mem_cons, not_or] at named
        simp +contextual [receiver, named]
    · replace receiver : isReceiverCall callee = false := by simpa using receiver
      have built := (facts.within []).builtin_cases callee receiver
      have same : (facts.within bound).classifyCall callee = _ := facts.classifyCall_within receiver
      have alone : facts.Spoken ((facts.within []).classifyCall callee)
          [⟨.call callee args, bound, true⟩] := by
        simp +contextual [same]
      by_cases wraps : calleeName callee ∈ ["Ok", "Some"]
      · have first := spoken_first bound alone args
        have not_absent : calleeName callee ∉ ["Err", "None"] := by
          rcases (by simpa using wraps : calleeName callee = "Ok" ∨ calleeName callee = "Some")
            with is | is
          · simp [is]
          · simp [is]
        rw [classifyReturnExpr, leaves, if_neg not_absent, if_pos wraps, receiver, if_pos wraps]
        exact first
      · by_cases absent : calleeName callee ∈ ["Err", "None"]
        · have resolved : (facts.within []).resolve callee = .enumVariant := built (by simp_all)
          have literal : (facts.within []).classifyCall callee = .literal := by
            simp [classifyCall, resolved]
          simp [receiver, wraps, same, literal]
        · rw [classifyReturnExpr, leaves, if_neg absent, if_neg wraps, receiver, if_neg wraps]
          exact alone
  | .effect _ value | .manage value | .spawn value | .await value | .try value => by
    simpa only [classifyReturnExpr, leaves] using spoken_expr bound value
  | .match _ _ arms => by simpa only [classifyReturnExpr, leaves] using spoken_arms bound arms
  | .objectLiteral _ | .mapLiteral _ | .arrayLiteral _ => by simp
  | .number _ | .string _ | .charLiteral _ | .multilineString _ => by simp
  | .field _ _ | .index _ _ | .binary _ _ _ | .closure _ _ | .unknown => by simp

theorem spoken_first (bound : List String) {absent : HirReturnProof} {leaf : Leaf}
    (alone : facts.Spoken absent [leaf]) : ∀ args,
    facts.Spoken ((facts.within []).classifyFirst absent args) (facts.leavesFirst bound leaf args)
  | [] => by simpa only [classifyFirst, leavesFirst] using alone
  | (_, value) :: _ => by simpa only [classifyFirst, leavesFirst] using spoken_expr bound value

theorem spoken_arms (bound : List String) : ∀ arms,
    facts.Spoken ((facts.within []).classifyFirstArm arms) (facts.leavesArms bound arms)
  | [] => by simp [leavesArms]
  | .mk pattern _ body :: arms => by
    intro known leaf mem examined
    rw [leavesArms, List.mem_append, List.mem_map] at mem
    obtain mem | ⟨_, -, rfl⟩ := mem
    · exact spoken_block _ body known leaf mem examined
    · cases examined

theorem spoken_block (bound : List String) : ∀ body,
    facts.Spoken ((facts.within []).classifyBlockReturnExpr body) (facts.leavesBlock bound body)
  | [] => by simp [leavesBlock]
  | [statement] => by
    simpa only [classifyBlockReturnExpr, leavesBlock] using spoken_stmt bound statement
  | _ :: next :: rest => by
    simpa only [classifyBlockReturnExpr, leavesBlock] using spoken_block _ (next :: rest)

theorem spoken_stmt (bound : List String) : ∀ statement,
    facts.Spoken ((facts.within []).classifyStmt statement) (facts.leavesStmt bound statement)
  | .return (some value) | .expr value => by
    simpa only [classifyStmt, leavesStmt] using spoken_expr bound value
  | .return none | .let _ _ _ _ _ | .letElse _ _ _ _ | .assign _ _ => by simp [leavesStmt]
  | .with _ _ _ | .if _ _ _ | .loop _ _ | .for _ _ _ | .match _ _ _ | .taskGroup _ | .select _
  | .break | .continue | .unknown => by simp [classifyStmt]

end

theorem typeRootName_wrapper (wrapper : freshWrapperCallee callee) :
    isReceiverCall callee = false ∧ calleeName callee ∈ ["Ok", "Some"] := by
  unfold freshWrapperCallee at wrapper
  split at wrapper
  · simp only [Bool.or_eq_true, decide_eq_true_eq] at wrapper
    rcases wrapper with rfl | rfl
    · decide +kernel
    · decide +kernel
  · cases wrapper

/-- A field path has one leaf, which is under no binding. -/
theorem isOuter_of_base {value name}
    (base : (facts.within []).freshFieldAccessBase value = some name) :
    ∀ leaf ∈ facts.leaves [] value, facts.IsOuter leaf name := by
  fun_induction freshFieldAccessBase (facts.within []) value with
  | case2 path field access plain =>
    simp only [leaves, List.mem_singleton, forall_eq, IsOuter]
    rw [freshFieldAccessBase, if_neg plain, base]
    simp
  | case3 => simp_all [freshFieldAccessBase, IsOuter]
  | case5 callee label value args wrapper ih =>
    have ⟨receiver, wraps⟩ := typeRootName_wrapper wrapper
    rw [leaves, receiver, if_pos wraps]
    exact ih base
  | case7 _ _ ih | case8 _ ih | case9 _ ih | case10 _ ih => simpa only [leaves] using ih base
  | _ => cases base

end ScopedFacts

/-! ### The flow -/

/-- What the ownership flow knows at a statement. -/
structure LocalFlowState where
  isLocal : String → Bool
  isManaged : String → Bool
  isCleanLocal : String → Bool
  isFreshReturnableLocal : String → Bool

inductive FreshReturnIssueKind where
  | notClean (name : String)
  | unknownIdent (name : String)
  | unknown
  deriving DecidableEq, Repr

/-- A return that does not keep the promise. -/
structure FreshReturnIssue (Span : Type) where
  kind : FreshReturnIssueKind
  span : Span
  deriving DecidableEq, Repr

/-- A `return`, with what was known when it was lowered. -/
structure HirReturn (Span : Type) where
  facts : ScopedFacts
  value : Option Expr
  span : Span

/-- A lowered statement: a `return`, or the bodies of another. -/
inductive HirStmt (Span : Type) where
  | return (statement : HirReturn Span)
  | other (bodies : List (List (HirStmt Span)))

def LocalFlowState.Returnable (state : LocalFlowState) (name : String) : Prop :=
  (state.isManaged name ∨ state.isLocal name) ∧
    state.isCleanLocal name ∧ state.isFreshReturnableLocal name

section Flow

variable {Span : Type}

namespace HirReturn

variable (statement : HirReturn Span) (entryStates : Span → Option LocalFlowState)

def proof : HirReturnProof :=
  statement.value.elim .noValue (statement.facts.within []).classifyReturnExpr

def collectIssue : Option FreshReturnIssueKind :=
  match statement.proof with
  | .ident name =>
    match entryStates statement.span with
    | some state =>
      if state.isManaged name || state.isLocal name then
        if state.isCleanLocal name && state.isFreshReturnableLocal name then none
        else some (.notClean name)
      else some (.unknownIdent name)
    | none => some (.unknownIdent name)
  | .unknown =>
    match statement.value.bind (statement.facts.within []).freshHandleOrWeakFieldPath with
    | some path => some (.notClean path)
    | none =>
      if (statement.value.bind (statement.facts.within []).freshFieldAccessBase).any fun name =>
          (entryStates statement.span).any fun state =>
            state.isLocal name && state.isCleanLocal name && state.isFreshReturnableLocal name
      then none
      else some .unknown
  | .noValue | .structConstructor | .freshCall | .literal => none

def leaves : List Leaf :=
  statement.value.elim [] (statement.facts.leaves [])

/-- What the flow is asked for: nothing, or one local. A return that is `none` is reported
whatever the flow says. -/
def asks : Option (Option String) :=
  match statement.proof with
  | .ident name => some (some name)
  | .unknown =>
    match statement.value.bind (statement.facts.within []).freshHandleOrWeakFieldPath with
    | some _ => none
    | none => (statement.value.bind (statement.facts.within []).freshFieldAccessBase).map some
  | .noValue | .structConstructor | .freshCall | .literal => some none

/-- A construction, or a local that may be returned, or an inline field of one. What is said
of a local is said at the return, and of a binding inside of the value where it stands. -/
def FreshLeaf (inner : Leaf → String → Prop) (leaf : Leaf) : Prop :=
  statement.facts.Constructed leaf ∨
    (∃ name state, statement.facts.IsOuter leaf name ∧ entryStates statement.span = some state ∧
      state.Returnable name) ∨
    ∃ name ∈ leaf.bound, inner leaf name ∧
      (statement.facts.within leaf.bound).freshFieldAccessBase leaf.value = some name

variable {statement entryStates}

/-- An accepted return was asked about, and what was asked for holds. -/
theorem asks_of_accepted (accepted : statement.collectIssue entryStates = none) :
    ∃ asked, statement.asks = some asked ∧ ∀ name ∈ asked, ∃ state,
      entryStates statement.span = some state ∧ state.Returnable name := by
  rw [collectIssue] at accepted
  rw [asks]
  cases proof : statement.proof with
  | ident name =>
    simp only [proof] at accepted
    split at accepted
    · next state entry =>
      refine ⟨some name, rfl, fun _ is => ⟨state, entry, ?_⟩⟩
      obtain rfl := Option.some.inj is
      simpa [LocalFlowState.Returnable, ite_eq_iff] using accepted
    · cases accepted
  | unknown =>
    simp only [proof] at accepted
    split at accepted
    · cases accepted
    · cases base : statement.value.bind (statement.facts.within []).freshFieldAccessBase with
      | none => simp [base] at accepted
      | some name =>
        cases entry : entryStates statement.span with
        | none => simp [base, entry] at accepted
        | some state =>
          obtain ⟨is_local, clean⟩ : _ ∧ _ := by simpa [base, entry, and_assoc] using accepted
          refine ⟨some name, rfl, fun _ is => ⟨state, rfl, ?_⟩⟩
          obtain rfl := Option.some.inj is
          exact ⟨.inr is_local, clean⟩
  | noValue | structConstructor | freshCall | literal => exact ⟨none, rfl, by simp⟩

/-- The one local that is asked for may be returned, and nothing else. -/
def onlyReturnable (asked : Option String) : LocalFlowState where
  isLocal name := asked = some name
  isManaged _ := false
  isCleanLocal name := asked = some name
  isFreshReturnableLocal name := asked = some name

theorem accepted_onlyReturnable (h : statement.asks = some asked) :
    statement.collectIssue (fun _ => some (onlyReturnable asked)) = none := by
  rw [asks] at h
  rw [collectIssue]
  cases proof : statement.proof with
  | ident name =>
    obtain rfl : some name = asked := by simpa [proof] using h
    simp [onlyReturnable]
  | unknown =>
    simp only [proof] at h ⊢
    split at h
    · cases h
    · obtain ⟨name, base, rfl⟩ := Option.map_eq_some_iff.mp h
      simp [base, onlyReturnable]
  | noValue | structConstructor | freshCall | literal => rfl

/-- What was asked for speaks for the leaves that were examined. -/
theorem asked_of_examined (h : statement.asks = some asked) {leaf : Leaf}
    (mem : leaf ∈ statement.leaves) (examined : leaf.examined = true) :
    statement.facts.Constructed leaf ∨ ∃ name, asked = some name ∧ statement.facts.IsOuter leaf name := by
  cases returned : statement.value with
  | none => simp [leaves, returned] at mem
  | some value =>
    rw [leaves, returned, Option.elim_some] at mem
    have spoken := statement.facts.spoken_expr [] value
    rw [asks] at h
    rw [show (statement.facts.within []).classifyReturnExpr value = statement.proof by
      rw [proof, returned]; rfl] at spoken
    cases proof : statement.proof with
    | ident name =>
      obtain rfl : some name = asked := by simpa [proof] using h
      obtain built | ⟨other, same, leaf_eq, outer⟩ := spoken (by simp [proof]) leaf mem examined
      · exact .inl built
      · obtain rfl : name = other := by simpa [proof] using same
        by_cases binding : (statement.facts.within leaf.bound).isBinding name
        · exact .inr ⟨name, rfl, by simp [leaf_eq, ReturnFacts.freshFieldAccessBase, binding], outer⟩
        · exact .inl (by simp [leaf_eq, ScopedFacts.Constructed, ReturnFacts.constructed, binding])
    | unknown =>
      simp only [proof, returned, Option.bind_some] at h
      split at h
      · cases h
      · obtain ⟨name, base, rfl⟩ := Option.map_eq_some_iff.mp h
        exact .inr ⟨name, rfl, statement.facts.isOuter_of_base base leaf mem⟩
    | noValue | structConstructor | freshCall | literal =>
      obtain built | ⟨name, same, -⟩ := spoken (by simp [proof]) leaf mem examined
      · exact .inl built
      · simp [proof] at same

end HirReturn

variable (entryStates : Span → Option LocalFlowState)

variable [DecidableEq Span]

def push (issues : List (FreshReturnIssue Span)) (issue : FreshReturnIssue Span) :
    List (FreshReturnIssue Span) :=
  if issue ∈ issues then issues else issues ++ [issue]

mutual

/-- The returns the walk meets. It does not enter the blocks of expressions. -/
def HirStmt.returns : HirStmt Span → List (HirReturn Span)
  | .return statement => [statement]
  | .other bodies => returnsInBodies bodies

def returnsInBodies : List (List (HirStmt Span)) → List (HirReturn Span)
  | [] => []
  | body :: bodies => returnsInBlock body ++ returnsInBodies bodies

def returnsInBlock : List (HirStmt Span) → List (HirReturn Span)
  | [] => []
  | statement :: rest => statement.returns ++ returnsInBlock rest

end

/-- The issues of a body, return by return and without repetition. -/
def freshReturnIssuesFromFlow (block : List (HirStmt Span)) : List (FreshReturnIssue Span) :=
  ((returnsInBlock block).filterMap fun statement =>
    (statement.collectIssue entryStates).map (⟨·, statement.span⟩)).foldl push []

theorem mem_foldl_push {issue : FreshReturnIssue Span} {found issues : List (FreshReturnIssue Span)}
    (mem : issue ∈ issues ∨ issue ∈ found) : issue ∈ found.foldl push issues := by
  induction found generalizing issues with
  | nil => simpa using mem
  | cons other rest ih =>
    have pushed : issue ∈ issues ∨ issue = other → issue ∈ push issues other := by
      unfold push
      split
      · rintro (mem | rfl)
        · exact mem
        · assumption
      · simp
    refine ih ?_
    rw [List.mem_cons, ← or_assoc] at mem
    exact mem.imp_left pushed

theorem mem_of_mem_foldl_push {issue : FreshReturnIssue Span} {found : List (FreshReturnIssue Span)}
    (mem : issue ∈ found.foldl push []) : issue ∈ found := by
  suffices ∀ issues, issue ∈ found.foldl push issues → issue ∈ issues ∨ issue ∈ found by
    simpa using this [] mem
  clear mem
  induction found with
  | nil => exact fun _ => .inl
  | cons other rest ih =>
    intro issues mem
    have pushed : issue ∈ push issues other → issue ∈ issues ∨ issue = other := by
      unfold push
      split
      · exact .inl
      · simp
    rw [List.mem_cons, ← or_assoc]
    exact (ih _ mem).imp_left pushed

theorem collectIssue_eq_none {statement : HirReturn Span} {block : List (HirStmt Span)}
    (accepted : ∀ issue ∈ freshReturnIssuesFromFlow entryStates block, issue.span ≠ statement.span)
    (visited : statement ∈ returnsInBlock block) : statement.collectIssue entryStates = none := by
  cases found : statement.collectIssue entryStates with
  | none => rfl
  | some kind =>
    have reported : ⟨kind, statement.span⟩ ∈ freshReturnIssuesFromFlow entryStates block :=
      mem_foldl_push (.inr (List.mem_filterMap.mpr ⟨statement, visited, by simp [found]⟩))
    exact absurd rfl (accepted _ reported)

end Flow

/-- The facts of a program with the struct `Point`, where `p` and `v` are bound. -/
def pointFacts : ScopedFacts where
  within bound := {
    isVariant _ := false
    isBinding name := name ∈ bound || (name = "p" || name = "v")
    resolve callee :=
      if calleeName callee ∈ ["Ok", "Some", "Err", "None"] then .enumVariant else .resolved false true
    access _ _ := ⟨false, false⟩
    builtin_cases _ _ named := if_pos named }
  isVariant_within _ := rfl
  isBinding_within _ _ := rfl
  resolve_within _ _ _ := rfl

/-- `return if flag { Point() } else { other }` -/
def pointOr (other : Expr) : HirReturn Unit where
  facts := pointFacts
  value := some (.match (.ident "flag") none
    [.mk (.literal (.bool true)) none [.expr (.call (.name "Point") [])],
      .mk (.literal (.bool false)) none [.expr other]])
  span := ()

/-- The parameter `p: read Point`, and `local v = Point()`. -/
def readParameter : LocalFlowState where
  isLocal name := name = "v"
  isManaged name := name = "p"
  isCleanLocal name := name = "v"
  isFreshReturnableLocal name := name = "v"

/-- `return match p { Some(v) => v, None => Point() }` -/
def payloadOr : HirReturn Unit where
  facts := pointFacts
  value := some (.match (.ident "p") none
    [.mk (.variant "Some" [.binding "v"]) none [.expr (.ident "v")],
      .mk (.variant "None" []) none [.expr (.call (.name "Point") [])]])
  span := ()

end RSScript.Semantics
