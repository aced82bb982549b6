import RSScript.Syntax.AwaitHoist
import RSScript.Lib.LineFormat
import RSScript.Syntax.EvaluationOrder

/-!
# Evaluation order across await hoisting

Hoisting keeps the order of calls, awaits and early exits, their operands and the decisions
they happen under, where nothing that stays behind comes before an await that is lifted
(`runsBlock_hoistAsyncAwaits`). Where a call does come before it, as in `g(f(), await h())`,
the lifted await overtakes the call (`callThenAwait_reordered`). That the condition is
necessary is not shown: what stays behind may do nothing although its text does not tell.
-/

namespace RSScript.Syntax

open Traces

mutual

/-- Some await inside is lifted to the front of the statement. -/
def lifts (root : Bool) : Expr → Bool
  | .await value => !root || lifts false value
  | .try value => (isAwait value && !root) || lifts (isAwait value) value
  | .manage value => lifts false value
  | .effect _ value => lifts root value
  | .call callee args => liftsCallee callee || liftsArgs args
  | .binary op left right => lifts false left || (!op.isShortCircuit && lifts false right)
  | .field base _ => lifts false base
  | .index base index => lifts false base || lifts false index
  | .objectLiteral fields => liftsFields fields
  | .mapLiteral entries => liftsEntries entries
  | .arrayLiteral items => liftsItems items
  | .match _ _ _ | .ident _ | .number _ | .string _ | .charLiteral _ | .multilineString _
  | .spawn _ | .closure _ _ | .unknown => false

def liftsCallee : Callee → Bool
  | .receiverCall receiver _ _ => lifts false receiver
  | .name _ | .qualified _ _ => false

def liftsArgs : List (Option String × Expr) → Bool
  | [] => false
  | (_, value) :: args => lifts false value || liftsArgs args

def liftsFields : List (String × Expr) → Bool
  | [] => false
  | (_, value) :: fields => lifts false value || liftsFields fields

def liftsEntries : List (Expr × Expr) → Bool
  | [] => false
  | (key, value) :: entries => lifts false key || lifts false value || liftsEntries entries

def liftsItems : List Expr → Bool
  | [] => false
  | item :: items => lifts false item || liftsItems items

end

mutual

/-- Everything the expression does is done by awaits that are lifted out of it. -/
def settles : Expr → Bool
  | .await _ => true
  | .try value => isAwait value
  | .call _ _ => false
  | .manage value | .effect _ value => settles value
  | .binary op left right => settles left && if op.isShortCircuit then quiet right else settles right
  | .field base _ => settles base
  | .index base index => settles base && settles index
  | .objectLiteral fields => settlesFields fields
  | .mapLiteral entries => settlesEntries entries
  | .arrayLiteral items => settlesItems items
  | .match value _ arms => quiet value && quietArms arms
  | .spawn value => quiet value
  | .ident _ | .number _ | .string _ | .charLiteral _ | .multilineString _ | .closure _ _
  | .unknown => true

def settlesFields : List (String × Expr) → Bool
  | [] => true
  | (_, value) :: fields => settles value && settlesFields fields

def settlesEntries : List (Expr × Expr) → Bool
  | [] => true
  | (key, value) :: entries => settles key && settles value && settlesEntries entries

def settlesItems : List Expr → Bool
  | [] => true
  | item :: items => settles item && settlesItems items

end

def settlesCallee : Callee → Bool
  | .receiverCall receiver _ _ => settles receiver
  | .name _ | .qualified _ _ => true

mutual

/-- Wherever an await is lifted, what is evaluated before it and stays behind does
nothing. -/
def inOrder : Expr → Bool
  | .await value | .try value | .manage value | .effect _ value => inOrder value
  | .call callee args =>
    inOrderCallee callee && inOrderArgs args && (settlesCallee callee || !liftsArgs args)
  | .binary op left right =>
    inOrder left &&
      (op.isShortCircuit || (inOrder right && (settles left || !lifts false right)))
  | .field base _ => inOrder base
  | .index base index => inOrder base && inOrder index && (settles base || !lifts false index)
  | .objectLiteral fields => inOrderFields fields
  | .mapLiteral entries => inOrderEntries entries
  | .arrayLiteral items => inOrderItems items
  | .match _ _ arms => inOrderArms arms
  | .spawn _ | .ident _ | .number _ | .string _ | .charLiteral _ | .multilineString _
  | .closure _ _ | .unknown => true

def inOrderCallee : Callee → Bool
  | .receiverCall receiver _ _ => inOrder receiver
  | .name _ | .qualified _ _ => true

def inOrderArgs : List (Option String × Expr) → Bool
  | [] => true
  | (_, value) :: args => inOrder value && inOrderArgs args && (settles value || !liftsArgs args)

def inOrderFields : List (String × Expr) → Bool
  | [] => true
  | (_, value) :: fields =>
    inOrder value && inOrderFields fields && (settles value || !liftsFields fields)

def inOrderEntries : List (Expr × Expr) → Bool
  | [] => true
  | (key, value) :: entries =>
    inOrder key && inOrder value && (settles key || !lifts false value) &&
      inOrderEntries entries && ((settles key && settles value) || !liftsEntries entries)

def inOrderItems : List Expr → Bool
  | [] => true
  | item :: items => inOrder item && inOrderItems items && (settles item || !liftsItems items)

def inOrderArms : List MatchArm → Bool
  | [] => true
  | .mk _ _ body :: arms => inOrderBlock body && inOrderArms arms

def inOrderSelectArms : List SelectArm → Bool
  | [] => true
  | .mk _ _ body :: arms => inOrderBlock body && inOrderSelectArms arms

def inOrderBlock : List Stmt → Bool
  | [] => true
  | stmt :: block => inOrderStmt stmt && inOrderBlock block

def inOrderStmt : Stmt → Bool
  | .let _ _ _ value _ | .return value =>
    match value with
    | none => true
    | some value => inOrder value
  | .expr value => inOrder value
  | .assign target value =>
    inOrder target && inOrder value && (settles target || !lifts true value)
  | .if _ thenBody elseBody =>
    inOrderBlock thenBody &&
      match elseBody with
      | none => true
      | some elseBody => inOrderBlock elseBody
  | .loop _ body | .for _ _ body | .with _ _ body | .taskGroup body => inOrderBlock body
  | .match _ _ arms => inOrderArms arms
  | .select arms => inOrderSelectArms arms
  | .letElse _ value elseBody _ => inOrder value && inOrderBlock elseBody
  | .break | .continue | .unknown => true

end

section Order

/-! ### Temporaries -/

/-- The same is known of all names but the temporaries from a number on. -/
def AgreeBelow (counter : Nat) (temps temps' : Temps) : Prop :=
  ∀ name, (∀ n, counter ≤ n → name ≠ awaitName n) → temps name = temps' name

theorem isTemp_awaitName (n : Nat) : isTemp (awaitName n) = true := by
  simp [isTemp, awaitName, String.toList_append]

private theorem awaitName_injective (h : awaitName m = awaitName n) : m = n := by
  have same := congrArg String.toList h
  simp only [awaitName, String.toList_append, List.append_cancel_left_eq] at same
  exact LineFormat.repr_toList_injective same

namespace AgreeBelow

theorem refl : AgreeBelow counter temps temps := fun _ _ => rfl

theorem alike (h : AgreeBelow counter temps temps') : Alike temps temps' := by
  intro name hname
  refine h name fun n _ is => ?_
  rw [is, isTemp_awaitName] at hname
  cases hname

theorem trans (first : AgreeBelow counter temps temps') (le : counter ≤ counter')
    (second : AgreeBelow counter' temps' temps'') : AgreeBelow counter temps temps'' := by
  intro name other
  rw [first name other]
  exact second name fun n hn => other n (le.trans hn)

theorem mono (le : counter ≤ counter') (h : AgreeBelow counter' temps temps') :
    AgreeBelow counter temps temps' :=
  fun name other => h name fun n hn => other n (le.trans hn)

theorem update (le : counter ≤ n) :
    AgreeBelow counter temps (Function.update temps (awaitName n) value) := by
  intro name other
  rw [Function.update_of_ne (other n le)]

end AgreeBelow

theorem bindBlock_append :
    bindBlock temps (first ++ second) = bindBlock (bindBlock temps first) second :=
  List.foldl_append

/-! ### Blocks -/

variable {α β : Type}

/-- What is known of a block with the runs `before` that hoisting turns into `after`. -/
structure Keeps (after before : Temps → Runs) (quiet ordered : Bool) : Prop where
  still : quiet = true → ∀ temps, before temps = 1 ∧ after temps = 1
  source : ∀ {temps temps'}, Alike temps temps' → before temps = before temps'
  kept : ordered = true → ∀ temps, before temps = after temps

namespace Keeps

variable {quiet : Bool} {after before after' before' : Temps → Runs}

theorem one : Keeps (fun _ => 1) (fun _ => 1) true true :=
  ⟨fun _ _ => ⟨rfl, rfl⟩, fun _ => rfl, fun _ _ => rfl⟩

theorem mul (first : Keeps after before quiet ordered) (next : Keeps after' before' quiet' ordered') :
    Keeps (fun temps => after temps * after' temps) (fun temps => before temps * before' temps)
      (quiet && quiet') (ordered && ordered') where
  still both temps := by
    rw [Bool.and_eq_true] at both
    simp only [first.still both.1, next.still both.2, mul_one, and_self]
  source alike := by rw [first.source alike, next.source alike]
  kept both temps := by
    rw [Bool.and_eq_true] at both
    rw [first.kept both.1, next.kept both.2]

theorem choice (first : Keeps after before quiet ordered)
    (next : Keeps after' before' quiet' ordered') :
    Keeps (fun temps => choice (after temps) (after' temps))
      (fun temps => choice (before temps) (before' temps)) (quiet && quiet') (ordered && ordered') where
  still both temps := by
    rw [Bool.and_eq_true] at both
    simp only [first.still both.1, next.still both.2, choice_self, and_self]
  source alike := by rw [first.source alike, next.source alike]
  kept both temps := by
    rw [Bool.and_eq_true] at both
    rw [first.kept both.1, next.kept both.2]

theorem weaken (keeps : Keeps after before quiet ordered) (quieter : quiet' = true → quiet = true)
    (weaker : ordered' = true → ordered = true) : Keeps after before quiet' ordered' :=
  ⟨keeps.still ∘ quieter, keeps.source, keeps.kept ∘ weaker⟩

/-- What is decided on a value that does not depend on temporaries. -/
theorem decided {symbols : Temps → Sym} {after before : Sym → Temps → Runs}
    (symbols_eq : ∀ {temps temps'}, Alike temps temps' → symbols temps = symbols temps')
    (keeps : ∀ value, Keeps (after value) (before value) quiet ordered) :
    Keeps (fun temps => after (symbols temps) temps) (fun temps => before (symbols temps) temps)
      quiet ordered where
  still is_quiet temps := (keeps _).still is_quiet temps
  source alike := by rw [symbols_eq alike, (keeps _).source alike]
  kept is_ordered temps := (keeps _).kept is_ordered temps

theorem loop (exits : LoopExits Ending) (mayStop : Prop) {test body body' : Nat → Temps → Runs}
    (tests : ∀ round, Keeps (test round) (test round) quiet true)
    (bodies : ∀ round, Keeps (body' round) (body round) quiet' ordered) :
    Keeps (fun temps => loop exits mayStop (test · temps) (body' · temps))
      (fun temps => loop exits mayStop (test · temps) (body · temps)) false ordered where
  still := nofun
  source {temps temps'} alike := by
    have same_test : ∀ round, test round temps = test round temps' :=
      fun round => (tests round).source alike
    have same_body : ∀ round, body round temps = body round temps' :=
      fun round => (bodies round).source alike
    simp only [same_test, same_body]
  kept is_ordered temps := by
    have same : ∀ round, body round temps = body' round temps :=
      fun round => (bodies round).kept is_ordered temps
    simp only [same]

end Keeps

/-! ### Trees that awaits are lifted from -/

/-- The runs of a tree and the symbolic values of its parts. -/
abbrev Reading (α : Type) := Temps → α → Runs × List Sym

/-- What is known of a hoisted tree that was read as `all`; `of` reads what is left of it. -/
structure Hoisted.Follows (hoisted : Hoisted α) (under : List Decision) (start : Nat)
    (of : Reading α) (all : Temps → Runs × List Sym) (quiet lifts settles ordered : Bool) : Prop where
  grows : start ≤ hoisted.counter
  binds : ∀ temps, AgreeBelow start temps (bindBlock temps hoisted.lifted)
  source : ∀ {temps temps'}, Alike temps temps' → all temps = all temps'
  still : quiet = true → ∀ temps,
    (all temps).1 = 1 ∧ (of temps hoisted.result).1 = 1 ∧ hoisted.lifted = []
  stays : lifts = false → hoisted.lifted = []
  settled : settles = true → ∀ temps, (of temps hoisted.result).1 = 1
  frame : ordered = true → ∀ {temps temps'}, AgreeBelow hoisted.counter temps temps' →
    of temps hoisted.result = of temps' hoisted.result
  kept : ordered = true → ∀ temps, (all temps).1 = runsBlock under temps hoisted.lifted *
    (of (bindBlock temps hoisted.lifted) hoisted.result).1
  meant : ordered = true → ∀ temps,
    (all temps).2 = (of (bindBlock temps hoisted.lifted) hoisted.result).2

namespace Hoisted.Follows

variable {of : Reading α} {all : Temps → Runs × List Sym} {quiet lifts settles ordered : Bool}
  {hoisted : Hoisted α} {second : Nat → Hoisted β} {under : List Decision} {start : Nat}

/-- Nothing is lifted. -/
theorem plain {result : α} {counter : Nat} (grows : start ≤ counter)
    (keeps : Keeps (fun temps => (of temps result).1) (fun temps => (all temps).1) quiet ordered)
    (symbols : ∀ {temps temps'}, Alike temps temps' → (all temps).2 = (all temps').2)
    (same : ∀ temps, (of temps result).2 = (all temps).2)
    (settled : settles = true → ∀ temps, (of temps result).1 = 1) :
    Follows ⟨result, [], counter⟩ under start of all quiet lifts settles ordered where
  grows := grows
  binds _ := .refl
  source alike := Prod.ext (keeps.source alike) (symbols alike)
  still is_quiet temps := ⟨(keeps.still is_quiet temps).1, (keeps.still is_quiet temps).2, rfl⟩
  stays _ := rfl
  settled := settled
  frame is_ordered temps temps' agree := by
    refine Prod.ext ?_ ?_
    · rw [← keeps.kept is_ordered, ← keeps.kept is_ordered, keeps.source agree.alike]
    · rw [same, same, symbols agree.alike]
  kept is_ordered temps := by rw [runsBlock, one_mul, keeps.kept is_ordered]; rfl
  meant _ temps := (same temps).symm

/-- There is nothing to do. -/
theorem idle {result : α} (nothing : ∀ temps, (of temps result).1 = 1)
    (symbols : ∀ {temps temps'}, Alike temps temps' → (of temps result).2 = (of temps' result).2) :
    Follows ⟨result, [], start⟩ under start of (fun temps => of temps result) quiet lifts settles
      ordered :=
  .plain le_rfl ⟨fun _ temps => ⟨nothing temps, nothing temps⟩,
    fun _ => (nothing _).trans (nothing _).symm, fun _ _ => rfl⟩ symbols (fun _ => rfl)
    fun _ => nothing

section Derived

variable (follows : hoisted.Follows under start of all quiet lifts settles ordered)

include follows

theorem weaken (quieter : quiet' = true → quiet = true) (weaker : settles' = true → settles = true) :
    hoisted.Follows under start of all quiet' lifts settles' ordered :=
  { follows with still := follows.still ∘ quieter, settled := follows.settled ∘ weaker }

theorem forget : hoisted.Follows under start of all quiet true false ordered :=
  { follows with stays := nofun, settled := nofun }

/-- The tree may also be left as it is. -/
theorem keeps : Keeps (fun temps => (all temps).1) (fun temps => (all temps).1) quiet true where
  still is_quiet temps := ⟨(follows.still is_quiet temps).1, (follows.still is_quiet temps).1⟩
  source alike := congrArg Prod.fst (follows.source alike)
  kept _ _ := rfl

/-- Something is done after the operand that nothing is lifted from. -/
theorem beside {result : β} {counter : Nat} (tail before : List Sym → Temps → Runs)
    (build : List Sym → Temps → List Sym) (grows : hoisted.counter ≤ counter)
    (next : ∀ symbols, Keeps (tail symbols) (before symbols) quiet' ordered')
    (builds : ∀ {symbols temps temps'}, Alike temps temps' → build symbols temps = build symbols temps')
    (whole : ∀ temps, all' temps =
      ((all temps).1 * before (all temps).2 temps, build (all temps).2 temps))
    (same : ∀ temps, of' temps result = ((of temps hoisted.result).1 *
      tail (of temps hoisted.result).2 temps, build (of temps hoisted.result).2 temps)) :
    Follows ⟨result, hoisted.lifted, counter⟩ under start of' all' (quiet && quiet') lifts
      (settles && quiet') (ordered && ordered') where
  grows := follows.grows.trans grows
  binds := follows.binds
  source alike := by rw [whole, whole, follows.source alike, (next _).source alike, builds alike]
  still is_quiet temps := by
    rw [Bool.and_eq_true] at is_quiet
    obtain ⟨none, left, lifted⟩ := follows.still is_quiet.1 temps
    simp only [whole, same, none, left, (next _).still is_quiet.2, mul_one, true_and]
    exact lifted
  stays := follows.stays
  settled is_settled temps := by
    rw [Bool.and_eq_true] at is_settled
    simp only [same, follows.settled is_settled.1, (next _).still is_settled.2, mul_one]
  frame is_ordered temps temps' agree := by
    rw [Bool.and_eq_true] at is_ordered
    have operand := follows.frame is_ordered.1 (AgreeBelow.mono grows agree)
    rw [same, same, operand, ← (next _).kept is_ordered.2, ← (next _).kept is_ordered.2,
      (next _).source (AgreeBelow.alike agree), builds (AgreeBelow.alike agree)]
  kept is_ordered temps := by
    rw [Bool.and_eq_true] at is_ordered
    simp only [whole, same, follows.kept is_ordered.1, ← follows.meant is_ordered.1,
      ← (next _).kept is_ordered.2, mul_assoc, (next _).source (follows.binds temps).alike]
  meant is_ordered temps := by
    rw [Bool.and_eq_true] at is_ordered
    simp only [whole, same, follows.meant is_ordered.1, builds (follows.binds temps).alike]

/-- Something is done with the operand. -/
theorem after {result : β} (tail : List Sym → Runs) (build : List Sym → List Sym)
    (whole : ∀ temps, all' temps = ((all temps).1 * tail (all temps).2, build (all temps).2))
    (same : ∀ temps, of' temps result = ((of temps hoisted.result).1 *
      tail (of temps hoisted.result).2, build (of temps hoisted.result).2)) :
    Follows ⟨result, hoisted.lifted, hoisted.counter⟩ under start of' all' false lifts false ordered := by
  have next : ∀ symbols, Keeps (fun _ => tail symbols) (fun _ => tail symbols) false true :=
    fun _ => ⟨nofun, fun _ => rfl, fun _ _ => rfl⟩
  have follows := follows.beside (fun symbols _ => tail symbols) _ (fun symbols _ => build symbols)
    le_rfl next (fun _ => rfl) whole same
  simpa only [Bool.and_false, Bool.and_true] using follows

theorem map {f : α → β} (build : List Sym → List Sym)
    (whole : ∀ temps, all' temps = ((all temps).1, build (all temps).2))
    (same : ∀ temps, of' temps (f hoisted.result) =
      ((of temps hoisted.result).1, build (of temps hoisted.result).2)) :
    (hoisted.map f).Follows under start of' all' quiet lifts settles ordered := by
  have follows := follows.beside _ _ (fun symbols _ => build symbols) le_rfl (fun _ => Keeps.one)
    (fun _ => rfl) (fun temps => by simpa only [mul_one] using whole temps)
    (fun temps => by simpa only [mul_one] using same temps)
  simp only [Bool.and_true] at follows
  exact follows

end Derived

/-- The lifted awaits of the second of two neighbours do not touch what is left of the first. -/
theorem andThen {combine : α → β → γ} (build : List Sym → List Sym → List Sym)
    (first : hoisted.Follows under start of all quiet lifts settles ordered)
    (next : ∀ counter, (second counter).Follows under counter of' all' quiet' lifts' settles' ordered')
    (whole : ∀ temps, all'' temps =
      ((all temps).1 * (all' temps).1, build (all temps).2 (all' temps).2))
    (same : ∀ temps left right, of'' temps (combine left right) =
      ((of temps left).1 * (of' temps right).1, build (of temps left).2 (of' temps right).2)) :
    (hoisted.then second combine).Follows under start of'' all'' (quiet && quiet') (lifts || lifts')
      (settles && settles') (ordered && ordered' && (settles || !lifts')) := by
  have rest := next hoisted.counter
  have split : ∀ temps, bindBlock temps (hoisted.lifted ++ (second hoisted.counter).lifted) =
      bindBlock (bindBlock temps hoisted.lifted) (second hoisted.counter).lifted :=
    fun _ => bindBlock_append
  have behind : ordered = true → ∀ temps,
      of (bindBlock temps (hoisted.lifted ++ (second hoisted.counter).lifted)) hoisted.result =
        of (bindBlock temps hoisted.lifted) hoisted.result := by
    intro is_ordered temps
    rw [split]
    exact (first.frame is_ordered (rest.binds _)).symm
  exact {
    grows := first.grows.trans rest.grows
    binds := fun temps => by
      simp only [Hoisted.then, split]
      exact (first.binds temps).trans first.grows (rest.binds _)
    source := fun alike => by rw [whole, whole, first.source alike, rest.source alike]
    still := fun is_quiet temps => by
      rw [Bool.and_eq_true] at is_quiet
      obtain ⟨none, left, lifted⟩ := first.still is_quiet.1 temps
      obtain ⟨none', left', lifted'⟩ := rest.still is_quiet.2 temps
      simp only [Hoisted.then, whole, same, none, none', left, left', lifted, lifted', mul_one,
        List.append_nil, and_self]
    stays := fun lifts_nothing => by
      rw [Bool.or_eq_false_iff] at lifts_nothing
      simp only [Hoisted.then, first.stays lifts_nothing.1, rest.stays lifts_nothing.2,
        List.append_nil]
    settled := fun is_settled temps => by
      rw [Bool.and_eq_true] at is_settled
      simp only [Hoisted.then, same, first.settled is_settled.1, rest.settled is_settled.2, mul_one]
    frame := fun is_ordered temps temps' agree => by
      simp only [Bool.and_eq_true] at is_ordered
      have left := first.frame is_ordered.1.1 (AgreeBelow.mono rest.grows agree)
      have right := rest.frame is_ordered.1.2 agree
      simp only [Hoisted.then, same, left, right]
    kept := fun is_ordered temps => by
      simp only [Bool.and_eq_true] at is_ordered
      obtain ⟨⟨first_ordered, next_ordered⟩, neighbours⟩ := is_ordered
      have fronts : (of (bindBlock temps hoisted.lifted) hoisted.result).1 = 1 ∨
          runsBlock under (bindBlock temps hoisted.lifted) (second hoisted.counter).lifted = 1 := by
        cases is_settled : settles with
        | true => exact .inl (first.settled is_settled _)
        | false =>
          have stays : lifts' = false := by simpa [is_settled] using neighbours
          exact .inr (by rw [rest.stays stays, runsBlock])
      simp only [Hoisted.then, whole, same, behind first_ordered]
      rw [split, runsBlock_append, rest.source (first.binds temps).alike, first.kept first_ordered,
        rest.kept next_ordered, mul_fronts fronts]
    meant := fun is_ordered temps => by
      simp only [Bool.and_eq_true] at is_ordered
      simp only [Hoisted.then, whole, same, behind is_ordered.1.1]
      rw [split, rest.source (first.binds temps).alike, first.meant is_ordered.1.1,
        rest.meant is_ordered.1.2] }

/-- The runs and the symbolic value of an expression. -/
abbrev readExpr (under : List Decision) : Reading Expr :=
  fun temps e => (runs under temps e, [symbol temps e])

theorem symbol_eq {hoisted : Hoisted Expr} {of : Reading Expr} (follows : hoisted.Follows under start of
      (fun temps => readExpr under temps e) quiet lifts settles ordered) (alike : Alike temps temps') :
    symbol temps e = symbol temps' e := by
  have same := congrArg Prod.snd (follows.source alike)
  simpa only [List.cons.injEq, and_true] using same

/-- A lifted await is done where the operand was evaluated, and its temporary stands for it. -/
theorem liftAwait {unit : Expr → Expr} (tail : List Sym → Runs) (build : List Sym → List Sym)
    (follows : operand.Follows under start (readExpr under) all quiet lifts settles ordered)
    (whole : ∀ temps, all' temps = ((all temps).1 * tail (all temps).2, build (all temps).2))
    (runs_same : ∀ temps e, runs under temps (unit e) = runs under temps e * tail [symbol temps e])
    (symbol_same : ∀ temps e, [symbol temps (unit e)] = build [symbol temps e]) :
    (liftAwait unit operand).Follows under start (readExpr under) all' false true true ordered := by
  have bound : ∀ temps, bindBlock temps (Syntax.liftAwait unit operand).lifted =
      Function.update (bindBlock temps operand.lifted) (awaitName operand.counter)
        (some (symbol (bindBlock temps operand.lifted) (unit operand.result))) := by
    intro temps
    simp only [Syntax.liftAwait, bindBlock_append]
    simp [bindBlock, bindStmt, isTemp_awaitName]
  exact {
    grows := Nat.le_succ_of_le follows.grows
    binds := fun temps => by
      rw [bound]
      exact (follows.binds temps).trans follows.grows (.update le_rfl)
    source := fun alike => by rw [whole, whole, follows.source alike]
    still := fun is_quiet => absurd is_quiet Bool.false_ne_true
    stays := fun lifts_nothing => absurd lifts_nothing.symm Bool.false_ne_true
    settled := fun _ _ => by simp only [Syntax.liftAwait, runs]
    frame := fun _ temps temps' agree => by
      have known : temps (awaitName operand.counter) = temps' (awaitName operand.counter) :=
        agree _ fun n (le : operand.counter + 1 ≤ n) is => by
          have := awaitName_injective is
          omega
      simp only [Syntax.liftAwait, readExpr, runs, symbol, known]
    kept := fun is_ordered temps => by
      simp only [whole, follows.kept is_ordered, follows.meant is_ordered]
      rw [mul_assoc, ← runs_same]
      simp only [Syntax.liftAwait, runsBlock_append, runsBlock, runsStmt, runs, mul_one]
    meant := fun is_ordered temps => by
      simp only [whole, follows.meant is_ordered]
      rw [bound]
      simp only [Syntax.liftAwait, symbol, Function.update_self, Option.getD_some]
      exact (symbol_same _ _).symm }

end Hoisted.Follows

open Hoisted.Follows (readExpr)

variable (under : List Decision)

abbrev readCallee : Reading Callee :=
  fun temps callee => (runsCallee under temps callee, symbolCallee temps callee)

abbrev readArgs : Reading (List (Option String × Expr)) :=
  fun temps args => (runsArgs under temps args, symbolArgs temps args)

abbrev readFields : Reading (List (String × Expr)) :=
  fun temps fields => (runsFields under temps fields, symbolFields temps fields)

abbrev readEntries : Reading (List (Expr × Expr)) :=
  fun temps entries => (runsEntries under temps entries, symbolEntries temps entries)

abbrev readItems : Reading (List Expr) :=
  fun temps items => (runsItems under temps items, symbolItems temps items)

abbrev readStmt : Reading Stmt := fun temps stmt => (runsStmt under temps stmt, [])

private theorem bindStmt_plain (h : plainStmt stmt = true) : bindStmt temps stmt = temps := by
  cases stmt with
  | «let» _ _ _ value _ =>
    cases value with
    | none => rfl
    | some value =>
      simp only [plainStmt, Bool.and_eq_true, Bool.not_eq_true'] at h
      simp [bindStmt, h.1]
  | _ => rfl

private theorem bindStmt_hoistStmt (h : plainStmt stmt = true) :
    bindStmt temps (hoistStmt counter stmt).result = temps := by
  cases stmt with
  | «let» _ _ _ value _ =>
    cases value with
    | none => simp only [hoistStmt, bindStmt]
    | some value =>
      simp only [plainStmt, Bool.and_eq_true, Bool.not_eq_true'] at h
      simp [hoistStmt, Hoisted.map, bindStmt, h.1]
  | «return» value => cases value <;> simp only [hoistStmt, Hoisted.map, bindStmt]
  | «if» _ _ elseBody => cases elseBody <;> simp only [hoistStmt, bindStmt]
  | _ => simp only [hoistStmt, Hoisted.map, Hoisted.then, bindStmt]

mutual

theorem follows_expr (under : List Decision) (root : Bool) (counter : Nat) : ∀ e, plain e = true →
    (hoistExpr root counter e).Follows under counter (readExpr under)
      (fun temps => readExpr under temps e) (quiet e) (lifts root e) (!root && settles e) (inOrder e)
  | .ident name, h => by
    rw [plain, Bool.not_eq_true'] at h
    rw [hoistExpr]
    exact .idle (fun _ => by simp only [runs]) fun alike => by simp only [symbol, alike name h]
  | .number _, _ | .string _, _ | .charLiteral _, _ | .multilineString _, _ | .unknown, _
  | .closure _ _, _ => by
    rw [hoistExpr]
    exact .idle (fun _ => by simp only [runs]) fun _ => by simp only [symbol]
  | .spawn value, h => by
    rw [plain] at h
    have operand := follows_expr under false counter value h
    rw [hoistExpr, quiet]
    refine .plain le_rfl ?_ (fun alike => ?_) (fun _ => rfl) fun settled temps => ?_
    · simpa only [runs] using operand.keeps.weaken id fun _ => rfl
    · simp only [symbol, operand.symbol_eq alike]
    · simp only [runs]
      exact (operand.still (by simp_all [settles]) temps).1
  | .await value, h => by
    rw [plain] at h
    have operand := follows_expr under false counter value h
    rw [hoistExpr, quiet, lifts, inOrder]
    cases root with
    | true =>
      exact operand.after (fun symbols => event (.await symbols under))
        (fun symbols => [.node .await symbols])
        (fun _ => by simp only [readExpr, runs, symbol]) fun _ => by simp only [readExpr, runs, symbol]
    | false =>
      exact operand.liftAwait (fun symbols => event (.await symbols under))
        (fun symbols => [.node .await symbols]) (fun _ => by simp only [readExpr, runs, symbol])
        (fun _ _ => by simp only [runs]) fun _ _ => by simp only [symbol]
  | .try value, h => by
    rw [plain] at h
    have operand := follows_expr under (isAwait value) counter value h
    rw [hoistExpr, quiet, lifts, settles, inOrder, Bool.and_comm (!root)]
    cases lifted : isAwait value && !root with
    | true =>
      exact operand.liftAwait (fun symbols => choice 1 (depart .exit symbols under))
        (fun symbols => [.node .try symbols]) (fun _ => by simp only [readExpr, runs, symbol])
        (fun _ _ => by simp only [runs]) fun _ _ => by simp only [symbol]
    | false =>
      exact operand.after (fun symbols => choice 1 (depart .exit symbols under))
        (fun symbols => [.node .try symbols]) (fun _ => by simp only [readExpr, runs, symbol])
        fun _ => by simp only [readExpr, runs, symbol]
  | .effect effect value, h => by
    rw [plain] at h
    rw [hoistExpr, quiet, lifts, settles, inOrder]
    exact (follows_expr under root counter value h).map (fun symbols => [.node (.effect effect) symbols])
      (fun _ => by simp only [readExpr, runs, symbol]) fun _ => by simp only [readExpr, runs, symbol]
  | .manage value, h => by
    rw [plain] at h
    rw [hoistExpr, quiet, lifts, settles, inOrder]
    exact ((follows_expr under false counter value h).map (fun symbols => [.node .manage symbols])
      (fun _ => by simp only [readExpr, runs, symbol])
      fun _ => by simp only [readExpr, runs, symbol]).weaken id (by simp)
  | .field base name, h => by
    rw [plain] at h
    rw [hoistExpr, quiet, lifts, settles, inOrder]
    exact ((follows_expr under false counter base h).map (fun symbols => [.node (.field name) symbols])
      (fun _ => by simp only [readExpr, runs, symbol])
      fun _ => by simp only [readExpr, runs, symbol]).weaken id (by simp)
  | .index base index, h => by
    rw [plain, Bool.and_eq_true] at h
    rw [hoistExpr, quiet, lifts, settles, inOrder]
    exact ((follows_expr under false counter base h.1).andThen
      (fun left right => [.node .index (left ++ right)])
      (fun counter => follows_expr under false counter index h.2)
      (fun _ => by simp only [readExpr, runs, symbol]; rfl)
      fun _ _ _ => by simp only [readExpr, runs, symbol]; rfl).weaken id (by simp)
  | .call callee args, h => by
    rw [plain, Bool.and_eq_true] at h
    have operands : ((hoistCallee counter callee).then (hoistArgs · args) Prod.mk).Follows under counter
        (fun temps operands => (runsCallee under temps operands.1 * runsArgs under temps operands.2,
          symbolCallee temps operands.1 ++ symbolArgs temps operands.2))
        (fun temps => (runsCallee under temps callee * runsArgs under temps args,
          symbolCallee temps callee ++ symbolArgs temps args)) _ _ _ _ :=
      (follows_callee under counter callee h.1).andThen (· ++ ·)
        (fun counter => follows_args under counter args h.2) (fun _ => rfl) fun _ _ _ => rfl
    rw [hoistExpr, quiet, lifts, inOrder, settles, Bool.and_false]
    exact operands.after (fun symbols => event (.call (.node .call symbols) under))
      (fun symbols => [.node .call symbols]) (fun _ => by simp only [readExpr, runs, symbol])
      fun _ => by simp only [readExpr, runs, symbol]; rfl
  | .binary op left right, h => by
    rw [plain, Bool.and_eq_true] at h
    have first := follows_expr under false counter left h.1
    rw [hoistExpr, quiet, lifts, settles, inOrder]
    cases circuit : op.isShortCircuit with
    | true =>
      rw [if_pos rfl, if_pos rfl, Bool.true_or, Bool.not_true, Bool.false_and, Bool.or_false]
      have demand := fun symbols => Keeps.one.choice
        (follows_expr (⟨.node (.binary op) symbols, 1⟩ :: under) false counter right h.2).keeps
      exact (first.beside _ _ (fun symbols temps => [.node (.binary op) (symbols ++ [symbol temps right])])
        le_rfl demand (fun alike => by rw [(follows_expr under false counter right h.2).symbol_eq alike])
        (fun _ => by simp only [readExpr, runs, symbol, circuit]; rfl)
        (fun _ => by simp only [readExpr, runs, symbol, circuit]; rfl)).weaken id (by simp +contextual)
    | false =>
      simp only [Bool.false_eq_true, if_false, Bool.false_or, ← Bool.and_assoc]
      exact (first.andThen (fun left right => [.node (.binary op) (left ++ right)])
        (fun counter => follows_expr under false counter right h.2)
        (fun _ => by simp only [readExpr, runs, symbol, circuit]; rfl)
        fun _ _ _ => by simp only [readExpr, runs, symbol, circuit]; rfl).weaken id (by simp +contextual)
  | .objectLiteral fields, h => by
    rw [plain] at h
    rw [hoistExpr, quiet, lifts, settles, inOrder]
    exact ((follows_fields under counter fields h).map (fun symbols => [.node .object symbols])
      (fun _ => by simp only [readExpr, runs, symbol])
      fun _ => by simp only [readExpr, runs, symbol]).weaken id (by simp)
  | .mapLiteral entries, h => by
    rw [plain] at h
    rw [hoistExpr, quiet, lifts, settles, inOrder]
    exact ((follows_entries under counter entries h).map (fun symbols => [.node .map symbols])
      (fun _ => by simp only [readExpr, runs, symbol])
      fun _ => by simp only [readExpr, runs, symbol]).weaken id (by simp)
  | .arrayLiteral items, h => by
    rw [plain] at h
    rw [hoistExpr, quiet, lifts, settles, inOrder]
    exact ((follows_items under counter items h).map (fun symbols => [.node .array symbols])
      (fun _ => by simp only [readExpr, runs, symbol])
      fun _ => by simp only [readExpr, runs, symbol]).weaken id (by simp)
  | .match value effect arms, h => by
    rw [plain, Bool.and_eq_true] at h
    have operand := follows_expr under false counter value h.1
    have keeps := operand.keeps.mul (Keeps.decided
      (fun alike => congrArg (Sym.node (.match effect) [·]) (operand.symbol_eq alike))
      fun value => (keeps_arms under counter value arms h.2).2)
    rw [hoistExpr, quiet, settles, inOrder]
    refine .plain (keeps_arms under counter (.leaf .unknown) arms h.2).1 ?_ (fun alike => ?_)
      (fun _ => by simp only [symbol]) fun both temps => ?_
    · simpa only [runs, Bool.true_and] using keeps
    · simp only [symbol, operand.symbol_eq alike]
    · simpa only [runs] using (keeps.still (by simp_all) temps).2

theorem follows_callee (under : List Decision) (counter : Nat) : ∀ callee, plainCallee callee = true →
    (hoistCallee counter callee).Follows under counter (readCallee under)
      (fun temps => readCallee under temps callee) false (liftsCallee callee) (settlesCallee callee)
      (inOrderCallee callee)
  | .name _, _ | .qualified _ _, _ => by
    rw [hoistCallee]
    exact .idle (fun _ => by simp only [runsCallee]) fun _ => by simp only [symbolCallee]
  | .receiverCall receiver method effect, h => by
    rw [plainCallee] at h
    rw [hoistCallee, liftsCallee, settlesCallee, inOrderCallee]
    exact ((follows_expr under false counter receiver h).map
      (fun symbols => [.node (.method method effect) symbols])
      (fun _ => by simp only [readCallee, runsCallee, symbolCallee])
      fun _ => by simp only [readCallee, runsCallee, symbolCallee]).weaken nofun id

theorem follows_args (under : List Decision) (counter : Nat) : ∀ args, plainArgs args = true →
    (hoistArgs counter args).Follows under counter (readArgs under)
      (fun temps => readArgs under temps args) false (liftsArgs args) false (inOrderArgs args)
  | [], _ => by
    rw [hoistArgs]
    exact .idle (fun _ => by simp only [runsArgs]) fun _ => by simp only [symbolArgs]
  | (label, value) :: args, h => by
    rw [plainArgs, Bool.and_eq_true] at h
    rw [hoistArgs, liftsArgs, inOrderArgs]
    exact ((follows_expr under false counter value h.1).andThen
      (fun value args => .node (.argument label) value :: args)
      (fun counter => follows_args under counter args h.2)
      (fun _ => by simp only [readArgs, runsArgs, symbolArgs])
      fun _ _ _ => by simp only [readArgs, runsArgs, symbolArgs]).weaken nofun nofun

theorem follows_fields (under : List Decision) (counter : Nat) : ∀ fields, plainFields fields = true →
    (hoistFields counter fields).Follows under counter (readFields under)
      (fun temps => readFields under temps fields) (quietFields fields) (liftsFields fields)
      (settlesFields fields) (inOrderFields fields)
  | [], _ => by
    rw [hoistFields]
    exact .idle (fun _ => by simp only [runsFields]) fun _ => by simp only [symbolFields]
  | (name, value) :: fields, h => by
    rw [plainFields, Bool.and_eq_true] at h
    rw [hoistFields, quietFields, liftsFields, settlesFields, inOrderFields]
    exact (follows_expr under false counter value h.1).andThen
      (fun value fields => .node (.named name) value :: fields)
      (fun counter => follows_fields under counter fields h.2)
      (fun _ => by simp only [readFields, runsFields, symbolFields])
      fun _ _ _ => by simp only [readFields, runsFields, symbolFields]

theorem follows_entries (under : List Decision) (counter : Nat) : ∀ entries,
    plainEntries entries = true →
    (hoistEntries counter entries).Follows under counter (readEntries under)
      (fun temps => readEntries under temps entries) (quietEntries entries) (liftsEntries entries)
      (settlesEntries entries) (inOrderEntries entries)
  | [], _ => by
    rw [hoistEntries]
    exact .idle (fun _ => by simp only [runsEntries]) fun _ => by simp only [symbolEntries]
  | (key, value) :: entries, h => by
    simp only [plainEntries, Bool.and_eq_true] at h
    have entry : ((hoistExpr false counter key).then (hoistExpr false · value) Prod.mk).Follows under
        counter (fun temps entry => (runs under temps entry.1 * runs under temps entry.2,
          [symbol temps entry.1, symbol temps entry.2]))
        (fun temps => (runs under temps key * runs under temps value,
          [symbol temps key, symbol temps value])) _ _ _ _ :=
      (follows_expr under false counter key h.1.1).andThen (· ++ ·)
        (fun counter => follows_expr under false counter value h.1.2) (fun _ => rfl) fun _ _ _ => rfl
    rw [hoistEntries, quietEntries, liftsEntries, settlesEntries, inOrderEntries]
    exact entry.andThen (· ++ ·) (fun counter => follows_entries under counter entries h.2)
      (fun _ => by simp only [readEntries, runsEntries, symbolEntries]; rfl)
      fun _ _ _ => by simp only [readEntries, runsEntries, symbolEntries]; rfl

theorem follows_items (under : List Decision) (counter : Nat) : ∀ items, plainItems items = true →
    (hoistItems counter items).Follows under counter (readItems under)
      (fun temps => readItems under temps items) (quietItems items) (liftsItems items)
      (settlesItems items) (inOrderItems items)
  | [], _ => by
    rw [hoistItems]
    exact .idle (fun _ => by simp only [runsItems]) fun _ => by simp only [symbolItems]
  | item :: items, h => by
    rw [plainItems, Bool.and_eq_true] at h
    rw [hoistItems, quietItems, liftsItems, settlesItems, inOrderItems]
    exact (follows_expr under false counter item h.1).andThen (· ++ ·)
      (fun counter => follows_items under counter items h.2)
      (fun _ => by simp only [readItems, runsItems, symbolItems]; rfl)
      fun _ _ _ => by simp only [readItems, runsItems, symbolItems]; rfl

theorem keeps_arms (under : List Decision) (counter : Nat) (value : Sym) : ∀ arms,
    plainArms arms = true → counter ≤ (hoistArms counter arms).2 ∧
    Keeps (fun temps => runsArms under temps value (hoistArms counter arms).1)
      (fun temps => runsArms under temps value arms) (quietArms arms) (inOrderArms arms)
  | [], _ => by
    simp only [hoistArms, runsArms, quietArms, inOrderArms]
    exact ⟨le_rfl, Keeps.one⟩
  | .mk pattern none body :: arms, h => by
    rw [plainArms, Bool.and_eq_true] at h
    have first := keeps_block (⟨.node (.pattern pattern) [value], 1⟩ :: under) counter body h.1
    have rest := keeps_arms (⟨.node (.pattern pattern) [value], 0⟩ :: under)
      (hoistBlock counter body).2 value arms h.2
    simp only [hoistArms, runsArms, quietArms, inOrderArms, Bool.true_and]
    exact ⟨first.1.trans rest.1, first.2.choice rest.2⟩
  | .mk pattern (some guard) body :: arms, h => by
    simp only [plainArms, Bool.and_eq_true] at h
    obtain ⟨⟨hguard, hbody⟩, harms⟩ := h
    let matched := ⟨.node (.pattern pattern) [value], 1⟩ :: under
    have test := follows_expr matched false counter guard hguard
    have first := fun value => keeps_block (⟨value, 1⟩ :: matched) counter body hbody
    have rest := fun under => keeps_arms under (hoistBlock counter body).2 value arms harms
    have keeps := (test.keeps.mul (Keeps.decided test.symbol_eq fun guard =>
      (first guard).2.choice (rest (⟨guard, 0⟩ :: matched)).2)).choice
        (rest (⟨.node (.pattern pattern) [value], 0⟩ :: under)).2
    simp only [hoistArms, runsArms, quietArms, inOrderArms]
    exact ⟨(first value).1.trans (rest under).1,
      keeps.weaken (by simp +contextual) (by simp +contextual)⟩

theorem keeps_selectArms (under : List Decision) (counter : Nat) : ∀ arms,
    plainSelectArms arms = true → counter ≤ (hoistSelectArms counter arms).2 ∧
    Keeps (fun temps => runsOperations under temps (hoistSelectArms counter arms).1)
      (fun temps => runsOperations under temps arms) false true ∧
    Keeps (fun temps => runsSelected under temps (hoistSelectArms counter arms).1)
      (fun temps => runsSelected under temps arms) false (inOrderSelectArms arms)
  | [], _ => by
    simp only [hoistSelectArms, runsOperations, runsSelected, inOrderSelectArms]
    exact ⟨le_rfl, Keeps.one.weaken nofun id, Keeps.one.weaken nofun id⟩
  | .mk _ operation body :: arms, h => by
    simp only [plainSelectArms, Bool.and_eq_true] at h
    obtain ⟨⟨hoperation, hbody⟩, harms⟩ := h
    have starts := follows_expr under false counter operation hoperation
    have first := fun value => keeps_block (⟨value, 1⟩ :: under) counter body hbody
    have rest := fun under => keeps_selectArms under (hoistBlock counter body).2 arms harms
    have operations := starts.keeps.mul (rest under).2.1
    have selected := Keeps.decided starts.symbol_eq fun value =>
      (first value).2.choice (rest (⟨value, 0⟩ :: under)).2.2
    simp only [hoistSelectArms, runsOperations, runsSelected, inOrderSelectArms]
    exact ⟨(first (.leaf .unknown)).1.trans (rest under).1, operations.weaken nofun id,
      selected.weaken nofun id⟩

theorem keeps_block (under : List Decision) (counter : Nat) : ∀ block, plainBlock block = true →
    counter ≤ (hoistBlock counter block).2 ∧
    Keeps (fun temps => runsBlock under temps (hoistBlock counter block).1)
      (fun temps => runsBlock under temps block) (quietBlock block) (inOrderBlock block)
  | [], _ => by
    simp only [hoistBlock, runsBlock, quietBlock, inOrderBlock]
    exact ⟨le_rfl, Keeps.one⟩
  | stmt :: block, h => by
    rw [plainBlock, Bool.and_eq_true] at h
    have first := follows_stmt under counter stmt h.1
    have rest := keeps_block under (hoistStmt counter stmt).counter block h.2
    simp only [hoistBlock, runsBlock_append, runsBlock, quietBlock, inOrderBlock,
      bindStmt_plain h.1, bindStmt_hoistStmt h.1]
    refine ⟨first.grows.trans rest.1, fun both temps => ?_, fun alike => ?_, fun both temps => ?_⟩
    · rw [Bool.and_eq_true] at both
      obtain ⟨none, left, lifted⟩ := first.still both.1 temps
      have none : runsStmt under temps stmt = 1 := none
      have left : runsStmt under temps (hoistStmt counter stmt).result = 1 := left
      simp only [lifted, bindBlock, List.foldl_nil, runsBlock, none, left,
        rest.2.still both.2, mul_one, and_self]
    · exact congrArg₂ (· * ·) (congrArg Prod.fst (first.source alike)) (rest.2.source alike)
    · rw [Bool.and_eq_true] at both
      have kept : runsStmt under temps stmt = _ := first.kept both.1 temps
      rw [kept, rest.2.source (first.binds temps).alike, rest.2.kept both.2, mul_assoc]

theorem follows_stmt (under : List Decision) (counter : Nat) : ∀ stmt, plainStmt stmt = true →
    (hoistStmt counter stmt).Follows under counter (readStmt under)
      (fun temps => readStmt under temps stmt) (quietStmt stmt) true false (inOrderStmt stmt)
  | .let _ _ _ none _, _ | .unknown, _ => by
    simp only [hoistStmt]
    exact .idle (fun _ => by simp only [runsStmt]) fun _ => rfl
  | .return none, _ | .break, _ | .continue, _ => by
    simp only [hoistStmt]
    exact .plain le_rfl ⟨nofun, fun _ => by simp only [runsStmt], fun _ _ => rfl⟩ (fun _ => rfl)
      (fun _ => rfl) nofun
  | .let _ _ _ (some value) _, h => by
    rw [plainStmt, Bool.and_eq_true] at h
    simp only [hoistStmt, quietStmt, inOrderStmt]
    exact ((follows_expr under true counter value h.2).map (fun _ => [])
      (fun _ => by simp only [readStmt, runsStmt]) fun _ => by simp only [readStmt, runsStmt]).forget
  | .return (some value), h => by
    rw [plainStmt] at h
    simp only [hoistStmt, quietStmt, inOrderStmt]
    exact ((follows_expr under true counter value h).after (fun symbols => depart .return symbols under)
      (fun _ => []) (fun _ => by simp only [readStmt, runsStmt])
      fun _ => by simp only [readStmt, runsStmt]).forget
  | .expr value, h => by
    rw [plainStmt] at h
    rw [hoistStmt, quietStmt, inOrderStmt]
    exact ((follows_expr under true counter value h).map (fun _ => [])
      (fun _ => by simp only [readStmt, runsStmt]) fun _ => by simp only [readStmt, runsStmt]).forget
  | .assign target value, h => by
    rw [plainStmt, Bool.and_eq_true] at h
    rw [hoistStmt, quietStmt, inOrderStmt]
    exact ((follows_expr under false counter target h.1).andThen (fun _ _ => [])
      (fun counter => follows_expr under true counter value h.2)
      (fun _ => by simp only [readStmt, runsStmt]) fun _ _ _ => by simp only [readStmt, runsStmt]).forget
  | .if condition thenBody none, h => by
    rw [plainStmt, Bool.and_eq_true] at h
    have test := follows_expr under false counter condition h.1
    have body := fun value => keeps_block (⟨value, 1⟩ :: under) counter thenBody h.2
    have keeps := test.keeps.mul (Keeps.decided test.symbol_eq fun value =>
      (body value).2.choice Keeps.one)
    simp only [hoistStmt, quietStmt, inOrderStmt]
    refine .plain (body (.leaf .unknown)).1 ?_ (fun _ => rfl) (fun _ => rfl) nofun
    simpa only [runsStmt, Bool.and_assoc, Bool.true_and] using keeps
  | .if condition thenBody (some elseBody), h => by
    simp only [plainStmt, Bool.and_eq_true] at h
    have test := follows_expr under false counter condition h.1.1
    have body := fun value => keeps_block (⟨value, 1⟩ :: under) counter thenBody h.1.2
    have other := fun value =>
      keeps_block (⟨value, 0⟩ :: under) (hoistBlock counter thenBody).2 elseBody h.2
    have keeps := test.keeps.mul (Keeps.decided test.symbol_eq fun value =>
      (body value).2.choice (other value).2)
    simp only [hoistStmt, quietStmt, inOrderStmt]
    refine .plain ((body (.leaf .unknown)).1.trans (other (.leaf .unknown)).1) ?_ (fun _ => rfl)
      (fun _ => rfl) nofun
    simpa only [runsStmt, Bool.and_assoc, Bool.true_and] using keeps
  | .loop none body, h => by
    rw [plainStmt] at h
    have rounds := fun value => keeps_block (value :: under) counter body h
    simp only [hoistStmt, quietStmt, inOrderStmt]
    refine .plain (rounds ⟨.leaf .unknown, 0⟩).1 ?_ (fun _ => rfl) (fun _ => rfl) nofun
    simpa only [runsStmt] using Keeps.loop loopExits False (fun _ => Keeps.one) fun round =>
      (rounds ⟨.leaf .unknown, round⟩).2
  | .loop (some condition) body, h => by
    rw [plainStmt, Bool.and_eq_true] at h
    have test := fun under => follows_expr under false counter condition h.1
    have rounds := fun value => keeps_block (value :: under) counter body h.2
    simp only [hoistStmt, quietStmt, inOrderStmt]
    refine .plain (rounds ⟨.leaf .unknown, 0⟩).1 ?_ (fun _ => rfl) (fun _ => rfl) nofun
    simpa only [runsStmt] using Keeps.decided (test under).symbol_eq fun value =>
      Keeps.loop loopExits True (fun round => (test (⟨value, round⟩ :: under)).keeps) fun round =>
        (rounds ⟨value, round⟩).2
  | .for _ iterable body, h => by
    rw [plainStmt, Bool.and_eq_true] at h
    have source := follows_expr under false counter iterable h.1
    have rounds := fun value => keeps_block (value :: under) counter body h.2
    have keeps := source.keeps.mul (Keeps.decided source.symbol_eq fun value =>
      Keeps.loop loopExits True (fun _ => Keeps.one) fun round => (rounds ⟨value, round⟩).2)
    simp only [hoistStmt, quietStmt, inOrderStmt]
    refine .plain (rounds ⟨.leaf .unknown, 0⟩).1 ?_ (fun _ => rfl) (fun _ => rfl) nofun
    simpa only [runsStmt, Bool.and_false, Bool.true_and] using keeps
  | .with resource _ body, h => by
    rw [plainStmt, Bool.and_eq_true] at h
    have body := keeps_block under counter body h.2
    have keeps := (follows_expr under false counter resource h.1).keeps.mul body.2
    rw [hoistStmt, quietStmt, inOrderStmt]
    refine .plain body.1 ?_ (fun _ => rfl) (fun _ => rfl) nofun
    simpa only [runsStmt, Bool.true_and] using keeps
  | .taskGroup body, h => by
    rw [plainStmt] at h
    have body := keeps_block under counter body h
    rw [hoistStmt, quietStmt, inOrderStmt]
    refine .plain body.1 ?_ (fun _ => rfl) (fun _ => rfl) nofun
    simpa only [runsStmt] using body.2
  | .match value effect arms, h => by
    rw [plainStmt, Bool.and_eq_true] at h
    have operand := follows_expr under false counter value h.1
    have keeps := operand.keeps.mul (Keeps.decided
      (fun alike => congrArg (Sym.node (.match effect) [·]) (operand.symbol_eq alike))
      fun value => (keeps_arms under counter value arms h.2).2)
    rw [hoistStmt, quietStmt, inOrderStmt]
    refine .plain (keeps_arms under counter (.leaf .unknown) arms h.2).1 ?_ (fun _ => rfl)
      (fun _ => rfl) nofun
    simpa only [runsStmt, Bool.true_and] using keeps
  | .select arms, h => by
    rw [plainStmt] at h
    obtain ⟨grows, operations, selected⟩ := keeps_selectArms under counter arms h
    rw [hoistStmt, quietStmt, inOrderStmt]
    refine .plain grows ?_ (fun _ => rfl) (fun _ => rfl) nofun
    simpa only [runsStmt, Bool.and_false, Bool.true_and] using operations.mul selected
  | .letElse pattern value elseBody _, h => by
    rw [plainStmt, Bool.and_eq_true] at h
    have first := follows_expr under true counter value h.1
    have body := fun symbols => keeps_block (⟨.node (.pattern pattern) symbols, 0⟩ :: under)
      (hoistExpr true counter value).counter elseBody h.2
    simp only [hoistStmt, quietStmt, inOrderStmt]
    exact (first.beside _ _ (fun _ _ => []) (body []).1 (fun symbols => Keeps.one.choice (body symbols).2)
      (fun _ => rfl) (fun _ => by simp only [readStmt, runsStmt])
      fun _ => by simp only [readStmt, runsStmt]).forget

end

/-- `let x = g(await h(), f())` -/
def awaitThenCall : Block :=
  [.let .managed "x" none
    (some (.call (.name "g")
      [(none, .await (.call (.name "h") [])), (none, .call (.name "f") [])])) none]

/-- `let x = g(f(), await h())` -/
def callThenAwait : Block :=
  [.let .managed "x" none
    (some (.call (.name "g")
      [(none, .call (.name "f") []), (none, .await (.call (.name "h") []))])) none]

/-- The call of a function without arguments. -/
def called (name : String) : Sym := .node .call [.node (.function name) []]

end Order

end RSScript.Syntax
