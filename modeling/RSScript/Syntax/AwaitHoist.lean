import RSScript.Syntax.Ast

/-!
# Hoisting awaits to statement boundaries

`hoist_async_awaits` lifts every nested `await` out of its expression into a
`let __rss_await_N = await …` before the statement. A walk returns the rewritten
tree, the lets lifted out of it, and the next number for a temporary.

A position is a root if the value of the statement stands there: an `await` at a
root is already at the boundary and stays, and only its operand is searched.
-/

namespace RSScript.Syntax

/-- What is left of a tree, the lets lifted out of it, and the next free number. -/
structure Hoisted (α : Type) where
  result : α
  lifted : Block
  counter : Nat

def Hoisted.map {α β : Type} (f : α → β) (hoisted : Hoisted α) : Hoisted β :=
  ⟨f hoisted.result, hoisted.lifted, hoisted.counter⟩

/-- Two walks one after the other. -/
def Hoisted.then {α β γ : Type} (first : Hoisted α) (second : Nat → Hoisted β)
    (combine : α → β → γ) : Hoisted γ :=
  let rest := second first.counter
  ⟨combine first.result rest.result, first.lifted ++ rest.lifted, rest.counter⟩

def isAwait : Expr → Bool
  | .await _ => true
  | _ => false

/-- The name of the temporary with that number. -/
def awaitName (counter : Nat) : String :=
  "__rss_await_" ++ toString counter

/-- Replace an await by a temporary that is bound before the statement. -/
def liftAwait (unit : Expr → Expr) (operand : Hoisted Expr) : Hoisted Expr :=
  let name := awaitName operand.counter
  ⟨.ident name, operand.lifted ++ [.let .managed name none (some (unit operand.result)) none],
    operand.counter + 1⟩

mutual

/-- `hoist_value` at a root and `hoist_nested` elsewhere. -/
def hoistExpr (root : Bool) (counter : Nat) : Expr → Hoisted Expr
  | .await value =>
    let operand := hoistExpr false counter value
    if root then operand.map .await else liftAwait .await operand
  -- `await op?` is lifted whole: the await in it stays, as at a root.
  | .try value =>
    let operand := hoistExpr (isAwait value) counter value
    if isAwait value && !root then liftAwait .try operand else operand.map .try
  | .effect effect value => (hoistExpr root counter value).map (.effect effect)
  | .manage value => (hoistExpr false counter value).map .manage
  | .call callee args =>
    (hoistCallee counter callee).then (fun counter => hoistArgs counter args) .call
  | .binary op left right =>
    if op.isShortCircuit then (hoistExpr false counter left).map fun left => .binary op left right
    else (hoistExpr false counter left).then (fun counter => hoistExpr false counter right)
      (.binary op)
  | .field base name => (hoistExpr false counter base).map fun base => .field base name
  | .index base index =>
    (hoistExpr false counter base).then (fun counter => hoistExpr false counter index) .index
  | .objectLiteral fields => (hoistFields counter fields).map .objectLiteral
  | .mapLiteral entries => (hoistEntries counter entries).map .mapLiteral
  | .arrayLiteral items => (hoistItems counter items).map .arrayLiteral
  | .match value scrutineeEffect arms =>
    let arms := hoistArms counter arms
    ⟨.match value scrutineeEffect arms.1, [], arms.2⟩
  | .ident name => ⟨.ident name, [], counter⟩
  | .number text => ⟨.number text, [], counter⟩
  | .string text => ⟨.string text, [], counter⟩
  | .charLiteral text => ⟨.charLiteral text, [], counter⟩
  | .multilineString text => ⟨.multilineString text, [], counter⟩
  | .spawn value => ⟨.spawn value, [], counter⟩
  | .closure params body => ⟨.closure params body, [], counter⟩
  | .unknown => ⟨.unknown, [], counter⟩

def hoistCallee (counter : Nat) : Callee → Hoisted Callee
  | .receiverCall receiver method effect =>
    (hoistExpr false counter receiver).map fun receiver => .receiverCall receiver method effect
  | .name name => ⟨.name name, [], counter⟩
  | .qualified «namespace» name => ⟨.qualified «namespace» name, [], counter⟩

def hoistArgs (counter : Nat) : List (Option String × Expr) → Hoisted (List (Option String × Expr))
  | [] => ⟨[], [], counter⟩
  | (name, value) :: args =>
    (hoistExpr false counter value).then (fun counter => hoistArgs counter args)
      fun value args => (name, value) :: args

def hoistFields (counter : Nat) : List (String × Expr) → Hoisted (List (String × Expr))
  | [] => ⟨[], [], counter⟩
  | (name, value) :: fields =>
    (hoistExpr false counter value).then (fun counter => hoistFields counter fields)
      fun value fields => (name, value) :: fields

def hoistEntries (counter : Nat) : List (Expr × Expr) → Hoisted (List (Expr × Expr))
  | [] => ⟨[], [], counter⟩
  | (key, value) :: entries =>
    ((hoistExpr false counter key).then (fun counter => hoistExpr false counter value) .mk).then
      (fun counter => hoistEntries counter entries) fun entry entries => entry :: entries

def hoistItems (counter : Nat) : List Expr → Hoisted (List Expr)
  | [] => ⟨[], [], counter⟩
  | item :: items =>
    (hoistExpr false counter item).then (fun counter => hoistItems counter items)
      fun item items => item :: items

/-- Arm bodies are blocks of their own; guards are left alone. -/
def hoistArms (counter : Nat) : List MatchArm → List MatchArm × Nat
  | [] => ([], counter)
  | .mk pattern guard body :: arms =>
    let body := hoistBlock counter body
    let arms := hoistArms body.2 arms
    (.mk pattern guard body.1 :: arms.1, arms.2)

def hoistSelectArms (counter : Nat) : List SelectArm → List SelectArm × Nat
  | [] => ([], counter)
  | .mk binding operation body :: arms =>
    let body := hoistBlock counter body
    let arms := hoistSelectArms body.2 arms
    (.mk binding operation body.1 :: arms.1, arms.2)

/-- What was lifted out of a statement stands before it. -/
def hoistBlock (counter : Nat) : List Stmt → Block × Nat
  | [] => ([], counter)
  | stmt :: block =>
    let hoisted := hoistStmt counter stmt
    let rest := hoistBlock hoisted.counter block
    (hoisted.lifted ++ hoisted.result :: rest.1, rest.2)

/-- The head of a statement with blocks stays as it is, that of `let else` apart. -/
def hoistStmt (counter : Nat) : Stmt → Hoisted Stmt
  | .let kind name annotatedType value destructure =>
    match value with
    | none => ⟨.let kind name annotatedType none destructure, [], counter⟩
    | some value =>
      (hoistExpr true counter value).map fun value =>
        .let kind name annotatedType (some value) destructure
  | .return value =>
    match value with
    | none => ⟨.return none, [], counter⟩
    | some value => (hoistExpr true counter value).map fun value => .return (some value)
  | .expr value => (hoistExpr true counter value).map .expr
  | .assign target value =>
    (hoistExpr false counter target).then (fun counter => hoistExpr true counter value) .assign
  | .if condition thenBody elseBody =>
    let thenBody := hoistBlock counter thenBody
    match elseBody with
    | none => ⟨.if condition thenBody.1 none, [], thenBody.2⟩
    | some elseBody =>
      let elseBody := hoistBlock thenBody.2 elseBody
      ⟨.if condition thenBody.1 (some elseBody.1), [], elseBody.2⟩
  | .loop condition body =>
    let body := hoistBlock counter body
    ⟨.loop condition body.1, [], body.2⟩
  | .for binding iterable body =>
    let body := hoistBlock counter body
    ⟨.for binding iterable body.1, [], body.2⟩
  | .with resource binding body =>
    let body := hoistBlock counter body
    ⟨.with resource binding body.1, [], body.2⟩
  | .taskGroup body =>
    let body := hoistBlock counter body
    ⟨.taskGroup body.1, [], body.2⟩
  | .match value scrutineeEffect arms =>
    let arms := hoistArms counter arms
    ⟨.match value scrutineeEffect arms.1, [], arms.2⟩
  | .select arms =>
    let arms := hoistSelectArms counter arms
    ⟨.select arms.1, [], arms.2⟩
  | .letElse pattern value elseBody bindingName =>
    let value := hoistExpr true counter value
    let elseBody := hoistBlock value.counter elseBody
    ⟨.letElse pattern value.result elseBody.1 bindingName, value.lifted, elseBody.2⟩
  | .break => ⟨.break, [], counter⟩
  | .continue => ⟨.continue, [], counter⟩
  | .unknown => ⟨.unknown, [], counter⟩

end

/-- The body of an `async fn`, with its temporaries numbered from zero. -/
def hoistAsyncAwaits (body : Block) : Block :=
  (hoistBlock 0 body).1

end RSScript.Syntax
