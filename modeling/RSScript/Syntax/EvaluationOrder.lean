import RSScript.Syntax.Ast
import RSScript.Lib.Traces

/-!
# Evaluation order

What a body does, as far as calls, awaits and early exits go: operands and arguments from
left to right and before the call, the right operand of `&&` and `||` on demand. Which
branch is taken, which arm matches and how often a loop goes round is left open, so a body
denotes a set of runs, and every event says which decisions it happened under.

Events carry their operands as symbolic values: what the text says of a value, with the
temporaries of the compiler replaced by what they stand for. Values themselves are not
computed, and nothing is said about what a call does or what a name holds when it is read.
-/

namespace RSScript.Syntax

open Traces

/-- The outermost form of a symbolic value. -/
inductive Shape where
  | named (name : String)
  | map
  | array
  | object
  | binary (op : BinaryOp)
  | field (name : String)
  | index
  | call
  | argument (label : Option String)
  | function (name : String)
  | qualified («namespace» name : String)
  | method (name : String) (effect : Option DataEffect)
  | effect (effect : DataEffect)
  | manage
  | spawn
  | await
  | try
  | match (effect : Option DataEffect)
  | pattern (pattern : MatchPattern)

/-- What the text says of a value. -/
inductive Sym where
  | leaf (text : Expr)
  | node (shape : Shape) (operands : List Sym)

/-- The number of the branch that was taken on a value, or of the round of a loop over it. -/
structure Decision where
  value : Sym
  branch : Nat

/-- The ways in which evaluation leaves a block. -/
inductive Ending where
  /-- The early exit of `?`. -/
  | exit
  | return
  | break
  | continue
  deriving DecidableEq, Repr

/-- What is observed of a run. -/
inductive Event where
  | call (value : Sym) (under : List Decision)
  | await (operands : List Sym) (under : List Decision)
  | leave (way : Ending) (operands : List Sym) (under : List Decision)

abbrev Runs := Lang Event Ending

/-- What the temporaries of the compiler stand for. -/
abbrev Temps := String → Option Sym

/-- The name of a temporary of the compiler. -/
def isTemp (name : String) : Bool := "__rss_await_".toList.isPrefixOf name.toList

mutual

/-- The symbolic value of an expression. -/
def symbol (temps : Temps) : Expr → Sym
  | .ident name => (temps name).getD (.leaf (.ident name))
  | .objectLiteral fields => .node .object (symbolFields temps fields)
  | .mapLiteral entries => .node .map (symbolEntries temps entries)
  | .arrayLiteral items => .node .array (symbolItems temps items)
  | .binary op left right => .node (.binary op) [symbol temps left, symbol temps right]
  | .field base name => .node (.field name) [symbol temps base]
  | .index base index => .node .index [symbol temps base, symbol temps index]
  | .call callee args => .node .call (symbolCallee temps callee ++ symbolArgs temps args)
  | .effect effect value => .node (.effect effect) [symbol temps value]
  | .manage value => .node .manage [symbol temps value]
  | .spawn value => .node .spawn [symbol temps value]
  | .await value => .node .await [symbol temps value]
  | .try value => .node .try [symbol temps value]
  -- The arm that was taken is among the decisions.
  | .match value effect _ => .node (.match effect) [symbol temps value]
  | .number text => .leaf (.number text)
  | .string text => .leaf (.string text)
  | .charLiteral text => .leaf (.charLiteral text)
  | .multilineString text => .leaf (.multilineString text)
  | .closure params body => .leaf (.closure params body)
  | .unknown => .leaf .unknown

def symbolCallee (temps : Temps) : Callee → List Sym
  | .name name => [.node (.function name) []]
  | .qualified «namespace» name => [.node (.qualified «namespace» name) []]
  | .receiverCall receiver method effect => [.node (.method method effect) [symbol temps receiver]]

def symbolArgs (temps : Temps) : List (Option String × Expr) → List Sym
  | [] => []
  | (label, value) :: args => .node (.argument label) [symbol temps value] :: symbolArgs temps args

def symbolFields (temps : Temps) : List (String × Expr) → List Sym
  | [] => []
  | (name, value) :: fields => .node (.named name) [symbol temps value] :: symbolFields temps fields

def symbolEntries (temps : Temps) : List (Expr × Expr) → List Sym
  | [] => []
  | (key, value) :: entries => symbol temps key :: symbol temps value :: symbolEntries temps entries

def symbolItems (temps : Temps) : List Expr → List Sym
  | [] => []
  | item :: items => symbol temps item :: symbolItems temps items

end

/-- A temporary stands for its value from its `let` on. -/
def bindStmt (temps : Temps) : Stmt → Temps
  | .let _ name _ (some value) _ =>
    if isTemp name then Function.update temps name (some (symbol temps value)) else temps
  | _ => temps

def bindBlock (temps : Temps) (block : Block) : Temps := block.foldl bindStmt temps

def loopExits : LoopExits Ending := ⟨.break, .continue⟩

/-- Leave the block, which is an event of its own. -/
def depart (way : Ending) (operands : List Sym) (under : List Decision) : Runs :=
  event (.leave way operands under) * leave way

mutual

/-- What an expression does. -/
def runs (under : List Decision) (temps : Temps) : Expr → Runs
  | .ident _ | .number _ | .string _ | .charLiteral _ | .multilineString _ | .unknown => 1
  -- The body of a closure runs when it is called.
  | .closure _ _ => 1
  | .objectLiteral fields => runsFields under temps fields
  | .mapLiteral entries => runsEntries under temps entries
  | .arrayLiteral items => runsItems under temps items
  | .binary op left right =>
    if op.isShortCircuit then
      runs under temps left *
        choice 1 (runs (⟨.node (.binary op) [symbol temps left], 1⟩ :: under) temps right)
    else runs under temps left * runs under temps right
  | .field base _ => runs under temps base
  | .index base index => runs under temps base * runs under temps index
  | .call callee args =>
    runsCallee under temps callee * runsArgs under temps args *
      event (.call (.node .call (symbolCallee temps callee ++ symbolArgs temps args)) under)
  | .effect _ value | .manage value | .spawn value => runs under temps value
  | .await value => runs under temps value * event (.await [symbol temps value] under)
  | .try value => runs under temps value * choice 1 (depart .exit [symbol temps value] under)
  | .match value effect arms =>
    runs under temps value * runsArms under temps (.node (.match effect) [symbol temps value]) arms

def runsCallee (under : List Decision) (temps : Temps) : Callee → Runs
  | .receiverCall receiver _ _ => runs under temps receiver
  | .name _ | .qualified _ _ => 1

def runsArgs (under : List Decision) (temps : Temps) : List (Option String × Expr) → Runs
  | [] => 1
  | (_, value) :: args => runs under temps value * runsArgs under temps args

def runsFields (under : List Decision) (temps : Temps) : List (String × Expr) → Runs
  | [] => 1
  | (_, value) :: fields => runs under temps value * runsFields under temps fields

def runsEntries (under : List Decision) (temps : Temps) : List (Expr × Expr) → Runs
  | [] => 1
  | (key, value) :: entries =>
    runs under temps key * runs under temps value * runsEntries under temps entries

def runsItems (under : List Decision) (temps : Temps) : List Expr → Runs
  | [] => 1
  | item :: items => runs under temps item * runsItems under temps items

/-- The first arm is taken, or its guard fails, or its pattern does not match. -/
def runsArms (under : List Decision) (temps : Temps) (value : Sym) : List MatchArm → Runs
  | [] => 1
  | .mk pattern guard body :: arms =>
    let matched := ⟨.node (.pattern pattern) [value], 1⟩ :: under
    let other := runsArms (⟨.node (.pattern pattern) [value], 0⟩ :: under) temps value arms
    match guard with
    | none => choice (runsBlock matched temps body) other
    | some guard =>
      choice (runs matched temps guard *
        choice (runsBlock (⟨symbol temps guard, 1⟩ :: matched) temps body)
          (runsArms (⟨symbol temps guard, 0⟩ :: matched) temps value arms)) other

/-- The operations of all arms are started in order. -/
def runsOperations (under : List Decision) (temps : Temps) : List SelectArm → Runs
  | [] => 1
  | .mk _ operation _ :: arms => runs under temps operation * runsOperations under temps arms

def runsSelected (under : List Decision) (temps : Temps) : List SelectArm → Runs
  | [] => 1
  | .mk _ operation body :: arms =>
    choice (runsBlock (⟨symbol temps operation, 1⟩ :: under) temps body)
      (runsSelected (⟨symbol temps operation, 0⟩ :: under) temps arms)

/-- Statements one after the other, with the temporaries they bind. -/
def runsBlock (under : List Decision) (temps : Temps) : List Stmt → Runs
  | [] => 1
  | stmt :: block => runsStmt under temps stmt * runsBlock under (bindStmt temps stmt) block

/-- What a statement does. -/
def runsStmt (under : List Decision) (temps : Temps) : Stmt → Runs
  | .let _ _ _ value _ =>
    match value with
    | none => 1
    | some value => runs under temps value
  | .return value =>
    match value with
    | none => depart .return [] under
    | some value => runs under temps value * depart .return [symbol temps value] under
  | .with resource _ body => runs under temps resource * runsBlock under temps body
  | .if condition thenBody elseBody =>
    runs under temps condition *
      choice (runsBlock (⟨symbol temps condition, 1⟩ :: under) temps thenBody)
        (match elseBody with
          | none => 1
          | some elseBody => runsBlock (⟨symbol temps condition, 0⟩ :: under) temps elseBody)
  | .loop condition body =>
    match condition with
    | none => loop loopExits False (fun _ => 1) fun round =>
      runsBlock (⟨.leaf .unknown, round⟩ :: under) temps body
    | some condition =>
      loop loopExits True (fun round => runs (⟨symbol temps condition, round⟩ :: under) temps condition)
        fun round => runsBlock (⟨symbol temps condition, round⟩ :: under) temps body
  | .for _ iterable body =>
    runs under temps iterable * loop loopExits True (fun _ => 1) fun round =>
      runsBlock (⟨symbol temps iterable, round⟩ :: under) temps body
  | .match value effect arms =>
    runs under temps value * runsArms under temps (.node (.match effect) [symbol temps value]) arms
  | .taskGroup body => runsBlock under temps body
  | .select arms => runsOperations under temps arms * runsSelected under temps arms
  | .break => depart .break [] under
  | .continue => depart .continue [] under
  | .letElse pattern value elseBody _ =>
    runs under temps value *
      choice 1 (runsBlock (⟨.node (.pattern pattern) [symbol temps value], 0⟩ :: under) temps elseBody)
  | .assign target value => runs under temps target * runs under temps value
  | .expr value => runs under temps value
  | .unknown => 1

end

theorem runsBlock_append : runsBlock under temps (first ++ second) =
    runsBlock under temps first * runsBlock under (bindBlock temps first) second := by
  induction first generalizing temps with
  | nil => rw [List.nil_append, runsBlock, one_mul, bindBlock, List.foldl_nil]
  | cons stmt first ih =>
    rw [List.cons_append, runsBlock, runsBlock, ih, mul_assoc, bindBlock, bindBlock, List.foldl_cons]

mutual

/-- Evaluation does nothing: no call, no await, no early exit, no jump. -/
def quiet : Expr → Bool
  | .ident _ | .number _ | .string _ | .charLiteral _ | .multilineString _ | .unknown
  | .closure _ _ => true
  | .objectLiteral fields => quietFields fields
  | .mapLiteral entries => quietEntries entries
  | .arrayLiteral items => quietItems items
  | .binary _ left right => quiet left && quiet right
  | .field base _ => quiet base
  | .index base index => quiet base && quiet index
  | .effect _ value | .manage value | .spawn value => quiet value
  | .call _ _ | .await _ | .try _ => false
  | .match value _ arms => quiet value && quietArms arms

def quietFields : List (String × Expr) → Bool
  | [] => true
  | (_, value) :: fields => quiet value && quietFields fields

def quietEntries : List (Expr × Expr) → Bool
  | [] => true
  | (key, value) :: entries => quiet key && quiet value && quietEntries entries

def quietItems : List Expr → Bool
  | [] => true
  | item :: items => quiet item && quietItems items

def quietArms : List MatchArm → Bool
  | [] => true
  | .mk _ guard body :: arms =>
    (match guard with
      | none => true
      | some guard => quiet guard) && quietBlock body && quietArms arms

def quietBlock : List Stmt → Bool
  | [] => true
  | stmt :: block => quietStmt stmt && quietBlock block

def quietStmt : Stmt → Bool
  | .let _ _ _ value _ =>
    match value with
    | none => true
    | some value => quiet value
  | .with resource _ body => quiet resource && quietBlock body
  | .if condition thenBody elseBody =>
    quiet condition && quietBlock thenBody &&
      match elseBody with
      | none => true
      | some elseBody => quietBlock elseBody
  | .match value _ arms => quiet value && quietArms arms
  | .taskGroup body => quietBlock body
  | .letElse _ value elseBody _ => quiet value && quietBlock elseBody
  | .assign target value => quiet target && quiet value
  | .expr value => quiet value
  | .unknown => true
  | .return _ | .break | .continue | .loop _ _ | .for _ _ _ | .select _ => false

end

mutual

/-- No temporary of the compiler is bound or read. -/
def plain : Expr → Bool
  | .ident name => !isTemp name
  | .number _ | .string _ | .charLiteral _ | .multilineString _ | .unknown | .closure _ _ => true
  | .objectLiteral fields => plainFields fields
  | .mapLiteral entries => plainEntries entries
  | .arrayLiteral items => plainItems items
  | .binary _ left right => plain left && plain right
  | .field base _ => plain base
  | .index base index => plain base && plain index
  | .call callee args => plainCallee callee && plainArgs args
  | .effect _ value | .manage value | .spawn value | .await value | .try value => plain value
  | .match value _ arms => plain value && plainArms arms

def plainCallee : Callee → Bool
  | .receiverCall receiver _ _ => plain receiver
  | .name _ | .qualified _ _ => true

def plainArgs : List (Option String × Expr) → Bool
  | [] => true
  | (_, value) :: args => plain value && plainArgs args

def plainFields : List (String × Expr) → Bool
  | [] => true
  | (_, value) :: fields => plain value && plainFields fields

def plainEntries : List (Expr × Expr) → Bool
  | [] => true
  | (key, value) :: entries => plain key && plain value && plainEntries entries

def plainItems : List Expr → Bool
  | [] => true
  | item :: items => plain item && plainItems items

def plainArms : List MatchArm → Bool
  | [] => true
  | .mk _ none body :: arms => plainBlock body && plainArms arms
  | .mk _ (some guard) body :: arms => plain guard && plainBlock body && plainArms arms

def plainSelectArms : List SelectArm → Bool
  | [] => true
  | .mk _ operation body :: arms => plain operation && plainBlock body && plainSelectArms arms

def plainBlock : List Stmt → Bool
  | [] => true
  | stmt :: block => plainStmt stmt && plainBlock block

def plainStmt : Stmt → Bool
  | .let _ name _ none _ => !isTemp name
  | .let _ name _ (some value) _ => !isTemp name && plain value
  | .return none | .break | .continue | .unknown => true
  | .return (some value) | .expr value => plain value
  | .with resource _ body => plain resource && plainBlock body
  | .if condition thenBody none => plain condition && plainBlock thenBody
  | .if condition thenBody (some elseBody) =>
    plain condition && plainBlock thenBody && plainBlock elseBody
  | .loop none body => plainBlock body
  | .loop (some condition) body => plain condition && plainBlock body
  | .for _ iterable body => plain iterable && plainBlock body
  | .match value _ arms => plain value && plainArms arms
  | .taskGroup body => plainBlock body
  | .select arms => plainSelectArms arms
  | .letElse _ value elseBody _ => plain value && plainBlock elseBody
  | .assign target value => plain target && plain value

end

/-- The same is known of names that are no temporaries. -/
def Alike (temps temps' : Temps) : Prop := ∀ name, isTemp name = false → temps name = temps' name

end RSScript.Syntax
