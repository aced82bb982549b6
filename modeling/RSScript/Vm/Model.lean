import RSScript.Bytecode.Verify.Metadata

/-!
# Executable units of the register VM

The functions the interpreter runs. Instructions that touch registers in the
same way share a constructor of `RegInstr`: it carries the opcode, and the fields
that are no registers as the payload spells them. Everything the interpreter does
with registers is thus in the constructor, and only what an operation computes is
left to its opcode.

How a verified payload is decoded into such a unit is not part of the model: what
is proved about runs holds of every unit, whatever payload it was loaded from.
-/

namespace RSScript.Vm

open RSScript.Bytecode

/-- The instructions of a decoded function. -/
inductive RegInstr where
  /-- Read `reads` in order and move the value of `takes` out, compute, then write
  `updates` and `dst`. -/
  | plain (opcode : String) (reads : List Nat) (takes updates dst : Option Nat) (data : Fields)
  | deepCopyElided (reg : Nat)
  | tailCallGuard
  | runtimeError (message : String)
  | jump (target : Nat)
  /-- `JumpIfBool` and `JumpIfIntCompare`. -/
  | jumpIf (opcode : String) (reads : List Nat) (target : Nat) (data : Fields)
  /-- `MatchOption`, `MatchResult` and `MatchVariant`. -/
  | matchCase (opcode : String) (src : Nat) (matchIp elseIp : Nat) (data : Fields)
  /-- `MatchMapGet` and `MatchSortedMapGet`. -/
  | matchGet (opcode : String) (map key valueDst : Nat) (someIp noneIp : Nat)
  | makeClosure (dst : Nat) (function : Nat) (captures : List Nat)
  | callKnown (dst : Nat) (function : Nat) (args : List Nat) (mutArgs : List Nat)
  | callDynamic (dst : Nat) (dispatch : List (String × Nat)) (args : List Nat) (mutArgs : List Nat)
  | spawnTask (dst : Nat) (function : Nat) (args : List Nat)
  | awaitJoin (dst src : Nat)
  | cancelTask (src : Nat)
  | joinTasks (handles : List Nat)
  | selectWait (handles : List Nat) (winner value : Nat)
  | callExternal (dst : Nat) (key : String) (args : List Nat) (mutArgs : List Nat)
  | callClosure (dst closure : Nat) (args : List Nat) (mutArgs : List Nat)
  | listFilter (dst list predicate : Nat)
  | listMap (dst list mapper : Nat)
  | listFold (dst list state folder : Nat)
  /-- `ListSortBy`, `ListSortWith` and `SetForEach`, which call closures. -/
  | callback (opcode : String) (reads : List Nat) (dst : Nat)
  | callIntrinsic (dst : Nat) (intrinsic : String) (args : List Nat)
  | callTypedIntrinsic (dst : Nat) (intrinsic typeArg : String) (args : List Nat)
  | tryResult (dst src : Nat) (cleanup : List Nat)
  | resourceAcquire (resource : Nat)
  | resourceDrop (resource : Nat)
  | ret (src : Nat)
  /-- The synthetic instructions of the native compiler. -/
  | native (opcode : String) (closure : Option Nat)

/-- A decoded function. -/
structure RegFunction where
  /-- The function's own position in its unit. -/
  ordinal : Nat
  params : Nat
  captures : Nat
  regs : Nat
  localRegs : List (String × Nat)
  code : List RegInstr

/-- A decoded unit. -/
structure RegUnit where
  functions : List RegFunction
  functionIds : List (String × Nat)
  resourceDropFunctions : List (String × Nat)
  /-- The field names of each declared type. -/
  types : List (String × List String)
  /-- The parameter types of each public function. -/
  nativeSignatures : List (String × List String)
  closureIdentityObservable : Bool

end RSScript.Vm
