import RSScript.Lib.ByteCodec
import RSScript.Bytecode.Json

/-!
# Canonical CBOR

The codec of `canonical_cbor.rs`: the subset of CBOR that spells JSON values,
with shortest arguments, shortest exact floats and object keys ordered by
length and then bytes.

Encoder and decoder both refuse nesting beyond `MAX_NESTING`. Here the depth
counts down instead of up: `room` is the number of levels still allowed, so
depth `d` of the source is room `maxNesting + 1 - d`, and the recursion of both
directions is on it.
-/

namespace RSScript.Bytecode.CanonicalCbor

open ByteCodec

def maxNesting : Nat := 128

structure CanonicalCborError where
  message : String
  deriving DecidableEq, Repr

def nestingLimitExceeded : CanonicalCborError := ⟨"CBOR nesting limit exceeded"⟩
def truncatedPayload : CanonicalCborError := ⟨"truncated CBOR payload"⟩
def negativeTooSmall : CanonicalCborError := ⟨"negative CBOR integer is too small"⟩
def lengthExceedsPayload : CanonicalCborError := ⟨"CBOR collection length exceeds payload"⟩

/-! ## Encoding -/

/-- A major type and its argument, in the narrowest of the five widths. -/
def encodeArgument (major value : Nat) : Bytes :=
  if value ≤ 23 then [UInt8.ofNat (major * 32 + value)]
  else if value ≤ 0xff then UInt8.ofNat (major * 32 + 24) :: bigEndian 1 value
  else if value ≤ 0xffff then UInt8.ofNat (major * 32 + 25) :: bigEndian 2 value
  else if value ≤ 0xffffffff then UInt8.ofNat (major * 32 + 26) :: bigEndian 4 value
  else UInt8.ofNat (major * 32 + 27) :: bigEndian 8 value

/-- A float in the shortest format that holds it exactly. -/
def encodeFloat (value : FiniteF64) : Bytes :=
  let half := BinaryFloat.narrow BinaryFloat.half value.bits
  let single := BinaryFloat.narrow BinaryFloat.single value.bits
  if BinaryFloat.doubleEq (BinaryFloat.widen BinaryFloat.half half) value.bits then
    0xf9 :: bigEndian 2 half
  else if BinaryFloat.doubleEq (BinaryFloat.widen BinaryFloat.single single) value.bits then
    0xfa :: bigEndian 4 single
  else 0xfb :: bigEndian 8 value.bits

def encodeNumber (number : Number) : Except CanonicalCborError Bytes :=
  match number.asI64 with
  | some value =>
    if 0 ≤ value then .ok (encodeArgument 0 value.toNat)
    else .ok (encodeArgument 1 (value.natAbs - 1))
  | none =>
    match number.asU64 with
    | some value => .ok (encodeArgument 0 value)
    | none =>
      match number.asFloat with
      | some value => .ok (encodeFloat value)
      | none => .error ⟨"JSON number is not representable as CBOR"⟩

def utf8 (text : String) : Bytes := text.toByteArray.data.toList

def encodeText (text : String) : Bytes := encodeArgument 3 text.utf8ByteSize ++ utf8 text

/-- Canonical key order: shorter keys first, then bytewise. -/
def keyLe (left right : String × Value) : Bool :=
  let (left, right) := (left.1, right.1)
  if left.utf8ByteSize = right.utf8ByteSize then !(utf8 right < utf8 left)
  else left.utf8ByteSize < right.utf8ByteSize

/-- One entry of an object, its value written by `encode`. -/
def encodeEntry (encode : Value → Except CanonicalCborError Bytes) (entry : String × Value) :
    Except CanonicalCborError Bytes := do
  let value ← encode entry.2
  return encodeText entry.1 ++ value

def encodeValue : (room : Nat) → Value → Except CanonicalCborError Bytes
  | 0, _ => .error nestingLimitExceeded
  | _ + 1, .null => .ok [0xf6]
  | _ + 1, .bool false => .ok [0xf4]
  | _ + 1, .bool true => .ok [0xf5]
  | _ + 1, .number number => encodeNumber number
  | _ + 1, .string text => .ok (encodeText text)
  | room + 1, .array values => do
    let elements ← writeAll (encodeValue room) values
    return encodeArgument 4 values.length ++ elements
  | room + 1, .object entries => do
    let elements ← writeAll (encodeEntry (encodeValue room))
      (entries.insertionSort fun left right => keyLe left right)
    return encodeArgument 5 entries.length ++ elements

def encode (value : Value) : Except CanonicalCborError Bytes :=
  encodeValue (maxNesting + 1) value

/-! ## Decoding

The `Decoder`'s cursor is the list of bytes still unread. Its `take` also guards
the addition `cursor + length`, which cannot overflow once `length` has compared
the length with what is left. -/

def byte : Reader CanonicalCborError UInt8
  | [] => .error truncatedPayload
  | first :: rest => .ok (first, rest)

def take (length : Nat) : Reader CanonicalCborError Bytes := readChunk truncatedPayload length

/-- A big-endian scalar of `width` bytes. -/
def scalar (width : Nat) : Reader CanonicalCborError Nat := do
  let bytes ← take width
  return ofBigEndian bytes

def argument (additional : Nat) : Reader CanonicalCborError Nat :=
  if additional ≤ 23 then pure additional
  else if additional = 24 then do return (← byte).toNat
  else if additional = 25 then scalar 2
  else if additional = 26 then scalar 4
  else if additional = 27 then scalar 8
  else throw ⟨"indefinite or reserved CBOR argument is unsupported"⟩

/-- A collection length, refused when even elements of `minimum` bytes could not
fit what is left. -/
def length (additional minimum : Nat) : Reader CanonicalCborError Nat := do
  let length ← argument additional
  let unread ← get
  if unread.length / minimum < length then throw lengthExceedsPayload
  else return length

def text (additional : Nat) : Reader CanonicalCborError String := do
  let length ← length additional 1
  let bytes ← take length
  match String.fromUTF8? ⟨bytes.toArray⟩ with
  | some text => return text
  | none => throw ⟨"CBOR text is not UTF-8"⟩

def floatValue (bits : Nat) : Reader CanonicalCborError Value :=
  match Number.fromF64 bits with
  | some number => return .number number
  | none => throw ⟨"non-finite CBOR float is unsupported"⟩

def simple (additional : Nat) : Reader CanonicalCborError Value :=
  match additional with
  | 20 => return .bool false
  | 21 => return .bool true
  | 22 => return .null
  | 25 => do floatValue (BinaryFloat.widen BinaryFloat.half (← scalar 2))
  | 26 => do floatValue (BinaryFloat.widen BinaryFloat.single (← scalar 4))
  | 27 => do floatValue (← scalar 8)
  | _ => throw ⟨"unsupported simple value in RSScript canonical CBOR"⟩

/-- A negative integer from its argument. `checked_add` and `i64::try_from` of
the source fail with the same error, and fail together. -/
def negative (argument : Nat) : Reader CanonicalCborError Value :=
  if h : argument + 1 < 2 ^ 63 then
    return .number (.negInt (-(argument + 1 : Nat)) (by omega))
  else throw negativeTooSmall

/-- The loop over the entries of an object, with the map built so far. -/
def readEntries (read : Reader CanonicalCborError Value) :
    Nat → List (String × Value) → Reader CanonicalCborError (List (String × Value))
  | 0, values => return values
  | n + 1, values => do
    match ← read with
    | .string key => do
      let value ← read
      if (SortedMap.get key values).isSome then throw ⟨"CBOR object key is duplicated"⟩
      else readEntries read n (SortedMap.insert key value values)
    | _ => throw ⟨"CBOR object key is not text"⟩

def value : (room : Nat) → Reader CanonicalCborError Value
  | 0 => throw nestingLimitExceeded
  | room + 1 => do
    let initial ← byte
    let additional := initial.toNat % 32
    match initial.toNat / 32 with
    | 0 => return .number (.posInt (UInt64.ofNat (← argument additional)))
    | 1 => do negative (← argument additional)
    | 3 => return .string (← text additional)
    | 4 => do
      let length ← length additional 1
      return .array (← readN (value room) length)
    | 5 => do
      let length ← length additional 2
      return .object (← readEntries (value room) length [])
    | 7 => simple additional
    | _ => throw ⟨"unsupported value in RSScript canonical CBOR"⟩

def decode (bytes : Bytes) : Except CanonicalCborError Value := do
  let (value, rest) ← value (maxNesting + 1) bytes
  if rest ≠ [] then throw ⟨"trailing CBOR bytes"⟩
  else return value

end RSScript.Bytecode.CanonicalCbor
