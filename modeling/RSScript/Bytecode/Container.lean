import RSScript.Bytecode.Artifact

/-!
# The artifact container

`BytecodeArtifact::to_bytes` and `from_bytes`: a magic number, a section count,
and sections framed by kind, flags, length and hash. Sections stand in
increasing kind order. Four kinds are required; the typed facts are optional;
unknown kinds are skipped unless they are marked required.

Two things come from outside the crate and are parameters here. The hash is any
function to 32 bytes. Deserialization is any function that undoes serialization,
and `Deserializer` carries that law.
-/

namespace RSScript.Bytecode

open ByteCodec CanonicalCbor RSScript.Abi

/-- A hash function of the width SHA-256 has. -/
structure Sha256 where
  digest : Bytes → Bytes
  length_digest : ∀ data, (digest data).length = 32

/-- `serde_json::from_value` at a type, given its `to_value`. -/
structure Deserializer {α : Type} (toValue : α → Value) where
  run : Value → Except String α
  run_toValue : ∀ a, run (toValue a) = .ok a

open Classical in
/-- An injective serializer has a deserializer. -/
noncomputable def Deserializer.ofInjective {α : Type} {toValue : α → Value}
    (h : Function.Injective toValue) : Deserializer toValue where
  run value :=
    if hex : ∃ a, toValue a = value then .ok hex.choose else .error "no such value"
  run_toValue a := by
    have hex : ∃ b, toValue b = toValue a := ⟨a, rfl⟩
    rw [dif_pos hex, h hex.choose_spec]

/-! ## Sections -/

def bytecodeMagic : Bytes := [0x52, 0x53, 0x53, 0x42, 0x43, 0x00, 0x01, 0x00]
def sectionHeader : UInt8 := 1
def sectionImports : UInt8 := 2
def sectionCode : UInt8 := 3
def sectionChecksum : UInt8 := 4
def sectionTypedExecutableFacts : UInt8 := 5
def sectionRequired : UInt8 := 1
def maxSections : Nat := 64

/-- A section as it is framed. -/
structure Section where
  kind : UInt8
  flags : UInt8
  data : Bytes
  deriving DecidableEq, Repr

def encodeExecutablePayload (value : Value) : Except BytecodeError Bytes :=
  (encode value).mapError fun error => .cbor error.message

def decodeExecutablePayload {α : Type} {toValue : α → Value} (deserializer : Deserializer toValue)
    (bytes : Bytes) : Except BytecodeError α := do
  let value ← (decode bytes).mapError fun error => BytecodeError.cbor error.message
  (deserializer.run value).mapError .cbor

/-- Decode a section that must be spelled as this crate would spell it. -/
def decodeCanonicalSection {α : Type} {toValue : α → Value} (deserializer : Deserializer toValue)
    (bytes : Bytes) : Except BytecodeError α := do
  let value ← decodeExecutablePayload deserializer bytes
  let canonical ← encodeExecutablePayload (toValue value)
  if canonical ≠ bytes then throw .sectionsNotCanonical else return value

/-- A section of a known kind is marked required. -/
def requireSection (frame : Section) : Except BytecodeError Unit :=
  if frame.flags &&& sectionRequired = 0 then throw (.knownSectionNotRequired frame.kind)
  else return ()

section Parameters

variable (sha : Sha256) (headers : Deserializer BytecodeHeader.toValue)
  (externals : Deserializer importsToValue)

/-! ## Writing -/

def writeSection (frame : Section) : Bytes :=
  frame.kind :: frame.flags ::
    (bigEndian 8 frame.data.length ++ (sha.digest frame.data ++ frame.data))

def BytecodeArtifact.sections (artifact : BytecodeArtifact) :
    Except BytecodeError (List Section) := do
  let header ← encodeExecutablePayload artifact.header.toValue
  let imports ← encodeExecutablePayload (importsToValue artifact.imports)
  return [⟨sectionHeader, sectionRequired, header⟩, ⟨sectionImports, sectionRequired, imports⟩,
      ⟨sectionCode, sectionRequired, artifact.payload⟩,
      ⟨sectionChecksum, sectionRequired, utf8 artifact.checksum⟩]
    ++ (match artifact.typedExecutableFacts with
      | some facts => [⟨sectionTypedExecutableFacts, 0, facts⟩]
      | none => [])

def writeContainer (sections : List Section) : Bytes :=
  bytecodeMagic ++ (bigEndian 2 sections.length ++ sections.flatMap (writeSection sha))

def toBytes (artifact : BytecodeArtifact) : Except BytecodeError Bytes := do
  let sections ← artifact.sections
  return writeContainer sha sections

/-! ## Reading -/

def takeByte : Reader BytecodeError UInt8
  | [] => .error .malformedSectionTable
  | first :: rest => .ok (first, rest)

def takeBytes (length : Nat) : Reader BytecodeError Bytes :=
  readChunk .malformedSectionTable length

/-- One framed section, its flags and its hash checked. -/
def readSection : Reader BytecodeError Section := do
  let kind ← takeByte
  let flags ← takeByte
  if flags &&& ~~~sectionRequired ≠ 0 then throw (.invalidSectionFlags kind flags)
  else do
    let length ← takeBytes 8
    let expectedHash ← takeBytes 32
    let data ← takeBytes (ofBigEndian length)
    if sha.digest data ≠ expectedHash then throw (.sectionHashMismatch kind)
    else return ⟨kind, flags, data⟩

/-- What the section loop has collected. -/
structure Collected where
  header : Option BytecodeHeader
  imports : Option (List ExternalImport)
  payload : Option Bytes
  checksum : Option String
  typedExecutableFacts : Option Bytes
  previousKind : UInt8

def Collected.empty : Collected := ⟨none, none, none, none, none, 0⟩

/-- The match on the section kind, after its order has been checked. -/
def Collected.dispatch (collected : Collected) (frame : Section) :
    Except BytecodeError Collected :=
  let collected := { collected with previousKind := frame.kind }
  if frame.kind = sectionHeader then do
    requireSection frame
    let header ← decodeCanonicalSection headers frame.data
    return { collected with header := some header }
  else if frame.kind = sectionImports then do
    requireSection frame
    let imports ← decodeCanonicalSection externals frame.data
    return { collected with imports := some imports }
  else if frame.kind = sectionCode then do
    requireSection frame
    return { collected with payload := some frame.data }
  else if frame.kind = sectionChecksum then do
    requireSection frame
    match String.fromUTF8? ⟨frame.data.toArray⟩ with
    | some checksum => return { collected with checksum := some checksum }
    | none => throw .malformedChecksum
  else if frame.kind = sectionTypedExecutableFacts then
    if frame.flags &&& sectionRequired ≠ 0 then
      throw (.knownSectionMustBeOptional frame.kind)
    else return { collected with typedExecutableFacts := some frame.data }
  else if frame.flags &&& sectionRequired ≠ 0 then
    throw (.unknownRequiredSection frame.kind)
  else return collected

/-- Kinds increase strictly. -/
def Collected.collect (collected : Collected) (frame : Section) :
    Except BytecodeError Collected :=
  if frame.kind ≤ collected.previousKind then throw .sectionsNotCanonical
  else collected.dispatch headers externals frame

def readSections : Nat → Collected → Reader BytecodeError Collected
  | 0, collected => return collected
  | n + 1, collected => do
    let frame ← readSection sha
    let collected ← StateT.lift (collected.collect headers externals frame)
    readSections n collected

/-- The artifact, once every required section has been seen. -/
def Collected.finish (collected : Collected) : Except BytecodeError BytecodeArtifact :=
  match collected.header, collected.imports, collected.payload, collected.checksum with
  | none, _, _, _ => throw (.missingSection sectionHeader)
  | _, none, _, _ => throw (.missingSection sectionImports)
  | _, _, none, _ => throw (.missingSection sectionCode)
  | _, _, _, none => throw (.missingSection sectionChecksum)
  | some header, some imports, some payload, some checksum =>
    return ⟨header, imports, payload, checksum, collected.typedExecutableFacts⟩

/-- The section count behind the magic number. -/
def readCount : Reader BytecodeError Nat := do
  let magic ← readChunk .invalidMagic bytecodeMagic.length
  if magic ≠ bytecodeMagic then throw .invalidMagic
  else do
    let count ← takeBytes 2
    if ofBigEndian count = 0 ∨ maxSections < ofBigEndian count then throw .malformedSectionTable
    else return ofBigEndian count

def fromBytes (bytes : Bytes) : Except BytecodeError BytecodeArtifact := do
  let (count, body) ← readCount bytes
  let (collected, rest) ← readSections sha headers externals count .empty body
  if rest ≠ [] then throw .trailingBytes else collected.finish

/-- The section table alone, whatever its sections hold. -/
def sectionTable (bytes : Bytes) : Except BytecodeError (List Section) := do
  let (count, body) ← readCount bytes
  let (sections, _) ← readN (readSection sha) count body
  return sections

end Parameters

end RSScript.Bytecode
