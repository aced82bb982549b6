import RSScript.Bytecode.CanonicalCborRoundTrip
import RSScript.Bytecode.Container

/-!
# The container round trip

Writing an artifact and reading it back gives the artifact; reading a container
and writing it again gives the container, as long as it holds no section of a
kind this version does not know (such a section is skipped, hence lost).

Both directions go through the section list. A written section is read back and
a read section was written (`readSection_writeSection`, `readSection_exact`), so
the loop over the sections is a fold of `Collected.collect` over the list that
was framed. The second direction then follows the fold with the invariant
`Reflects`: the sections seen so far are the ones the collected fields would be
written as.
-/

namespace RSScript.Bytecode

open ByteCodec CanonicalCbor Guards RSScript.Abi Collected
open List hiding after count

variable {sha : Sha256} {headers : Deserializer BytecodeHeader.toValue}
  {externals : Deserializer importsToValue}

/-! ## Sections -/

theorem flags_cases (h : flags &&& ~~~sectionRequired = 0) : flags = 0 ∨ flags = 1 := by
  have hall : ∀ n : Fin 256, UInt8.ofNat n &&& ~~~sectionRequired = 0 →
      UInt8.ofNat n = 0 ∨ UInt8.ofNat n = 1 := by decide +kernel
  have hflags := hall ⟨flags.toNat, flags.toNat_lt⟩
  rw [UInt8.ofNat_toNat] at hflags
  exact hflags h

/-- A section as the writer can frame it. -/
structure Section.Framed (frame : Section) : Prop where
  flags : frame.flags &&& ~~~sectionRequired = 0
  length : frame.data.length < 2 ^ 64

variable {frame : Section} {b data : Bytes} {before collected : Collected} {frames : List Section}
  {artifact : BytecodeArtifact}

theorem readSection_writeSection (h : frame.Framed) :
    readSection sha (writeSection sha frame ++ rest) = .ok (frame, rest) := by
  have hlength : ofBigEndian (bigEndian 8 frame.data.length) = frame.data.length :=
    ofBigEndian_bigEndian h.length
  simp only [writeSection, cons_append, append_assoc, readSection, takeBytes]
  rw [Reader.bind_ok (show takeByte (frame.kind :: _) = .ok (frame.kind, _) from rfl),
    Reader.bind_ok (show takeByte (frame.flags :: _) = .ok (frame.flags, _) from rfl),
    if_neg (not_not.mpr h.flags), Reader.bind_ok (readChunk_append (length_bigEndian 8 _)),
    Reader.bind_ok (readChunk_append (sha.length_digest frame.data)), hlength,
    Reader.bind_ok (readChunk_append rfl), if_neg (not_not.mpr rfl)]
  rfl

theorem takeByte_exact {b : UInt8} (h : takeByte bs = .ok (b, rest)) : bs = b :: rest := by
  cases bs with
  | nil => exact absurd h (by simp [takeByte])
  | cons first tail =>
    obtain ⟨rfl, rfl⟩ : first = b ∧ tail = rest := by simpa [takeByte] using h
    rfl

theorem readSection_exact (h : readSection sha bs = .ok (frame, rest)) :
    bs = writeSection sha frame ++ rest ∧ frame.Framed := by
  obtain ⟨kind, bs₁, hkind, h⟩ := Reader.bind_eq_ok.mp h
  obtain ⟨flags, bs₂, hflags, h⟩ := Reader.bind_eq_ok.mp h
  split at h
  case isTrue => exact absurd h (by simp)
  case isFalse hmask =>
    obtain ⟨length, bs₃, hlength, h⟩ := Reader.bind_eq_ok.mp h
    obtain ⟨expected, bs₄, hexpected, h⟩ := Reader.bind_eq_ok.mp h
    obtain ⟨data, bs₅, hdata, h⟩ := Reader.bind_eq_ok.mp h
    split at h
    case isTrue => exact absurd h (by simp)
    case isFalse hhash =>
      obtain ⟨rfl, rfl⟩ : (⟨kind, flags, data⟩ : Section) = frame ∧ bs₅ = rest := by simpa using h
      obtain ⟨rfl, hwidth⟩ := readChunk_exact hlength
      obtain ⟨rfl, -⟩ := readChunk_exact hexpected
      obtain ⟨rfl, hsize⟩ := readChunk_exact hdata
      have hspelled : bigEndian 8 data.length = length := by
        rw [hsize, ← hwidth, bigEndian_ofBigEndian]
      refine ⟨?_, not_not.mp hmask, ?_⟩
      · rw [takeByte_exact hkind, takeByte_exact hflags, writeSection, hspelled, not_not.mp hhash]
        simp
      · rw [hsize]
        exact (ofBigEndian_lt length).trans_le (by rw [hwidth]; decide)

/-! ## The section loop -/

/-- Collect a list of sections, in order. -/
def Collected.collectAll (headers : Deserializer BytecodeHeader.toValue)
    (externals : Deserializer importsToValue) :
    Collected → List Section → Except BytecodeError Collected
  | collected, [] => .ok collected
  | collected, frame :: frames => do
    let collected ← collected.collect headers externals frame
    collected.collectAll headers externals frames

theorem readSections_write (hframed : ∀ frame ∈ frames, frame.Framed)
    (h : before.collectAll headers externals frames = .ok after) (rest : Bytes) :
    readSections sha headers externals frames.length before
      (frames.flatMap (writeSection sha) ++ rest) = .ok (after, rest) := by
  induction frames generalizing before with
  | nil =>
    obtain rfl : before = after := by simpa [collectAll] using h
    rfl
  | cons frame frames ih =>
    obtain ⟨hhead, htail⟩ := forall_mem_cons.mp hframed
    obtain ⟨next, hnext, h⟩ := bind_eq_ok.mp h
    simp only [length_cons, readSections, flatMap_cons, append_assoc]
    rw [Reader.bind_ok (readSection_writeSection hhead),
      Reader.bind_ok (Reader.lift_eq_ok.mpr ⟨hnext, rfl⟩)]
    exact ih htail h

theorem readSections_exact
    (h : readSections sha headers externals n before bs = .ok (after, rest)) :
    ∃ frames : List Section, frames.length = n ∧
      bs = frames.flatMap (writeSection sha) ++ rest ∧ (∀ frame ∈ frames, frame.Framed) ∧
      before.collectAll headers externals frames = .ok after := by
  induction n generalizing before bs with
  | zero =>
    obtain ⟨rfl, rfl⟩ : before = after ∧ bs = rest := by simpa [readSections] using h
    exact ⟨[], rfl, rfl, by simp, rfl⟩
  | succ n ih =>
    obtain ⟨frame, bs₁, hframe, hbody⟩ := Reader.bind_eq_ok.mp h
    obtain ⟨next, bs₂, hlift, hloop⟩ := Reader.bind_eq_ok.mp hbody
    obtain ⟨hnext, rfl⟩ := Reader.lift_eq_ok.mp hlift
    obtain ⟨rfl, hframed⟩ := readSection_exact hframe
    obtain ⟨frames, rfl, rfl, hall, hcollect⟩ := ih hloop
    refine ⟨frame :: frames, rfl, by simp, forall_mem_cons.mpr ⟨hframed, hall⟩, ?_⟩
    exact bind_eq_ok.mpr ⟨next, hnext, hcollect⟩

/-- The section table of a written container is the list that was framed. -/
theorem readN_readSection (hframed : ∀ frame ∈ frames, frame.Framed) (rest : Bytes) :
    readN (readSection sha) frames.length (frames.flatMap (writeSection sha) ++ rest)
      = .ok (frames, rest) := by
  induction frames with
  | nil => rfl
  | cons frame frames ih =>
    obtain ⟨hhead, htail⟩ := forall_mem_cons.mp hframed
    simp only [length_cons, readN, flatMap_cons, append_assoc]
    rw [Reader.bind_ok (readSection_writeSection hhead), Reader.bind_ok (ih htail)]
    rfl

/-! ## The header of the container -/

theorem readCount_write (hpos : n ≠ 0) (hmax : n ≤ maxSections) (rest : Bytes) :
    readCount (bytecodeMagic ++ (bigEndian 2 n ++ rest)) = .ok (n, rest) := by
  have hcount : ofBigEndian (bigEndian 2 n) = n := ofBigEndian_bigEndian (hmax.trans_lt (by decide))
  unfold readCount takeBytes
  rw [Reader.bind_ok (readChunk_append rfl), if_neg (not_not.mpr rfl),
    Reader.bind_ok (readChunk_append (length_bigEndian 2 n)), hcount, if_neg (by omega)]
  rfl

theorem readCount_exact (h : readCount bs = .ok (n, rest)) :
    bs = bytecodeMagic ++ (bigEndian 2 n ++ rest) ∧ n ≠ 0 ∧ n ≤ maxSections := by
  obtain ⟨magic, bs₁, hmagic, h⟩ := Reader.bind_eq_ok.mp h
  split at h
  case isTrue => exact absurd h (by simp)
  case isFalse hne =>
    obtain ⟨count, bs₂, hcount, h⟩ := Reader.bind_eq_ok.mp h
    split at h
    case isTrue => exact absurd h (by simp)
    case isFalse hrange =>
      obtain ⟨rfl, rfl⟩ : ofBigEndian count = n ∧ bs₂ = rest := by simpa using h
      obtain ⟨rfl, -⟩ := readChunk_exact hmagic
      obtain ⟨rfl, hwidth⟩ := readChunk_exact hcount
      refine ⟨?_, by omega, by omega⟩
      rw [← hwidth, bigEndian_ofBigEndian, not_not.mp hne]

/-! ## Writing, then reading -/

theorem encodeExecutablePayload_eq_ok {value : Value} :
    encodeExecutablePayload value = .ok b ↔ encode value = .ok b := by
  unfold encodeExecutablePayload
  cases encode value with
  | error error => simp [Except.mapError]
  | ok encoded => simp [Except.mapError]

/-- A canonical section is read back as the value it was written from. -/
theorem decodeCanonicalSection_encode {toValue : α → Value} {deserializer : Deserializer toValue}
    (hsafe : Safe (toValue a)) (h : encodeExecutablePayload (toValue a) = .ok b)
    (hlen : b.length < 2 ^ 64) : decodeCanonicalSection deserializer b = .ok a := by
  have hencode := encodeExecutablePayload_eq_ok.mp h
  have hdecode : decode b = .ok (toValue a) :=
    (decode_of_encode ⟨hsafe.ordered, sized_of_encodeValue hencode hlen⟩ hencode).1 hsafe.decodable
  have hpayload : decodeExecutablePayload deserializer b = .ok a := by
    rw [decodeExecutablePayload, hdecode]
    change (deserializer.run (toValue a)).mapError _ = _
    rw [deserializer.run_toValue]
    rfl
  refine bind_eq_ok.mpr ⟨a, hpayload, bind_eq_ok.mpr ⟨b, h, ?_⟩⟩
  rw [if_neg (not_not.mpr rfl)]
  rfl

theorem decodeCanonicalSection_exact {toValue : α → Value} {deserializer : Deserializer toValue}
    (h : decodeCanonicalSection deserializer b = .ok a) :
    encodeExecutablePayload (toValue a) = .ok b := by
  obtain ⟨value, -, hrest⟩ := bind_eq_ok.mp h
  obtain ⟨canonical, hcanonical, hcheck⟩ := bind_eq_ok.mp hrest
  split at hcheck
  case isTrue => exact absurd hcheck (by simp)
  case isFalse heq =>
    obtain rfl : value = a := by simpa using hcheck
    rw [hcanonical, not_not.mp heq]

/-- The four required sections, then the facts if there are any. -/
theorem sections_eq_ok : artifact.sections = .ok frames ↔
      ∃ header imports, encodeExecutablePayload artifact.header.toValue = .ok header ∧
        encodeExecutablePayload (importsToValue artifact.imports) = .ok imports ∧
        frames = [⟨1, 1, header⟩, ⟨2, 1, imports⟩, ⟨3, 1, artifact.payload⟩,
          ⟨4, 1, utf8 artifact.checksum⟩] ++
          (artifact.typedExecutableFacts.toList.map fun facts => ⟨5, 0, facts⟩) := by
  unfold BytecodeArtifact.sections
  simp only [bind_eq_ok, pure_eq_ok]
  constructor
  · rintro ⟨header, hheader, imports, himports, rfl⟩
    refine ⟨header, imports, hheader, himports, ?_⟩
    cases artifact.typedExecutableFacts <;> rfl
  · rintro ⟨header, imports, hheader, himports, rfl⟩
    refine ⟨header, hheader, imports, himports, ?_⟩
    cases artifact.typedExecutableFacts <;> rfl

theorem fromUTF8?_exact {text : String} (h : String.fromUTF8? ⟨data.toArray⟩ = some text) :
    utf8 text = data := by
  unfold String.fromUTF8? at h
  split at h
  case isTrue hvalid =>
    obtain rfl : String.fromUTF8 _ hvalid = text := by simpa using h
    simp [utf8, String.fromUTF8]
  case isFalse => exact absurd h (by simp)

/-! The collector on a section of each known kind. -/

theorem requireSection_required : requireSection ⟨kind, 1, data⟩ = .ok () := by
  dsimp only [requireSection]
  rw [if_neg (by decide)]
  rfl

/-- What collecting one section of a known kind does: the section is the one the
stored field would be written as. -/
inductive Collects (before : Collected) : Section → Collected → Prop
  | header {header : BytecodeHeader} {data : Bytes}
      (encoded : encodeExecutablePayload header.toValue = .ok data) :
      Collects before ⟨1, 1, data⟩ { before with header := some header, previousKind := 1 }
  | imports {imports : List ExternalImport} {data : Bytes}
      (encoded : encodeExecutablePayload (importsToValue imports) = .ok data) :
      Collects before ⟨2, 1, data⟩ { before with imports := some imports, previousKind := 2 }
  | code (data : Bytes) :
      Collects before ⟨3, 1, data⟩ { before with payload := some data, previousKind := 3 }
  | checksum (checksum : String) :
      Collects before ⟨4, 1, utf8 checksum⟩
        { before with checksum := some checksum, previousKind := 4 }
  | facts (data : Bytes) :
      Collects before ⟨5, 0, data⟩
        { before with typedExecutableFacts := some data, previousKind := 5 }

theorem Collects.collectAll (h : Collects before frame after)
    (hkind : before.previousKind < frame.kind) (hlen : frame.data.length < 2 ^ 64) :
    before.collectAll headers externals (frame :: frames) =
      after.collectAll headers externals frames := by
  suffices hdispatch : before.dispatch headers externals frame = .ok after by
    rw [Collected.collectAll, Collected.collect, if_neg (UInt8.not_le.mpr hkind), hdispatch]
    rfl
  cases h with
  | @header header _ hencoded =>
    exact bind_eq_ok.mpr ⟨(), requireSection_required, bind_eq_ok.mpr
      ⟨header, decodeCanonicalSection_encode header.toValue_safe hencoded hlen, rfl⟩⟩
  | @imports imports _ hencoded =>
    exact bind_eq_ok.mpr ⟨(), requireSection_required, bind_eq_ok.mpr
      ⟨imports, decodeCanonicalSection_encode importsToValue_safe hencoded hlen, rfl⟩⟩
  | code => exact bind_eq_ok.mpr ⟨(), requireSection_required, rfl⟩
  | checksum =>
    refine bind_eq_ok.mpr ⟨(), requireSection_required, ?_⟩
    rw [fromUTF8?_utf8]
    rfl
  | facts =>
    dsimp only [Collected.dispatch]
    rw [if_neg (by decide), if_neg (by decide),
      if_neg (by decide), if_neg (by decide), if_pos (by decide), if_neg (by decide)]
    rfl

/-- The sections of an artifact are collected into that artifact. -/
theorem collectAll_sections (h : artifact.sections = .ok frames)
    (hlen : ∀ frame ∈ frames, frame.data.length < 2 ^ 64) :
    ∃ collected, Collected.empty.collectAll headers externals frames = .ok collected ∧
      collected.finish = .ok artifact := by
  obtain ⟨header, imports, hheader, himports, rfl⟩ := sections_eq_ok.mp h
  have hfour (more : List Section) : empty.collectAll headers externals
      (⟨1, 1, header⟩ :: ⟨2, 1, imports⟩ :: ⟨3, 1, artifact.payload⟩ ::
        ⟨4, 1, utf8 artifact.checksum⟩ :: more) =
      collectAll headers externals ⟨some artifact.header, some artifact.imports,
        some artifact.payload, some artifact.checksum, none, 4⟩ more := by
    rw [(Collects.header hheader).collectAll (by simp [empty]) (hlen ⟨1, 1, _⟩ (by simp)),
      (Collects.imports himports).collectAll (by simp) (hlen ⟨2, 1, _⟩ (by simp)),
      (Collects.code _).collectAll (by simp) (hlen ⟨3, 1, _⟩ (by simp)),
      (Collects.checksum _).collectAll (by simp) (hlen ⟨4, 1, _⟩ (by simp))]
    rfl
  cases hfacts : artifact.typedExecutableFacts with
  | none =>
    refine ⟨_, hfour [], ?_⟩
    simp only [finish, ← hfacts]
    rfl
  | some facts =>
    refine ⟨_, (hfour _).trans ((Collects.facts facts).collectAll (by simp)
      (hlen ⟨5, 0, facts⟩ (by simp [hfacts]))), ?_⟩
    simp only [finish, ← hfacts]
    rfl

theorem toBytes_eq_ok : toBytes sha artifact = .ok b ↔
      ∃ frames, artifact.sections = .ok frames ∧ writeContainer sha frames = b := by
  unfold toBytes
  rw [bind_eq_ok]
  simp only [pure_eq_ok]

theorem length_le_writeContainer (h : frame ∈ frames) :
    frame.data.length ≤ (writeContainer sha frames).length := by
  have hframe : frame.data.length ≤ (writeSection sha frame).length := by
    simp only [writeSection, length_cons, length_append]
    omega
  have hall : (writeSection sha frame).length ≤ (frames.flatMap (writeSection sha)).length := by
    obtain ⟨before, after, rfl⟩ := append_of_mem h
    simp only [flatMap_append, flatMap_cons, length_append]
    omega
  simp only [writeContainer, length_append]
  omega

/-- Every section the writer makes can be framed. -/
theorem sections_framed (h : artifact.sections = .ok frames)
    (hlen : ∀ frame ∈ frames, frame.data.length < 2 ^ 64) :
    (∀ frame ∈ frames, frame.Framed) ∧ frames.length ≠ 0 ∧ frames.length ≤ maxSections := by
  obtain ⟨header, imports, -, -, rfl⟩ := sections_eq_ok.mp h
  refine ⟨fun frame hmem => ⟨?_, hlen frame hmem⟩, by simp, ?_⟩
  · simp only [mem_append, mem_cons, not_mem_nil, or_false, mem_map] at hmem
    rcases hmem with (rfl | rfl | rfl | rfl) | ⟨facts, -, rfl⟩ <;> simp <;> decide
  · cases artifact.typedExecutableFacts <;> simp [maxSections]

theorem fromBytes_of_toBytes (hlen : b.length < 2 ^ 64) (h : toBytes sha artifact = .ok b) :
    fromBytes sha headers externals b = .ok artifact := by
  obtain ⟨frames, hframes, rfl⟩ := toBytes_eq_ok.mp h
  have hdata : ∀ frame ∈ frames, frame.data.length < 2 ^ 64 :=
    fun frame hmem => (length_le_writeContainer hmem).trans_lt hlen
  obtain ⟨hframed, hpos, hmax⟩ := sections_framed hframes hdata
  obtain ⟨collected, hcollect, hfinish⟩ := collectAll_sections hframes hdata
  have hread : readSections sha headers externals frames.length .empty
      (frames.flatMap (writeSection sha)) = .ok (collected, []) := by
    simpa using readSections_write hframed hcollect []
  refine bind_eq_ok.mpr ⟨_, readCount_write hpos hmax _, bind_eq_ok.mpr ⟨_, hread, ?_⟩⟩
  simpa using hfinish

/-! ## Reading, then writing -/

theorem required_of_requireSection (hframed : frame.Framed)
    (h : (do requireSection frame; body) = .ok after) : frame.flags = 1 ∧ body = .ok after := by
  obtain ⟨_, hrequired, hbody⟩ := bind_eq_ok.mp h
  rcases flags_cases hframed.flags with hflags | hflags
  · rw [requireSection, if_pos (by rw [hflags]; decide)] at hrequired
    exact absurd hrequired (by simp)
  · exact ⟨hflags, hbody⟩

theorem kind_cases {kind : UInt8} (hpos : 0 < kind) (hle : kind ≤ 5) :
    kind = 1 ∨ kind = 2 ∨ kind = 3 ∨ kind = 4 ∨ kind = 5 := by
  have hpos : 0 < kind.toNat := hpos
  have hle : kind.toNat ≤ 5 := hle
  simp only [← UInt8.toNat_inj]
  change kind.toNat = 1 ∨ kind.toNat = 2 ∨ kind.toNat = 3 ∨ kind.toNat = 4 ∨ kind.toNat = 5
  omega

/-- Collecting a section of a known kind has one of the five effects. -/
theorem collects_of_collect (hframed : frame.Framed) (hknown : frame.kind ≤ 5)
    (h : before.collect headers externals frame = .ok after) :
    before.previousKind < frame.kind ∧ Collects before frame after := by
  unfold collect at h
  split at h
  case isTrue => exact absurd h (by simp)
  case isFalse hgt =>
    have hlt : before.previousKind < frame.kind := UInt8.not_le.mp hgt
    refine ⟨hlt, ?_⟩
    obtain ⟨kind, flags, data⟩ := frame
    have hpos : (0 : UInt8) < kind := by
      have : before.previousKind.toNat < kind.toNat := hlt
      exact Nat.zero_lt_of_lt this
    rcases kind_cases hpos hknown with rfl | rfl | rfl | rfl | rfl
    all_goals dsimp only [dispatch] at h
    · obtain ⟨rfl, hbody⟩ := required_of_requireSection hframed h
      obtain ⟨header, hheader, hpure⟩ := bind_eq_ok.mp hbody
      obtain rfl := pure_eq_ok.mp hpure
      exact .header (decodeCanonicalSection_exact hheader)
    · obtain ⟨rfl, hbody⟩ := required_of_requireSection hframed h
      obtain ⟨imports, himports, hpure⟩ := bind_eq_ok.mp hbody
      obtain rfl := pure_eq_ok.mp hpure
      exact .imports (decodeCanonicalSection_exact himports)
    · obtain ⟨rfl, hbody⟩ := required_of_requireSection hframed h
      obtain rfl := pure_eq_ok.mp hbody
      exact .code data
    · obtain ⟨rfl, hbody⟩ := required_of_requireSection hframed h
      cases hutf8 : String.fromUTF8? ⟨data.toArray⟩ with
      | none =>
        rw [hutf8] at hbody
        exact absurd hbody (by simp)
      | some checksum =>
        rw [hutf8] at hbody
        obtain rfl := pure_eq_ok.mp hbody
        rw [← fromUTF8?_exact hutf8]
        exact .checksum checksum
    · rw [if_neg (by decide), if_neg (by decide), if_neg (by decide), if_neg (by decide),
        if_pos (by decide)] at h
      rcases flags_cases hframed.flags with rfl | rfl
      · rw [if_neg (by decide)] at h
        obtain rfl := pure_eq_ok.mp h
        exact .facts data
      · rw [if_pos (by decide)] at h
        exact absurd h (by simp)

/-- The sections a field would be written as: none, or the one that holds it. -/
def Slot {α : Type} (kind flags : UInt8) (encodes : α → Bytes → Prop) (field : Option α)
    (frames : List Section) : Prop :=
  match field with
  | none => frames = []
  | some a => ∃ data, encodes a data ∧ frames = [⟨kind, flags, data⟩]

/-- The sections seen so far are those the collected fields would be written as,
and fields of kinds still to come are empty. -/
def Reflects (collected : Collected) (frames : List Section) : Prop :=
  ∃ header imports code checksum facts : List Section,
    frames = header ++ (imports ++ (code ++ (checksum ++ facts))) ∧
    (Slot 1 1 (fun h data => encodeExecutablePayload h.toValue = .ok data)
      collected.header header ∧ (collected.previousKind < 1 → header = [])) ∧
    (Slot 2 1 (fun i data => encodeExecutablePayload (importsToValue i) = .ok data)
      collected.imports imports ∧ (collected.previousKind < 2 → imports = [])) ∧
    (Slot 3 1 (fun payload data => payload = data) collected.payload code ∧
      (collected.previousKind < 3 → code = [])) ∧
    (Slot 4 1 (fun text data => utf8 text = data) collected.checksum checksum ∧
      (collected.previousKind < 4 → checksum = [])) ∧
    (Slot 5 0 (fun bytes data => bytes = data) collected.typedExecutableFacts facts ∧
      (collected.previousKind < 5 → facts = []))

theorem reflects_empty : Reflects .empty [] :=
  ⟨[], [], [], [], [], rfl, ⟨rfl, fun _ => rfl⟩, ⟨rfl, fun _ => rfl⟩, ⟨rfl, fun _ => rfl⟩,
    ⟨rfl, fun _ => rfl⟩, ⟨rfl, fun _ => rfl⟩⟩

/-- One more section: the fields of later kinds are still empty, so it comes last. -/
theorem Reflects.step (hreflects : Reflects before frames) (hlt : before.previousKind < frame.kind)
    (h : Collects before frame after) : Reflects after (frames ++ [frame]) := by
  obtain ⟨header, imports, code, checksum, facts, rfl, hheader, himports, hcode, hchecksum,
    hfacts⟩ := hreflects
  have hle {kind : UInt8} (h : frame.kind ≤ kind) := UInt8.lt_of_lt_of_le hlt h
  have seen {p q r : Prop} (hnot : ¬q) (h : p) : p ∧ (q → r) := ⟨h, fun hq => absurd hq hnot⟩
  cases h with
  | header hencoded =>
    obtain rfl := hheader.2 hlt
    obtain rfl := himports.2 (hle (by simp))
    obtain rfl := hcode.2 (hle (by simp))
    obtain rfl := hchecksum.2 (hle (by simp))
    obtain rfl := hfacts.2 (hle (by simp))
    exact ⟨[_], [], [], [], [], rfl, seen (by simp) ⟨_, hencoded, rfl⟩,
      ⟨himports.1, fun _ => rfl⟩, ⟨hcode.1, fun _ => rfl⟩, ⟨hchecksum.1, fun _ => rfl⟩,
      ⟨hfacts.1, fun _ => rfl⟩⟩
  | imports hencoded =>
    obtain rfl := himports.2 hlt
    obtain rfl := hcode.2 (hle (by simp))
    obtain rfl := hchecksum.2 (hle (by simp))
    obtain rfl := hfacts.2 (hle (by simp))
    exact ⟨header, [_], [], [], [], by simp, seen (by simp) hheader.1,
      seen (by simp) ⟨_, hencoded, rfl⟩, ⟨hcode.1, fun _ => rfl⟩,
      ⟨hchecksum.1, fun _ => rfl⟩, ⟨hfacts.1, fun _ => rfl⟩⟩
  | code data =>
    obtain rfl := hcode.2 hlt
    obtain rfl := hchecksum.2 (hle (by simp))
    obtain rfl := hfacts.2 (hle (by simp))
    exact ⟨header, imports, [_], [], [], by simp, seen (by simp) hheader.1,
      seen (by simp) himports.1, seen (by simp) ⟨_, rfl, rfl⟩,
      ⟨hchecksum.1, fun _ => rfl⟩, ⟨hfacts.1, fun _ => rfl⟩⟩
  | checksum text =>
    obtain rfl := hchecksum.2 hlt
    obtain rfl := hfacts.2 (hle (by simp))
    exact ⟨header, imports, code, [_], [], by simp, seen (by simp) hheader.1,
      seen (by simp) himports.1, seen (by simp) hcode.1,
      seen (by simp) ⟨_, rfl, rfl⟩, ⟨hfacts.1, fun _ => rfl⟩⟩
  | facts data =>
    obtain rfl := hfacts.2 hlt
    exact ⟨header, imports, code, checksum, [_], by simp,
      seen (by simp) hheader.1, seen (by simp) himports.1,
      seen (by simp) hcode.1, seen (by simp) hchecksum.1,
      seen (by simp) ⟨_, rfl, rfl⟩⟩

theorem Reflects.collectAll (hreflects : Reflects before seen)
    (hframed : ∀ frame ∈ frames, frame.Framed) (hknown : ∀ frame ∈ frames, frame.kind ≤ 5)
    (h : before.collectAll headers externals frames = .ok after) :
    Reflects after (seen ++ frames) := by
  induction frames generalizing before seen with
  | nil =>
    obtain rfl : before = after := by simpa [collectAll] using h
    rwa [append_nil]
  | cons frame frames ih =>
    obtain ⟨hframe, hframed⟩ := forall_mem_cons.mp hframed
    obtain ⟨hkind, hknown⟩ := forall_mem_cons.mp hknown
    obtain ⟨next, hnext, hrest⟩ := bind_eq_ok.mp h
    obtain ⟨hlt, hcollects⟩ := collects_of_collect hframe hkind hnext
    have htail := ih (hreflects.step hlt hcollects) hframed hknown hrest
    rwa [append_assoc] at htail

/-- A finished artifact is written as the sections it was read from. -/
theorem sections_of_reflects (hreflects : Reflects collected frames)
    (h : collected.finish = .ok artifact) : artifact.sections = .ok frames := by
  obtain ⟨header, imports, code, checksum, facts, rfl, hheader, himports, hcode, hchecksum,
    hfacts⟩ := hreflects
  obtain ⟨_, _, _, _, fieldFacts, _⟩ := collected
  unfold finish at h
  split at h
  case h_5 hfieldHeader hfieldImports hfieldPayload hfieldChecksum =>
    dsimp only at hfieldHeader hfieldImports hfieldPayload hfieldChecksum
    subst hfieldHeader hfieldImports hfieldPayload hfieldChecksum
    obtain rfl := pure_eq_ok.mp h
    obtain ⟨headerData, hencodedHeader, rfl⟩ := hheader.1
    obtain ⟨importsData, hencodedImports, rfl⟩ := himports.1
    obtain ⟨_, rfl, rfl⟩ := hcode.1
    obtain ⟨_, rfl, rfl⟩ := hchecksum.1
    refine sections_eq_ok.mpr ⟨headerData, importsData, hencodedHeader, hencodedImports, ?_⟩
    cases fieldFacts with
    | none =>
      obtain rfl : facts = [] := hfacts.1
      rfl
    | some fieldFacts =>
      obtain ⟨_, rfl, rfl⟩ := hfacts.1
      rfl
  all_goals exact absurd h (by simp)

/-- An accepted container, section by section. -/
theorem fromBytes_eq_ok (h : fromBytes sha headers externals b = .ok artifact) :
    ∃ frames collected, b = writeContainer sha frames ∧ (∀ frame ∈ frames, frame.Framed) ∧
      frames.length ≠ 0 ∧ frames.length ≤ maxSections ∧
      Collected.empty.collectAll headers externals frames = .ok collected ∧
      collected.finish = .ok artifact := by
  obtain ⟨⟨count, body⟩, hcount, hrest⟩ := bind_eq_ok.mp h
  obtain ⟨⟨collected, rest⟩, hsections, hend⟩ := bind_eq_ok.mp hrest
  obtain ⟨frames, rfl, rfl, hframed, hcollect⟩ := readSections_exact hsections
  obtain ⟨rfl, hpos, hmax⟩ := readCount_exact hcount
  dsimp only at hend
  split at hend
  case isTrue => exact absurd hend (by simp)
  case isFalse hempty =>
    obtain rfl := not_not.mp hempty
    exact ⟨frames, collected, by rw [writeContainer, append_nil], hframed, hpos, hmax,
      hcollect, hend⟩

/-- The section table of a written container is the list it was written from. -/
theorem sectionTable_writeContainer (hframed : ∀ frame ∈ frames, frame.Framed)
    (hpos : frames.length ≠ 0) (hmax : frames.length ≤ maxSections) :
    sectionTable sha (writeContainer sha frames) = .ok frames := by
  have hread : readN (readSection sha) frames.length (frames.flatMap (writeSection sha))
      = .ok (frames, []) := by
    simpa using readN_readSection hframed []
  exact bind_eq_ok.mpr ⟨_, readCount_write hpos hmax _, bind_eq_ok.mpr ⟨_, hread, rfl⟩⟩

theorem toBytes_of_fromBytes (h : fromBytes sha headers externals b = .ok artifact)
    (htable : sectionTable sha b = .ok table) (hknown : ∀ frame ∈ table, frame.kind ≤ 5) :
    toBytes sha artifact = .ok b := by
  obtain ⟨frames, collected, rfl, hframed, hpos, hmax, hcollect, hfinish⟩ := fromBytes_eq_ok h
  obtain rfl : frames = table := by
    simpa [sectionTable_writeContainer hframed hpos hmax] using htable
  have hreflects : Reflects collected frames := reflects_empty.collectAll hframed hknown hcollect
  exact toBytes_eq_ok.mpr ⟨frames, sections_of_reflects hreflects hfinish, rfl⟩

/-- **The container round trip.** An artifact that is written as a byte vector is
read back as itself, and an accepted container whose section table holds no kind
above the known five is written back as itself. -/
theorem container_round_trip (sha : Sha256) (headers : Deserializer BytecodeHeader.toValue)
    (externals : Deserializer importsToValue) :
    (∀ (artifact : BytecodeArtifact) (b : Bytes), b.length < 2 ^ 64 →
      toBytes sha artifact = .ok b → fromBytes sha headers externals b = .ok artifact) ∧
    (∀ (b : Bytes) (artifact : BytecodeArtifact), fromBytes sha headers externals b = .ok artifact →
      (∃ table, sectionTable sha b = .ok table ∧ ∀ frame ∈ table, frame.kind ≤ 5) →
      toBytes sha artifact = .ok b) :=
  ⟨fun _ _ hlen h => fromBytes_of_toBytes hlen h,
    fun _ _ h ⟨_, htable, hknown⟩ => toBytes_of_fromBytes h htable hknown⟩

/-- A small artifact: no imports, no facts, a one-byte payload. -/
def sampleArtifact : BytecodeArtifact where
  header := {
    schema := "s", languageVersion := "l", bytecodeIsaVersion := 1, coreLibraryAbiVersion := 1
    compilerVersion := "c", interfaceCatalogDigest := "d", runtimeAbiVersion := 2
    sourceContentHash := "h", snapshotDigest := none, executableHash := "e" }
  imports := []
  payload := [7]
  checksum := "k"
  typedExecutableFacts := none

/-- A hash of the right width. -/
def constantSha : Sha256 := ⟨fun _ => List.replicate 32 0, fun _ => List.length_replicate⟩

/-- The bytes of the small artifact. -/
def sampleBytes : Bytes := (toBytes constantSha sampleArtifact).toOption.getD []

/-- Both directions, on the small artifact. -/
theorem container_round_trip_sample :
    let headers := Deserializer.ofInjective BytecodeHeader.toValue_injective
    let externals := Deserializer.ofInjective importsToValue_injective
    fromBytes constantSha headers externals sampleBytes = .ok sampleArtifact ∧
      toBytes constantSha sampleArtifact = .ok sampleBytes := by
  intro headers externals
  obtain ⟨hread, hwrite⟩ := container_round_trip constantSha headers externals
  have hback := hread sampleArtifact sampleBytes (by decide +kernel) (by decide +kernel)
  refine ⟨hback, hwrite sampleBytes sampleArtifact hback ?_⟩
  exact ⟨(sectionTable constantSha sampleBytes).toOption.getD [], by decide +kernel,
    by decide +kernel⟩

end RSScript.Bytecode
