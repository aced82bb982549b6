import RSScript.Lib.Guards
import RSScript.Bytecode.CanonicalCbor

/-!
# Decoding what was encoded

The decoder gives back every encoded value but one kind: `i64::MIN` encodes as a
negative integer of argument `2^63 - 1`, whose magnitude no longer fits an `i64`
when the decoder negates it. A value holding that integer anywhere encodes and
is then refused; every other value that encodes is read back unchanged.

The two halves go through one induction, on the room both directions recurse on.
It says for each subterm which of the two happens (`ReadsBack`), because a
collection stops at its first bad element and so needs to know that the ones
before it were read.
-/

namespace RSScript.Bytecode.CanonicalCbor

open ByteCodec Guards
open List

/-! ## Readers on what the encoder writes -/

theorem byte_cons : byte (first :: rest) = .ok (first, rest) := rfl

variable {room : Nat} {b : Bytes} {entries : List (String × Value)} {v : Value}

theorem scalar_bigEndian (h : n < 256 ^ width) :
    scalar width (bigEndian width n ++ rest) = .ok (n, rest) := by
  unfold scalar take
  rw [Reader.bind_ok (readChunk_append (length_bigEndian width n))]
  simp [ofBigEndian_bigEndian h]

theorem argument_byte (h : n < 256) : argument 24 (bigEndian 1 n ++ rest) = .ok (n, rest) := by
  have hbyte : byte (bigEndian 1 n ++ rest) = .ok (UInt8.ofNat n, rest) := by simp [bigEndian, byte]
  unfold argument
  rw [if_neg (by decide), if_pos rfl, Reader.bind_ok hbyte]
  simp [UInt8.toNat_ofNat_of_lt' h]

/-- The first byte of an encoded argument carries the major type, and its low bits
lead the decoder to the argument. -/
theorem encodeArgument_spec (major : Nat) (hmajor : major < 8) (hn : n < 2 ^ 64) (rest : Bytes) :
    ∃ initial tail, encodeArgument major n ++ rest = initial :: tail ∧
      initial.toNat / 32 = major ∧ argument (initial.toNat % 32) tail = .ok (n, rest) := by
  have hspec {low : Nat} {tail : Bytes} (hlow : low < 32)
      (hread : argument low tail = .ok (n, rest)) :
      ∃ initial tail', UInt8.ofNat (major * 32 + low) :: tail = initial :: tail' ∧
        initial.toNat / 32 = major ∧ argument (initial.toNat % 32) tail' = .ok (n, rest) := by
    have hinitial : (UInt8.ofNat (major * 32 + low)).toNat = major * 32 + low :=
      UInt8.toNat_ofNat_of_lt' (by simp only [UInt8.size]; omega)
    refine ⟨_, tail, rfl, by omega, ?_⟩
    rwa [hinitial, show (major * 32 + low) % 32 = low by omega]
  unfold encodeArgument
  split
  case isTrue hle => exact hspec (by omega) (by simp [argument, hle])
  split
  case isTrue hle => exact hspec (by decide) (argument_byte (by omega))
  split
  case isTrue hle => exact hspec (by decide) (scalar_bigEndian (by omega))
  split
  case isTrue hle => exact hspec (by decide) (scalar_bigEndian (by omega))
  case isFalse => exact hspec (by decide) (scalar_bigEndian (by omega))

theorem length_of_argument (harg : argument additional bs = .ok (n, rest))
    (hfits : n ≤ rest.length / least) : length additional least bs = .ok (n, rest) := by
  unfold length
  rw [Reader.bind_ok harg, Reader.bind_ok (Reader.get_apply rest), if_neg (Nat.not_lt.mpr hfits)]
  rfl

theorem length_utf8 (text : String) : (utf8 text).length = text.utf8ByteSize := by simp [utf8]

theorem fromUTF8?_utf8 (text : String) : String.fromUTF8? ⟨(utf8 text).toArray⟩ = some text := by
  have hbytes : (⟨(utf8 text).toArray⟩ : ByteArray) = text.toByteArray := by simp [utf8]
  rw [hbytes, String.fromUTF8?, dif_pos text.isValidUTF8]
  rfl

theorem text_utf8
    (harg : argument additional bs = .ok (content.utf8ByteSize, utf8 content ++ rest)) :
    text additional bs = .ok (content, rest) := by
  have hfits : content.utf8ByteSize ≤ (utf8 content ++ rest).length / 1 := by simp [length_utf8]
  unfold text take
  rw [Reader.bind_ok (length_of_argument harg hfits),
    Reader.bind_ok (readChunk_append (length_utf8 content)), fromUTF8?_utf8]
  rfl

/-- Text is read back at any depth at which a value may still stand. -/
theorem value_encodeText (room : Nat) {content : String} (h : content.utf8ByteSize < 2 ^ 64)
    (rest : Bytes) :
    value (room + 1) (encodeText content ++ rest) = .ok (.string content, rest) := by
  obtain ⟨initial, tail, hbytes, hmajor, harg⟩ :=
    encodeArgument_spec 3 (by decide) h (utf8 content ++ rest)
  rw [encodeText, append_assoc, hbytes, value, Reader.bind_ok (byte_cons)]
  simp only [hmajor]
  rw [Reader.bind_ok (text_utf8 harg)]
  rfl

/-! ## Numbers -/

theorem floatValue_bits (v : FiniteF64) :
    floatValue v.bits rest = .ok (.number (.float v), rest) := by
  rw [floatValue, Number.fromF64, dif_pos ⟨v.bits_lt, v.finite⟩]
  rfl

theorem floatValue_widen (hf : f = BinaryFloat.half ∨ f = BinaryFloat.single) {v : FiniteF64}
    (h : BinaryFloat.doubleEq (BinaryFloat.widen f (BinaryFloat.narrow f v.bits)) v.bits = true) :
    floatValue (BinaryFloat.widen f (BinaryFloat.narrow f v.bits)) rest
      = .ok (.number (.float v), rest) := by
  rw [BinaryFloat.widen_narrow_of_doubleEq hf v.bits_lt h, floatValue_bits]

theorem value_encodeFloat (v : FiniteF64) :
    value (room + 1) (encodeFloat v ++ rest) = .ok (.number (.float v), rest) := by
  simp only [encodeFloat]
  split
  case isTrue h =>
    have hlt : BinaryFloat.narrow BinaryFloat.half v.bits < 256 ^ 2 :=
      BinaryFloat.narrow_lt (by decide) (by decide) v.bits_lt
    rw [cons_append, value, Reader.bind_ok (byte_cons)]
    change (scalar 2 >>= _) _ = _
    rw [Reader.bind_ok (scalar_bigEndian hlt), floatValue_widen (.inl rfl) h]
  split
  case isTrue h =>
    have hlt : BinaryFloat.narrow BinaryFloat.single v.bits < 256 ^ 4 :=
      BinaryFloat.narrow_lt (by decide) (by decide) v.bits_lt
    rw [cons_append, value, Reader.bind_ok (byte_cons)]
    change (scalar 4 >>= _) _ = _
    rw [Reader.bind_ok (scalar_bigEndian hlt), floatValue_widen (.inr rfl) h]
  case isFalse =>
    rw [cons_append, value, Reader.bind_ok (byte_cons)]
    change (scalar 8 >>= _) _ = _
    rw [Reader.bind_ok (scalar_bigEndian (by have := v.bits_lt; omega)), floatValue_bits]

theorem encodeNumber_posInt : encodeNumber (.posInt n) = .ok (encodeArgument 0 n.toNat) := by
  by_cases h : n.toNat < 2 ^ 63
  · simp only [encodeNumber, Number.asI64, if_pos h]
    simp
  · simp only [encodeNumber, Number.asI64, Number.asU64, if_neg h]

attribute [local simp] encodeValue Number.asI64

theorem encodeNumber_negInt {n : Int} (h : -2 ^ 63 ≤ n ∧ n < 0) :
    encodeNumber (.negInt n h) = .ok (encodeArgument 1 (n.natAbs - 1)) := by
  simp [encodeNumber, h.2]

theorem negative_natAbs {n : Int} (h : -2 ^ 63 ≤ n ∧ n < 0) (hmin : n ≠ -2 ^ 63) :
    negative (n.natAbs - 1) rest = .ok (.number (.negInt n h), rest) := by
  have hfits : n.natAbs - 1 + 1 < 2 ^ 63 := by omega
  have hvalue : -((n.natAbs - 1 + 1 : Nat) : Int) = n := by omega
  simp only [negative, dif_pos hfits, hvalue]
  rfl

/-- Integers: the one negative integer the decoder cannot negate is `i64::MIN`. -/
theorem value_encodeNumber (room : Nat) {number : Number} (h : encodeNumber number = .ok b) :
    ReadsBack (value (room + 1)) (number ≠ .i64Min) negativeTooSmall b (.number number) := by
  intro rest
  cases number with
  | posInt n =>
    obtain rfl : encodeArgument 0 n.toNat = b := by simpa [encodeNumber_posInt] using h
    obtain ⟨initial, tail, hbytes, hmajor, harg⟩ :=
      encodeArgument_spec 0 (by decide) n.toNat_lt rest
    refine ⟨fun _ => ?_, fun hbad => absurd (by simp [Number.i64Min]) hbad⟩
    rw [hbytes, value, Reader.bind_ok (byte_cons)]
    simp only [hmajor]
    rw [Reader.bind_ok harg, UInt64.ofNat_toNat]
    rfl
  | negInt n hrange =>
    obtain rfl : encodeArgument 1 (n.natAbs - 1) = b := by simpa [encodeNumber_negInt] using h
    obtain ⟨initial, tail, hbytes, hmajor, harg⟩ :=
      encodeArgument_spec 1 (n := n.natAbs - 1) (by decide) (by omega) rest
    have hvalue : value (room + 1) (encodeArgument 1 (n.natAbs - 1) ++ rest)
        = negative (n.natAbs - 1) rest := by
      rw [hbytes, value, Reader.bind_ok (byte_cons)]
      simp only [hmajor]
      rw [Reader.bind_ok harg]
    simp only [hvalue, Number.i64Min, ne_eq, Number.negInt.injEq, Decidable.not_not]
    refine ⟨fun hmin => negative_natAbs hrange hmin, ?_⟩
    rintro rfl
    rfl
  | float v =>
    obtain rfl : encodeFloat v = b := by simpa [encodeNumber, Number.asU64, Number.asFloat] using h
    exact ⟨fun _ => value_encodeFloat v, fun hbad => absurd (by simp [Number.i64Min]) hbad⟩

/-! ## Collections -/

theorem length_encodeArgument (major n : Nat) : 1 ≤ (encodeArgument major n).length := by
  unfold encodeArgument
  split <;> try split <;> try split <;> try split
  all_goals simp

theorem length_encodeNumber {number : Number} (h : encodeNumber number = .ok b) : 1 ≤ b.length := by
  cases number with
  | posInt n =>
    obtain rfl : encodeArgument 0 n.toNat = b := by simpa [encodeNumber_posInt] using h
    exact length_encodeArgument 0 _
  | negInt n hrange =>
    obtain rfl : encodeArgument 1 (n.natAbs - 1) = b := by simpa [encodeNumber_negInt] using h
    exact length_encodeArgument 1 _
  | float v =>
    obtain rfl : encodeFloat v = b := by simpa [encodeNumber, Number.asU64, Number.asFloat] using h
    simp only [encodeFloat]
    split
    · simp
    · split <;> simp

theorem encodeValue_array : encodeValue (room + 1) (.array values) = .ok b ↔
      ∃ elements, writeAll (encodeValue room) values = .ok elements ∧
        encodeArgument 4 values.length ++ elements = b := by
  rw [encodeValue, bind_eq_ok]
  simp only [pure_eq_ok]

/-- The order in which the entries of an object are written. -/
def canonicalOrder (entries : List (String × Value)) : List (String × Value) :=
  entries.insertionSort fun left right => keyLe left right

theorem canonicalOrder_perm (entries : List (String × Value)) :
    (canonicalOrder entries).Perm entries :=
  perm_insertionSort _ entries

theorem encodeValue_object : encodeValue (room + 1) (.object entries) = .ok b ↔
      ∃ elements, writeAll (encodeEntry (encodeValue room)) (canonicalOrder entries) = .ok elements ∧
        encodeArgument 5 entries.length ++ elements = b := by
  rw [encodeValue, bind_eq_ok]
  simp only [pure_eq_ok]
  rfl

theorem encodeEntry_eq_ok {encode : Value → Except CanonicalCborError Bytes}
    {entry : String × Value} : encodeEntry encode entry = .ok b ↔
      ∃ value, encode entry.2 = .ok value ∧ encodeText entry.1 ++ value = b := by
  rw [encodeEntry, bind_eq_ok]
  simp only [pure_eq_ok]

theorem length_encodeText (content : String) : 1 ≤ (encodeText content).length := by
  have := length_encodeArgument 3 content.utf8ByteSize
  simp only [encodeText, length_append]
  omega

theorem utf8ByteSize_lt_of_encodeText {content : String} {bound : Nat}
    (h : (encodeText content).length < bound) : content.utf8ByteSize < bound := by
  rw [encodeText, length_append, length_utf8] at h
  omega

theorem length_encodeValue (h : encodeValue room v = .ok b) : 1 ≤ b.length := by
  cases room with
  | zero => simp at h
  | succ room =>
    cases v with
    | null => simp at h; simp [← h]
    | bool value => cases value <;> simp at h <;> simp [← h]
    | number number => exact length_encodeNumber h
    | string content =>
      obtain rfl : encodeText content = b := by simpa using h
      exact length_encodeText content
    | array values =>
      obtain ⟨elements, -, rfl⟩ := encodeValue_array.mp h
      have := length_encodeArgument 4 values.length
      simp only [length_append]
      omega
    | object entries =>
      obtain ⟨elements, -, rfl⟩ := encodeValue_object.mp h
      have := length_encodeArgument 5 entries.length
      simp only [length_append]
      omega

/-- A key and a value: two bytes at least. -/
theorem length_encodeEntry {entry : String × Value}
    (h : encodeEntry (encodeValue room) entry = .ok b) : 2 ≤ b.length := by
  obtain ⟨encoded, hencoded, rfl⟩ := encodeEntry_eq_ok.mp h
  have := length_encodeText entry.1
  have := length_encodeValue hencoded
  simp only [length_append]
  omega

/-- The values that survive the round trip. -/
def Decodable (v : Value) : Prop := ¬Value.Occurs (.number .i64Min) v

/-- One round trip, of a value at a room. -/
def RoundTrips (room : Nat) (v : Value) : Prop :=
  ∀ b, encodeValue room v = .ok b → ReadsBack (value room) (Decodable v) negativeTooSmall b v

theorem decodable_array : Decodable (.array values) ↔ ∀ v ∈ values, Decodable v := by
  constructor
  · exact fun h v hmem hocc => h (.array hmem hocc)
  · intro h hocc
    cases hocc with
    | array hmem hocc => exact h _ hmem hocc

theorem decodable_object : Decodable (.object entries) ↔ ∀ entry ∈ entries, Decodable entry.2 := by
  constructor
  · exact fun h entry hmem hocc => h (.object hmem hocc)
  · intro h hocc
    cases hocc with
    | object hmem hocc => exact h _ hmem hocc

theorem roundTrips_array (hlen : values.length < 2 ^ 64) (helem : ∀ v ∈ values, RoundTrips room v) :
    RoundTrips (room + 1) (.array values) := by
  intro b h rest
  obtain ⟨elements, helements, rfl⟩ := encodeValue_array.mp h
  obtain ⟨initial, tail, hbytes, hmajor, harg⟩ :=
    encodeArgument_spec 4 (by decide) hlen (elements ++ rest)
  have hfits : values.length ≤ (elements ++ rest).length / 1 := by
    have := length_writeAll (fun v _ b hb => length_encodeValue hb) helements
    simp only [length_append, Nat.div_one]
    omega
  have hread := readN_writeAll helem helements rest
  rw [append_assoc, hbytes, value, Reader.bind_ok (byte_cons)]
  simp only [hmajor, decodable_array]
  rw [Reader.bind_ok (length_of_argument harg hfits)]
  refine ⟨fun hgood => ?_, fun hbad => Reader.bind_error (hread.2 hbad)⟩
  rw [Reader.bind_ok (hread.1 hgood)]
  rfl

/-- The entry loop inserts every entry, or stops at the first value that does not
decode. A key needs no room of its own: it stands where its value does. -/
theorem readEntries_writeAll (values : List (String × Value))
    (hkeys : ∀ entry ∈ entries, entry.1.utf8ByteSize < 2 ^ 64)
    (helem : ∀ entry ∈ entries, RoundTrips room entry.2)
    (hfresh : ∀ entry ∈ entries, entry.1 ∉ values.map Prod.fst)
    (hnodup : (entries.map Prod.fst).Nodup)
    (h : writeAll (encodeEntry (encodeValue room)) entries = .ok bs) (rest : Bytes) :
    ((∀ entry ∈ entries, Decodable entry.2) →
      readEntries (value room) entries.length values (bs ++ rest)
        = .ok (SortedMap.insertAll values entries, rest)) ∧
    ((¬∀ entry ∈ entries, Decodable entry.2) →
      readEntries (value room) entries.length values (bs ++ rest) = .error negativeTooSmall) := by
  induction entries generalizing values bs with
  | nil =>
    obtain rfl : bs = [] := by simpa [writeAll, eq_comm] using h
    exact ⟨fun _ => rfl, fun hbad => absurd (fun _ hmem => absurd hmem (by simp)) hbad⟩
  | cons entry entries ih =>
    obtain ⟨first, others, hfirst, hothers, rfl⟩ := writeAll_cons.mp h
    obtain ⟨encoded, hencoded, rfl⟩ := encodeEntry_eq_ok.mp hfirst
    obtain ⟨hkey, hkeys⟩ := forall_mem_cons.mp hkeys
    obtain ⟨htrip, helem⟩ := forall_mem_cons.mp helem
    obtain ⟨hnew, hfresh⟩ := forall_mem_cons.mp hfresh
    obtain ⟨hnotin, hnodup⟩ := nodup_cons.mp hnodup
    cases room with
    | zero => simp at hencoded
    | succ room =>
      have htext := value_encodeText room hkey (encoded ++ (others ++ rest))
      have hvalue := htrip encoded hencoded (others ++ rest)
      have hfresh' : ∀ other ∈ entries,
          other.1 ∉ (SortedMap.insert entry.1 entry.2 values).map Prod.fst := by
        intro other hmem hin
        rcases mem_cons.mp (((SortedMap.insert_perm hnew).map Prod.fst).mem_iff.mp hin)
          with heq | hin
        · exact hnotin (heq ▸ mem_map_of_mem hmem)
        · exact hfresh other hmem hin
      have htail := ih _ hkeys helem hfresh' hnodup hothers
      simp only [append_assoc, length_cons, readEntries, forall_mem_cons]
      rw [Reader.bind_ok htext]
      simp only
      constructor
      · rintro ⟨hgood, hall⟩
        rw [Reader.bind_ok (hvalue.1 hgood), SortedMap.get_eq_none_iff.mpr hnew]
        exact htail.1 hall
      · intro hbad
        by_cases hgood : Decodable entry.2
        · rw [Reader.bind_ok (hvalue.1 hgood), SortedMap.get_eq_none_iff.mpr hnew]
          exact htail.2 fun hall => hbad ⟨hgood, hall⟩
        · exact Reader.bind_error (hvalue.2 hgood)

theorem roundTrips_object (hlen : entries.length < 2 ^ 64) (hsorted : SortedMap.Sorted entries)
    (hkeys : ∀ entry ∈ entries, entry.1.utf8ByteSize < 2 ^ 64)
    (helem : ∀ entry ∈ entries, RoundTrips room entry.2) :
    RoundTrips (room + 1) (.object entries) := by
  intro b h rest
  obtain ⟨elements, helements, rfl⟩ := encodeValue_object.mp h
  have hperm := canonicalOrder_perm entries
  have hmem : ∀ entry, entry ∈ canonicalOrder entries ↔ entry ∈ entries := fun _ => hperm.mem_iff
  obtain ⟨initial, tail, hbytes, hmajor, harg⟩ :=
    encodeArgument_spec 5 (by decide) hlen (elements ++ rest)
  have hfits : entries.length ≤ (elements ++ rest).length / 2 := by
    have := length_writeAll (fun _ _ _ hb => length_encodeEntry hb) helements
    rw [hperm.length_eq] at this
    simp only [length_append]
    omega
  have hread := readEntries_writeAll [] (fun entry h => hkeys entry ((hmem entry).mp h))
    (fun entry h => helem entry ((hmem entry).mp h)) (by simp)
    ((hperm.map Prod.fst).nodup_iff.mpr hsorted.nodup_keys) helements rest
  rw [hperm.length_eq, SortedMap.insertAll_eq_of_perm hsorted hperm] at hread
  simp only [hmem] at hread
  rw [append_assoc, hbytes, value, Reader.bind_ok (byte_cons)]
  simp only [hmajor, decodable_object]
  rw [Reader.bind_ok (length_of_argument harg hfits)]
  refine ⟨fun hgood => ?_, fun hbad => Reader.bind_error (hread.2 hbad)⟩
  rw [Reader.bind_ok (hread.1 hgood)]
  rfl

/-! ## Values -/

theorem decodable_of_scalar (harray : ∀ values, v ≠ .array values)
    (hobject : ∀ entries, v ≠ .object entries) (hne : v ≠ .number .i64Min) : Decodable v :=
  fun hocc => hne (hocc.eq_of_scalar harray hobject)

theorem roundTrips (hwf : v.WellFormed) : RoundTrips room v := by
  induction room generalizing v with
  | zero => intro b h; simp at h
  | succ room ih =>
    obtain ⟨hordered, hsized⟩ := hwf
    cases hsized with
    | null =>
      intro b h rest
      obtain rfl : [0xf6] = b := by simpa using h
      exact ⟨fun _ => rfl, fun hbad => absurd (decodable_of_scalar (by simp) (by simp) (by simp)) hbad⟩
    | bool flag =>
      intro b h rest
      refine ⟨fun _ => ?_,
        fun hbad => absurd (decodable_of_scalar (by simp) (by simp) (by simp)) hbad⟩
      cases flag with
      | false =>
        obtain rfl : [0xf4] = b := by simpa using h
        rfl
      | true =>
        obtain rfl : [0xf5] = b := by simpa using h
        rfl
    | number number =>
      intro b h rest
      have hread := value_encodeNumber room h rest
      refine ⟨fun hgood => hread.1 ?_, fun hbad => hread.2 fun hne => hbad ?_⟩
      · rintro rfl
        exact hgood .self
      · exact decodable_of_scalar (by simp) (by simp) (by simpa using hne)
    | string hlen =>
      intro b h rest
      obtain rfl : encodeText _ = b := by simpa using h
      exact ⟨fun _ => value_encodeText room hlen rest,
        fun hbad => absurd (decodable_of_scalar (by simp) (by simp) (by simp)) hbad⟩
    | array hlen hsized =>
      cases hordered with
      | array hordered =>
        exact roundTrips_array hlen fun v hmem => ih ⟨hordered v hmem, hsized v hmem⟩
    | object hlen hkeys hsized =>
      cases hordered with
      | object hsorted hordered =>
        exact roundTrips_object hlen hsorted hkeys
          fun entry hmem => ih ⟨hordered entry hmem, hsized entry hmem⟩

/-- A value whose encoding fits a `Vec` has lengths that fit too. -/
theorem sized_of_encodeValue (h : encodeValue room v = .ok b) (hlen : b.length < 2 ^ 64) :
    v.Sized := by
  induction room generalizing v b with
  | zero => simp at h
  | succ room ih =>
    cases v with
    | null => exact .null
    | bool flag => exact .bool flag
    | number number => exact .number number
    | string content =>
      obtain rfl : encodeText content = b := by simpa using h
      exact .string (utf8ByteSize_lt_of_encodeText hlen)
    | array values =>
      obtain ⟨elements, helements, rfl⟩ := encodeValue_array.mp h
      have hcount := length_writeAll (fun v _ b hb => length_encodeValue hb) helements
      rw [length_append] at hlen
      refine .array (by omega) fun v hmem => ?_
      obtain ⟨encoded, hencoded, hle⟩ := exists_of_writeAll helements hmem
      exact ih hencoded (by omega)
    | object entries =>
      obtain ⟨elements, helements, rfl⟩ := encodeValue_object.mp h
      have hmem : ∀ entry, entry ∈ canonicalOrder entries ↔ entry ∈ entries :=
        fun _ => (canonicalOrder_perm entries).mem_iff
      have hcount := length_writeAll (fun _ _ _ hb => length_encodeEntry hb) helements
      rw [(canonicalOrder_perm entries).length_eq] at hcount
      rw [length_append] at hlen
      have hentry : ∀ entry ∈ entries, entry.1.utf8ByteSize < 2 ^ 64 ∧ entry.2.Sized := by
        intro entry hin
        obtain ⟨b, hb, hle⟩ := exists_of_writeAll helements ((hmem entry).mpr hin)
        obtain ⟨encoded, hencoded, rfl⟩ := encodeEntry_eq_ok.mp hb
        rw [length_append] at hle
        exact ⟨utf8ByteSize_lt_of_encodeText (by omega), ih hencoded (by omega)⟩
      exact .object (by omega) (fun entry hin => (hentry entry hin).1)
        fun entry hin => (hentry entry hin).2

/-- An encoded value either comes back or is refused for its size. -/
theorem decode_of_encode (hwf : v.WellFormed) (h : encode v = .ok b) :
    (Decodable v → decode b = .ok v) ∧ (¬Decodable v → decode b = .error negativeTooSmall) := by
  have hread := roundTrips hwf b h []
  rw [append_nil] at hread
  constructor
  · intro hgood
    rw [decode, hread.1 hgood]
    rfl
  · intro hbad
    rw [decode, hread.2 hbad]
    rfl

/-- **The round trip, exactly.** A value that encodes is decoded to itself if and
only if `i64::MIN` does not occur in it. -/
theorem decode_encode_iff {v : Value} (hwf : v.WellFormed) {b : Bytes} (h : encode v = .ok b) :
    decode b = .ok v ↔ ¬Value.Occurs (.number .i64Min) v := by
  obtain ⟨hgood, hbad⟩ := decode_of_encode hwf h
  refine ⟨fun hok hocc => ?_, hgood⟩
  rw [hbad fun hdecodable => hdecodable hocc] at hok
  exact absurd hok (by simp)

/-- The round trip on a nested value with an argument at a width boundary. -/
theorem decode_encode_iff_nested :
    let v : Value := .object [("a", .array [.null, .number (.posInt 24)]), ("b", .bool true)]
    let b : Bytes := [0xa2, 0x61, 0x61, 0x82, 0xf6, 0x18, 0x18, 0x61, 0x62, 0xf5]
    encode v = .ok b ∧ (decode b = .ok v ↔ ¬Value.Occurs (.number .i64Min) v) := by
  have hpair {α : Type} {p : α → Prop} {a b : α} (ha : p a) (hb : p b) : ∀ x ∈ [a, b], p x := by
    simp [ha, hb]
  refine ⟨by decide +kernel, decode_encode_iff ⟨?_, ?_⟩ (by decide +kernel)⟩
  · refine .object (by unfold SortedMap.Sorted; decide +kernel) (hpair ?_ (.bool true))
    exact .array (hpair .null (.number _))
  · refine .object (by decide) (by decide +kernel) (hpair ?_ (.bool true))
    exact .array (by decide) (hpair .null (.number _))

/-- `i64::MIN` encodes as the largest magnitude of its major type, and the decoder
refuses it. -/
theorem decode_encode_i64Min :
    encode (.number .i64Min) = .ok [0x3b, 0x7f, 0xff, 0xff, 0xff, 0xff, 0xff, 0xff, 0xff] ∧
      decode [0x3b, 0x7f, 0xff, 0xff, 0xff, 0xff, 0xff, 0xff, 0xff]
        = .error ⟨"negative CBOR integer is too small"⟩ :=
  ⟨rfl, rfl⟩

end RSScript.Bytecode.CanonicalCbor
