import Mathlib.Data.List.Basic
import Mathlib.Data.Nat.Basic
import Mathlib.Tactic.Ring

/-!
# Byte codecs

Readers over a byte string and the two primitives a length-prefixed binary
format is made of: fixed-width big-endian scalars and counted repetition.

Each primitive carries both directions. *Forward*: reading what was written
gives the value back and leaves exactly the rest. *Exactness*: what a reader
accepts is the image of the writer, so that an accepted byte string is known
in full.

Nothing here knows about a particular format.
-/

namespace ByteCodec

open List Nat

/-- Byte strings, in the carrier on which codec proofs do induction. -/
abbrev Bytes := List UInt8

/-- A reader takes the bytes still unread and gives a value and the bytes it
left, or an error. -/
abbrev Reader (ε α : Type) := StateT Bytes (Except ε) α

variable (bs : Bytes)

section Reader

variable {ε α : Type}

@[simp] theorem Reader.pure_apply : (pure a : Reader ε α) bs = .ok (a, bs) := rfl

@[simp] theorem Reader.throw_apply : (throw e : Reader ε α) bs = .error e := rfl

@[simp] theorem Reader.get_apply : (get : Reader ε Bytes) bs = .ok (bs, bs) := rfl

variable {bs : Bytes} {x : Reader ε α}

/-- Sequencing after a reader that succeeded. -/
theorem Reader.bind_ok (h : x bs = .ok (a, rest)) : (x >>= f) bs = f a rest := by
  change (x bs).bind _ = _
  rw [h]
  rfl

/-- Sequencing after a reader that failed. -/
theorem Reader.bind_error (h : x bs = .error e) : (x >>= f) bs = .error e := by
  change (x bs).bind _ = _
  rw [h]
  rfl

theorem Reader.lift_apply (x : Except ε α) :
    (StateT.lift x : Reader ε α) bs = x.map fun a => (a, bs) := by
  cases x <;> rfl

theorem Reader.lift_eq_ok {x : Except ε α} :
    (StateT.lift x : Reader ε α) bs = .ok (a, rest) ↔ x = .ok a ∧ bs = rest := by
  rw [Reader.lift_apply]
  cases x with
  | error e => simp [Except.map]
  | ok b => simp [Except.map]

/-- A sequence succeeded exactly when both of its halves did. -/
theorem Reader.bind_eq_ok :
    (x >>= f) bs = .ok r ↔ ∃ a rest, x bs = .ok (a, rest) ∧ f a rest = .ok r := by
  constructor
  · intro h
    cases hx : x bs with
    | error e => rw [Reader.bind_error hx] at h; exact absurd h (by simp)
    | ok p => exact ⟨p.1, p.2, rfl, (Reader.bind_ok hx).symm.trans h⟩
  · rintro ⟨a, rest, hx, hf⟩
    rw [Reader.bind_ok hx, hf]

end Reader

/-! ## Chunks -/

section Chunk

variable {ε : Type}

/-- Read exactly `n` bytes; `e` is the error for a string that is too short. -/
def readChunk (e : ε) (n : Nat) : Reader ε Bytes := fun bs =>
  if n ≤ bs.length then .ok (bs.take n, bs.drop n) else .error e

theorem readChunk_append (h : chunk.length = n) :
    readChunk e n (chunk ++ rest) = .ok (chunk, rest) := by
  subst h
  simp [readChunk]

/-- A chunk that was read is the head of what was there. -/
theorem readChunk_exact {e : ε} {n : Nat} {bs chunk rest : Bytes}
    (h : readChunk e n bs = .ok (chunk, rest)) : bs = chunk ++ rest ∧ chunk.length = n := by
  unfold readChunk at h
  split at h
  case isTrue hle =>
    obtain ⟨rfl, rfl⟩ : bs.take n = chunk ∧ bs.drop n = rest := by simpa using h
    exact ⟨(take_append_drop n bs).symm, by rw [length_take]; omega⟩
  case isFalse => exact absurd h (by simp)

end Chunk

/-! ## Big-endian scalars -/

/-- The `width` low bytes of `n`, most significant first. -/
def bigEndian : Nat → Nat → Bytes
  | 0, _ => []
  | width + 1, n => UInt8.ofNat (n / 256 ^ width) :: bigEndian width n

/-- The number a big-endian byte string spells. -/
def ofBigEndian : Bytes → Nat
  | [] => 0
  | b :: bs => b.toNat * 256 ^ bs.length + ofBigEndian bs

variable (width n : Nat)

@[simp] theorem length_bigEndian : (bigEndian width n).length = width := by
  induction width with
  | zero => rfl
  | succ width ih => simp [bigEndian, ih]

theorem ofBigEndian_bigEndian_mod : ofBigEndian (bigEndian width n) = n % 256 ^ width := by
  induction width with
  | zero => simp [bigEndian, ofBigEndian, mod_one]
  | succ width ih =>
    simp only [bigEndian, ofBigEndian, length_bigEndian, ih, UInt8.toNat_ofNat']
    rw [pow_succ 256 width, mod_mul]
    ring

/-- A scalar that fits its width survives the round trip. -/
theorem ofBigEndian_bigEndian {width n : Nat} (h : n < 256 ^ width) :
    ofBigEndian (bigEndian width n) = n := by
  rw [ofBigEndian_bigEndian_mod, mod_eq_of_lt h]

theorem ofBigEndian_lt : ofBigEndian bs < 256 ^ bs.length := by
  induction bs with
  | nil => simp [ofBigEndian]
  | cons b bs ih =>
    have hb : (b.toNat + 1) * 256 ^ bs.length ≤ 256 * 256 ^ bs.length :=
      mul_le_mul_right _ b.toNat_lt
    rw [add_mul] at hb
    simp only [ofBigEndian, length_cons, pow_succ]
    omega

/-- Bytes above the width do not show in a big-endian scalar. -/
theorem bigEndian_add_mul : bigEndian width (k * 256 ^ width + n) = bigEndian width n := by
  induction width generalizing k with
  | zero => rfl
  | succ width ih =>
    have hsplit : k * 256 ^ (width + 1) + n = k * 256 * 256 ^ width + n := by rw [pow_succ]; ring
    have hhead : UInt8.ofNat ((k * 256 ^ (width + 1) + n) / 256 ^ width)
        = UInt8.ofNat (n / 256 ^ width) := by
      rw [hsplit, Nat.add_comm, Nat.add_mul_div_right _ _ (Nat.pow_pos (by decide))]
      apply UInt8.toNat_inj.mp
      simp only [UInt8.toNat_ofNat']
      omega
    simp only [bigEndian]
    rw [hhead, hsplit, ih]

/-- Every byte string is the big-endian spelling of its own number. -/
theorem bigEndian_ofBigEndian : bigEndian bs.length (ofBigEndian bs) = bs := by
  induction bs with
  | nil => rfl
  | cons b bs ih =>
    have hdiv : (b.toNat * 256 ^ bs.length + ofBigEndian bs) / 256 ^ bs.length = b.toNat := by
      rw [Nat.add_comm, Nat.add_mul_div_right _ _ (Nat.pow_pos (by decide)),
        div_eq_of_lt (ofBigEndian_lt bs), zero_add]
    simp only [length_cons, bigEndian, ofBigEndian, hdiv, bigEndian_add_mul, ih, UInt8.ofNat_toNat]

/-! ## Counted sequences -/

section Sequence

variable {ε α : Type}

/-- Write a sequence, one element after the other; the first error wins. -/
def writeAll (write : α → Except ε Bytes) : List α → Except ε Bytes
  | [] => .ok []
  | a :: as => do
    let first ← write a
    let others ← writeAll write as
    return first ++ others

/-- Run a reader `n` times. -/
def readN (read : Reader ε α) : Nat → Reader ε (List α)
  | 0 => pure []
  | n + 1 => do
    let first ← read
    let others ← readN read n
    return first :: others

variable {bs : Bytes} {write : α → Except ε Bytes}

theorem writeAll_cons : writeAll write (a :: as) = .ok bs ↔
      ∃ first others, write a = .ok first ∧ writeAll write as = .ok others ∧
        bs = first ++ others := by
  cases ha : write a with
  | error e => simp [writeAll, ha, bind, Except.bind]
  | ok first =>
    cases has : writeAll write as with
    | error e => simp [writeAll, ha, has, bind, Except.bind]
    | ok others => simp [writeAll, ha, has, bind, Except.bind, pure, Except.pure, eq_comm]

/-- Each element contributes its minimum length. -/
theorem length_writeAll (hmin : ∀ a ∈ as, ∀ b, write a = .ok b → least ≤ b.length)
    (h : writeAll write as = .ok bs) : least * as.length ≤ bs.length := by
  induction as generalizing bs with
  | nil => simp
  | cons a as ih =>
    obtain ⟨first, others, ha, has, rfl⟩ := writeAll_cons.mp h
    have hfirst := hmin a mem_cons_self first ha
    have hothers := ih (fun a ha => hmin a (mem_cons_of_mem _ ha)) has
    simp only [length_cons, length_append, mul_succ]
    omega

/-- Every element of a written sequence was written, inside the bytes of the whole. -/
theorem exists_of_writeAll (h : writeAll write as = .ok bs) (hmem : a ∈ as) :
    ∃ b, write a = .ok b ∧ b.length ≤ bs.length := by
  induction as generalizing bs with
  | nil => exact absurd hmem (by simp)
  | cons first as ih =>
    obtain ⟨b, others, hb, hothers, rfl⟩ := writeAll_cons.mp h
    rw [length_append]
    rcases mem_cons.mp hmem with rfl | hmem
    · exact ⟨b, hb, by omega⟩
    · obtain ⟨c, hc, hle⟩ := ih hothers hmem
      exact ⟨c, hc, by omega⟩

/-- What a reader does with one written element: `good` elements are read back,
the others stop it with `e`. -/
def ReadsBack (read : Reader ε α) (good : Prop) (e : ε) (written : Bytes) (a : α) : Prop :=
  ∀ rest, (good → read (written ++ rest) = .ok (a, rest)) ∧
    (¬good → read (written ++ rest) = .error e)

/-- A written sequence is read back when every element is good, and stops at the
first one that is not. -/
theorem readN_writeAll {read : Reader ε α} {good : α → Prop}
    (helem : ∀ a ∈ as, ∀ b, write a = .ok b → ReadsBack read (good a) e b a)
    (h : writeAll write as = .ok bs) :
    ReadsBack (readN read as.length) (∀ a ∈ as, good a) e bs as := by
  induction as generalizing bs with
  | nil =>
    obtain rfl : bs = [] := by simpa [writeAll, eq_comm] using h
    exact fun rest => ⟨fun _ => rfl, fun hbad => absurd (fun _ h => absurd h (by simp)) hbad⟩
  | cons a as ih =>
    obtain ⟨first, others, ha, has, rfl⟩ := writeAll_cons.mp h
    intro rest
    have hfirst := helem a mem_cons_self first ha (others ++ rest)
    have hothers := ih (fun a ha => helem a (mem_cons_of_mem _ ha)) has rest
    simp only [length_cons, readN, append_assoc, forall_mem_cons]
    constructor
    · rintro ⟨hgood, hall⟩
      rw [Reader.bind_ok (hfirst.1 hgood), Reader.bind_ok (hothers.1 hall)]
      rfl
    · intro hbad
      by_cases hgood : good a
      · rw [Reader.bind_ok (hfirst.1 hgood),
          Reader.bind_error (hothers.2 fun hall => hbad ⟨hgood, hall⟩)]
      · exact Reader.bind_error (hfirst.2 hgood)

end Sequence

end ByteCodec
