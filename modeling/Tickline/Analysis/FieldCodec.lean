import Mathlib.Tactic.NormNum
import Tickline.Model.CommandEvidenceArchive

/-!
# The fields of records and archives

Every writer of a field is the big-endian encoding of its value (`appendU64_eq` and its
siblings), and every reader agrees with its writer in the sense of `Library.Reads`
(`readU64_reads` and its siblings).
-/

set_option autoImplicit false

namespace Tickline.Analysis

open Tickline.Library Tickline.Library.BigEndian Tickline.Model Tickline.Model.EvidenceReader

/-! ## Writers -/

/-- INTERNAL: the byte at a shift. -/
theorem byteAtShift (value : UInt64) (k : ℕ) (hk : k < 8) :
    ((value >>> UInt64.ofNat (8 * k)) &&& 0xff).toUInt8 = UInt8.ofNat (value.toNat / 256 ^ k) := by
  apply UInt8.toNat_inj.mp
  have hshift : (UInt64.ofNat (8 * k)).toNat = 8 * k := by
    rw [UInt64.toNat_ofNat']
    exact Nat.mod_eq_of_lt (by omega)
  have hmask : (0xff : UInt64).toNat = 2 ^ 8 - 1 := rfl
  rw [UInt64.toNat_toUInt8, UInt64.toNat_and, UInt64.toNat_shiftRight, hshift, hmask,
    Nat.and_two_pow_sub_one_eq_mod, UInt8.toNat_ofNat', Nat.mod_mod,
    Nat.mod_eq_of_lt (show 8 * k < 64 by omega), Nat.shiftRight_eq_div_pow, Nat.pow_mul]

/-- The shifts of the writer spell the big-endian bytes. -/
theorem appendU64_eq (value : UInt64) : appendU64 value = encode 8 value.toNat := by
  simp only [appendU64, bytesAtShifts, List.map_cons, List.map_nil, encode]
  rw [← byteAtShift value 7 (by omega), ← byteAtShift value 6 (by omega),
    ← byteAtShift value 5 (by omega), ← byteAtShift value 4 (by omega),
    ← byteAtShift value 3 (by omega), ← byteAtShift value 2 (by omega),
    ← byteAtShift value 1 (by omega), ← byteAtShift value 0 (by omega)]
  rfl

theorem appendU32_eq (value : UInt32) : appendU32 value = encode 4 value.toNat := by
  simp only [appendU32, bytesAtShifts, List.map_cons, List.map_nil, encode]
  rw [← UInt32.toNat_toUInt64, ← byteAtShift value.toUInt64 3 (by omega),
    ← byteAtShift value.toUInt64 2 (by omega), ← byteAtShift value.toUInt64 1 (by omega),
    ← byteAtShift value.toUInt64 0 (by omega)]
  rfl

theorem appendU16_eq (value : UInt16) : appendU16 value = encode 2 value.toNat := by
  simp only [appendU16, bytesAtShifts, List.map_cons, List.map_nil, encode]
  rw [← UInt16.toNat_toUInt64, ← byteAtShift value.toUInt64 1 (by omega),
    ← byteAtShift value.toUInt64 0 (by omega)]
  rfl

@[simp] theorem length_appendU64 (value : UInt64) : (appendU64 value).length = 8 := by
  rw [appendU64_eq, length_encode]

@[simp] theorem length_appendU32 (value : UInt32) : (appendU32 value).length = 4 := by
  rw [appendU32_eq, length_encode]

@[simp] theorem length_appendU16 (value : UInt16) : (appendU16 value).length = 2 := by
  rw [appendU16_eq, length_encode]

@[simp] theorem length_appendI64 (value : Int64) : (appendI64 value).length = 8 :=
  length_appendU64 _

@[simp] theorem length_appendDigest (digest : Sha256Digest) :
    (appendDigest digest).length = 32 := by
  simp [appendDigest]

/-! ## Readers -/

/-- INTERNAL: one byte. -/
theorem readByte_takes (byte : UInt8) : Takes readByte [byte] byte := by
  intro c tail h
  have hget : c.input[c.offset]? = some byte := by
    have := congrArg (fun l => l[0]?) h
    simpa [ByteCursor.rest] using this
  refine ⟨c.skip 1, ?_, by simp [h]⟩
  simp only [readByte, Member.bind_apply, Member.get_apply, hget, Member.set_apply,
    Member.pure_apply, ByteCursor.skip]

/-- INTERNAL: one byte, the other way. -/
theorem readByte_sound {c c' : ByteCursor} {byte : UInt8} (h : readByte c = .ok byte c') :
    c.rest = byte :: c'.rest := by
  simp only [readByte, Member.bind_apply, Member.get_apply] at h
  cases hget : c.input[c.offset]? with
  | none => simp [hget] at h
  | some value =>
    simp only [hget, Member.bind_apply, Member.set_apply, Member.pure_apply,
      EStateM.Result.ok.injEq] at h
    obtain ⟨rfl, rfl⟩ := h
    obtain ⟨hlt, hval⟩ := List.getElem?_eq_some_iff.mp hget
    simp only [ByteCursor.rest]
    rw [List.drop_eq_getElem_cons hlt, hval]

/-- A loop of byte reads folds the bytes it takes. -/
theorem readLoop_takes {α : Type} (push : α → UInt8 → α) (bytes : List UInt8) (value : α) :
    Takes (readLoop push bytes.length value) bytes (bytes.foldl push value) := by
  induction bytes generalizing value with
  | nil => exact Takes.pure value
  | cons byte bytes ih => exact (readByte_takes byte).bind (ih (push value byte))

theorem readLoop_sound {α : Type} {push : α → UInt8 → α} {n : ℕ} {value a : α}
    {c c' : ByteCursor} (h : readLoop push n value c = .ok a c') :
    ∃ bytes, bytes.length = n ∧ c.rest = bytes ++ c'.rest ∧ a = bytes.foldl push value := by
  induction n generalizing value c with
  | zero =>
    cases h
    exact ⟨[], rfl, rfl, rfl⟩
  | succ n ih =>
    obtain ⟨byte, t, hbyte, hrun⟩ := bind_eq_ok h
    obtain ⟨bytes, hlen, hrest, ha⟩ := ih hrun
    exact ⟨byte :: bytes, by simp [hlen], by rw [readByte_sound hbyte, hrest]; rfl, ha⟩

/-- INTERNAL: appending a byte to a number that leaves room for it. -/
theorem shift_or_byte {n b : ℕ} (hb : b < 256) : n <<< 8 ||| b = n * 256 + b := by
  rw [← Nat.shiftLeft_add_eq_or_of_lt (by omega), Nat.shiftLeft_eq]

/-- INTERNAL: a fold that shifts bytes into a machine word computes the number they
spell, as long as they fit. -/
theorem foldl_push_toNat {α : Type} (toNat : α → ℕ) (bits : ℕ) (push : α → UInt8 → α)
    (hpush : ∀ v b, toNat v * 256 + b.toNat < 2 ^ bits →
      toNat (push v b) = toNat v * 256 + b.toNat)
    (bytes : List UInt8) (value : α)
    (hfits : (toNat value + 1) * 256 ^ bytes.length ≤ 2 ^ bits) :
    toNat (bytes.foldl push value) = bytes.foldl step (toNat value) := by
  induction bytes generalizing value with
  | nil => rfl
  | cons byte bytes ih =>
    have hbyte := byte.toNat_lt
    have hpos : 1 ≤ 256 ^ bytes.length :=
      Nat.one_le_two_pow.trans (Nat.pow_le_pow_left (by omega) _)
    rw [List.length_cons, pow_succ, mul_comm (256 ^ _), ← mul_assoc] at hfits
    have hnext : (toNat value * 256 + byte.toNat + 1) * 256 ^ bytes.length ≤ 2 ^ bits :=
      (Nat.mul_le_mul_right _ (by omega)).trans hfits
    have hstep := hpush value byte (by nlinarith)
    rw [List.foldl_cons, List.foldl_cons, ih (push value byte) (by rwa [hstep]), hstep]
    rfl

/-- **A loop that shifts bytes into a machine word** reads a big-endian field. -/
theorem readLoop_reads {α : Type} {width bits : ℕ} (hpow : 2 ^ bits = 256 ^ width)
    (toNat : α → ℕ) (hinj : Function.Injective toNat) (hlt : ∀ a, toNat a < 2 ^ bits)
    (push : α → UInt8 → α) (hpush : ∀ v b, toNat v * 256 + b.toNat < 2 ^ bits →
      toNat (push v b) = toNat v * 256 + b.toNat)
    (zero : α) (hzero : toNat zero = 0) (write : α → List UInt8)
    (hwrite : ∀ a, write a = encode width (toNat a)) :
    Reads (readLoop push width zero) write := by
  refine Reads.of_decode toNat hinj (hpow ▸ hlt) hwrite (fun bytes => bytes.foldl push zero)
    (fun bytes hlen => ?_) (fun bytes hlen => ?_) (fun h => readLoop_sound h)
  · have hfits : (toNat zero + 1) * 256 ^ bytes.length ≤ 2 ^ bits := by
      rw [hzero, hlen, hpow, Nat.zero_add, Nat.one_mul]
    rw [foldl_push_toNat toNat bits push hpush bytes zero hfits, hzero]
    rfl
  · rw [← hlen]
    exact readLoop_takes push bytes zero

/-- INTERNAL: shifting a byte into a 64-bit word with room for it. -/
theorem pushByte_toNat64 (v : UInt64) (b : UInt8) (hfits : v.toNat * 256 + b.toNat < 2 ^ 64) :
    ((v <<< 8) ||| b.toUInt64).toNat = v.toNat * 256 + b.toNat := by
  have hshift : v.toNat <<< 8 < 2 ^ 64 := by
    rw [Nat.shiftLeft_eq]
    exact (Nat.le_add_right _ _).trans_lt hfits
  rw [UInt64.toNat_or, UInt64.toNat_shiftLeft, UInt8.toNat_toUInt64,
    show (8 : UInt64).toNat % 64 = 8 from rfl, Nat.mod_eq_of_lt hshift, shift_or_byte b.toNat_lt]

/-- INTERNAL: shifting a byte into a 32-bit word with room for it. -/
theorem pushByte_toNat32 (v : UInt32) (b : UInt8) (hfits : v.toNat * 256 + b.toNat < 2 ^ 32) :
    ((v <<< 8) ||| b.toUInt32).toNat = v.toNat * 256 + b.toNat := by
  have hshift : v.toNat <<< 8 < 2 ^ 32 := by
    rw [Nat.shiftLeft_eq]
    exact (Nat.le_add_right _ _).trans_lt hfits
  rw [UInt32.toNat_or, UInt32.toNat_shiftLeft, UInt8.toNat_toUInt32,
    show (8 : UInt32).toNat % 32 = 8 from rfl, Nat.mod_eq_of_lt hshift, shift_or_byte b.toNat_lt]

/-- INTERNAL: shifting a byte into a 16-bit word with room for it. -/
theorem pushByte_toNat16 (v : UInt16) (b : UInt8) (hfits : v.toNat * 256 + b.toNat < 2 ^ 16) :
    ((v <<< 8) ||| b.toUInt16).toNat = v.toNat * 256 + b.toNat := by
  have hshift : v.toNat <<< 8 < 2 ^ 16 := by
    rw [Nat.shiftLeft_eq]
    exact (Nat.le_add_right _ _).trans_lt hfits
  rw [UInt16.toNat_or, UInt16.toNat_shiftLeft, UInt8.toNat_toUInt16,
    show (8 : UInt16).toNat % 16 = 8 from rfl, Nat.mod_eq_of_lt hshift, shift_or_byte b.toNat_lt]

/-- Eight-byte fields are read back. -/
theorem readU64_reads : Reads readU64 appendU64 :=
  readLoop_reads (by norm_num) UInt64.toNat (fun _ _ => UInt64.toNat_inj.mp)
    (fun a => a.toNat_lt) (fun value byte => (value <<< 8) ||| byte.toUInt64)
    pushByte_toNat64 0 rfl _ appendU64_eq

theorem readU32_reads : Reads readU32 appendU32 :=
  readLoop_reads (by norm_num) UInt32.toNat (fun _ _ => UInt32.toNat_inj.mp)
    (fun a => a.toNat_lt) (fun value byte => (value <<< 8) ||| byte.toUInt32)
    pushByte_toNat32 0 rfl _ appendU32_eq

/-- INTERNAL: the two-byte reader is the loop with two bytes to go. -/
theorem readU16_eq :
    readU16 = readLoop (fun (value : UInt16) byte => (value <<< 8) ||| byte.toUInt16) 2 0 := by
  have hzero : ∀ byte : UInt8, ((0 : UInt16) <<< 8) ||| byte.toUInt16 = byte.toUInt16 := by
    intro byte
    simp
  simp only [readU16, readLoop, hzero]

theorem readU16_reads : Reads readU16 appendU16 := by
  rw [readU16_eq]
  exact readLoop_reads (by norm_num) UInt16.toNat (fun _ _ => UInt16.toNat_inj.mp)
    (fun a => a.toNat_lt) (fun value byte => (value <<< 8) ||| byte.toUInt16)
    pushByte_toNat16 0 rfl _ appendU16_eq

/-! ## The bytes of a word -/

/-- INTERNAL: shifting the bytes of a field into a word gives the number they spell. -/
theorem foldl_field {α : Type} {width bits : ℕ} (hpow : 2 ^ bits = 256 ^ width) {toNat : α → ℕ}
    {push : α → UInt8 → α} (hpush : ∀ v b, toNat v * 256 + b.toNat < 2 ^ bits →
      toNat (push v b) = toNat v * 256 + b.toNat)
    {zero : α} (hzero : toNat zero = 0) {bytes : List UInt8} (hlen : bytes.length = width) :
    toNat (bytes.foldl push zero) = decode bytes := by
  have hfits : (toNat zero + 1) * 256 ^ bytes.length ≤ 2 ^ bits := by
    rw [hzero, hlen, hpow, Nat.zero_add, Nat.one_mul]
  rw [foldl_push_toNat toNat bits push hpush bytes zero hfits, hzero]
  rfl

/-- Eight bytes are the field of the word they shift into. -/
theorem appendU64_foldl {bytes : List UInt8} (hlen : bytes.length = 8) :
    appendU64 (bytes.foldl (fun value byte => (value <<< 8) ||| byte.toUInt64) 0) = bytes := by
  rw [appendU64_eq, foldl_field (by norm_num) pushByte_toNat64 rfl hlen, ← hlen, encode_decode]

theorem appendU32_foldl {bytes : List UInt8} (hlen : bytes.length = 4) :
    appendU32 (bytes.foldl (fun value byte => (value <<< 8) ||| byte.toUInt32) 0) = bytes := by
  rw [appendU32_eq, foldl_field (by norm_num) pushByte_toNat32 rfl hlen, ← hlen, encode_decode]

theorem appendU16_foldl {bytes : List UInt8} (hlen : bytes.length = 2) :
    appendU16 (bytes.foldl (fun value byte => (value <<< 8) ||| byte.toUInt16) 0) = bytes := by
  rw [appendU16_eq, foldl_field (by norm_num) pushByte_toNat16 rfl hlen, ← hlen, encode_decode]

/-- A field determines its word. -/
theorem appendU64_injective {a b : UInt64} (h : appendU64 a = appendU64 b) : a = b := by
  rw [appendU64_eq, appendU64_eq] at h
  apply UInt64.toNat_inj.mp
  rw [← decode_encode_of_lt (w := 8) a.toNat_lt, ← decode_encode_of_lt (w := 8) b.toNat_lt, h]

theorem appendU32_injective {a b : UInt32} (h : appendU32 a = appendU32 b) : a = b := by
  rw [appendU32_eq, appendU32_eq] at h
  apply UInt32.toNat_inj.mp
  rw [← decode_encode_of_lt (w := 4) a.toNat_lt, ← decode_encode_of_lt (w := 4) b.toNat_lt, h]

theorem appendU16_injective {a b : UInt16} (h : appendU16 a = appendU16 b) : a = b := by
  rw [appendU16_eq, appendU16_eq] at h
  apply UInt16.toNat_inj.mp
  rw [← decode_encode_of_lt (w := 2) a.toNat_lt, ← decode_encode_of_lt (w := 2) b.toNat_lt, h]

/-- Signed fields are read back through their unsigned ones. -/
theorem readI64_reads : Reads readI64 appendI64 :=
  readU64_reads.map UInt64.toInt64 Int64.toUInt64 (fun _ => rfl) fun _ => rfl

/-- An array is filled with the bytes it takes. -/
theorem readArray_takes (bytes : List UInt8) :
    ∀ (size : ℕ) (h : bytes.length = size), Takes (readArray size) bytes ⟨bytes.toArray, h⟩ := by
  induction bytes using List.reverseRecOn with
  | nil =>
    rintro _ rfl
    exact Takes.pure _
  | append_singleton bytes byte ih =>
    intro size h
    obtain ⟨n, rfl⟩ : ∃ n, size = n + 1 := ⟨bytes.length, by simpa using h.symm⟩
    have hlen : bytes.length = n := by simpa using h
    have hpush : (Vector.mk bytes.toArray hlen).push byte = ⟨(bytes ++ [byte]).toArray, h⟩ := by
      simp
    rw [← hpush]
    exact (ih n hlen).bind ((readByte_takes byte).bind (Takes.pure _))

theorem readArray_sound {size : ℕ} {v : Vector UInt8 size} {c c' : ByteCursor}
    (h : readArray size c = .ok v c') : c.rest = v.toList ++ c'.rest := by
  induction size generalizing c c' with
  | zero =>
    cases h
    rfl
  | succ size ih =>
    obtain ⟨init, t, hinit, hrun⟩ := bind_eq_ok h
    obtain ⟨byte, t', hbyte, hpure⟩ := bind_eq_ok hrun
    cases hpure
    rw [ih hinit, readByte_sound hbyte, Vector.toList_push]
    simp

/-- Digests are read back, all 32 bytes. -/
theorem readDigest_reads : Reads readDigest appendDigest where
  takes digest := by
    have htakes := readArray_takes digest.bytes.toList 32 (by simp)
    have hback : (⟨digest.bytes.toList.toArray, by simp⟩ : Vector UInt8 32) = digest.bytes := by
      apply Vector.toList_inj.mp
      simp
    have hrun := htakes.bind (f := fun bytes => pure (Sha256Digest.mk bytes)) (Takes.pure _)
    rw [hback, List.append_nil] at hrun
    exact hrun
  sound {c digest c'} h := by
    obtain ⟨bytes, t, hread, hpure⟩ := bind_eq_ok h
    cases hpure
    exact readArray_sound hread

/-- A magic value is taken when it is there, and only then. -/
theorem readMagic_takes (fault : Fault) (magic : List UInt8) :
    Takes (readMagic fault magic) magic () := by
  induction magic with
  | nil => exact Takes.pure ()
  | cons byte magic ih =>
    simp only [readMagic]
    apply (readByte_takes byte).bind
    simpa using ih

/-- A magic value that was accepted was there. -/
theorem readMagic_sound {fault : Fault} {magic : List UInt8} {c c' : ByteCursor}
    (h : readMagic fault magic c = .ok () c') : c.rest = magic ++ c'.rest := by
  induction magic generalizing c with
  | nil =>
    cases h
    rfl
  | cons expected magic ih =>
    simp only [readMagic] at h
    obtain ⟨byte, t, hbyte, hrun⟩ := bind_eq_ok h
    by_cases heq : byte = expected
    · simp only [heq, ne_eq, not_true_eq_false, if_false] at hrun
      rw [readByte_sound hbyte, heq, ih hrun]
      rfl
    · simp only [ne_eq, heq, not_false_eq_true, if_true] at hrun
      obtain ⟨_, _, hthrow, -⟩ := bind_eq_ok hrun
      cases hthrow

end Tickline.Analysis
