import Tickline.Analysis.FieldCodec
import Tickline.Library.Sha2
import Tickline.Model.Sha256

/-!
# The code's hash is the standard's

`Tickline.Library.Sha2` is the standard.  Word by word the code's functions are the standard's
(`toWords_round`), the schedule filled in place is the recursion (`makeSchedule_eq`), a block is
compressed alike (`toWords_processBlock`), and the one or two blocks of the tail are the rest of
the message with the padding behind it (`makeTail_eq`).
-/

set_option autoImplicit false

namespace Tickline.Analysis

open Tickline.Library Tickline.Model Tickline.Model.Sha256

/-- INTERNAL: an entry of a vector, by the number of its place. -/
theorem get_of_lt {α : Type} {n i : ℕ} (xs : Vector α n) (h : i < n) :
    xs.get ⟨i, h⟩ = xs[i] := rfl

/-- INTERNAL: an entry of a vector that is given by a function. -/
theorem get_ofFn {α : Type} {n : ℕ} (f : Fin n → α) (i : Fin n) : (Vector.ofFn f).get i = f i :=
  Vector.getElem_ofFn i.isLt

/-! ## Constants -/

/-- The first 64 primes. -/
def firstPrimes : Vector ℕ 64 := #v[
  2, 3, 5, 7, 11, 13, 17, 19, 23, 29, 31, 37, 41, 43, 47, 53, 59, 61, 67, 71, 73, 79, 83, 89, 97,
  101, 103, 107, 109, 113, 127, 131, 137, 139, 149, 151, 157, 163, 167, 173, 179, 181, 191, 193,
  197, 199, 211, 223, 227, 229, 233, 239, 241, 251, 257, 263, 269, 271, 277, 281, 283, 293, 307,
  311]

theorem firstPrimes_eq (t : Fin 64) : Nat.nth Nat.Prime t = firstPrimes.get t := by
  have htable : ∀ t : Fin 64, firstPrimes.get t < 324 ∧
      Sha2.passesTrial (firstPrimes.get t) = true ∧
      (List.range (firstPrimes.get t)).countP Sha2.passesTrial = t := by
    decide +kernel
  obtain ⟨hlt, hprime, hcount⟩ := htable t
  exact Sha2.nth_prime_eq hlt hprime hcount

/-- INTERNAL: a word of the code behind the whole part of a root. -/
theorem toBitVec_eq_rootBits {k index p whole : ℕ} {word : UInt32}
    (hp : Nat.nth Nat.Prime index = p)
    (hle : (whole * 2 ^ 32 + word.toNat) ^ k ≤ p * 2 ^ (32 * k))
    (hlt : p * 2 ^ (32 * k) < (whole * 2 ^ 32 + word.toNat + 1) ^ k) :
    word.toBitVec = Sha2.rootBits k index := by
  rw [Sha2.rootBits_eq hp hle hlt]
  apply BitVec.eq_of_toNat_eq
  rw [BitVec.toNat_ofNat, Nat.mul_comm, Nat.mul_add_mod, UInt32.toNat_toBitVec,
    Nat.mod_eq_of_lt (UInt32.toNat_lt _)]

/-- The table of the code has the bits behind the whole parts of the roots. -/
theorem roundConstants_eq (t : Fin 64) :
    (roundConstants.get t).toBitVec = Sha2.roundConstant t := by
  have htable : ∀ t : Fin 64, ∃ whole ∈ List.range 7,
      (whole * 2 ^ 32 + (roundConstants.get t).toNat) ^ 3 ≤ firstPrimes.get t * 2 ^ 96 ∧
      firstPrimes.get t * 2 ^ 96 < (whole * 2 ^ 32 + (roundConstants.get t).toNat + 1) ^ 3 := by
    decide +kernel
  obtain ⟨whole, -, hle, hlt⟩ := htable t
  exact toBitVec_eq_rootBits (firstPrimes_eq t) hle hlt

/-- The initial state, by square roots of the first eight primes. -/
theorem initialState_eq (i : Fin 8) : (initialState.get i).toBitVec = Sha2.rootBits 2 i := by
  have htable : ∀ i : Fin 8, ∃ whole ∈ List.range 5,
      (whole * 2 ^ 32 + (initialState.get i).toNat) ^ 2 ≤ firstPrimes[i.val] * 2 ^ 64 ∧
      firstPrimes[i.val] * 2 ^ 64 < (whole * 2 ^ 32 + (initialState.get i).toNat + 1) ^ 2 := by
    decide +kernel
  obtain ⟨whole, -, hle, hlt⟩ := htable i
  exact toBitVec_eq_rootBits (firstPrimes_eq ⟨i, by omega⟩) hle hlt

/-! ## Functions -/

theorem smallSigmaZero_eq (x : UInt32) :
    (smallSigmaZero x).toBitVec = Sha2.lowerSigma0 x.toBitVec := rfl

theorem smallSigmaOne_eq (x : UInt32) :
    (smallSigmaOne x).toBitVec = Sha2.lowerSigma1 x.toBitVec := rfl

/-! ## Compression -/

/-- The state of the code as a hash value. -/
def toWords (state : HashState) : Sha2.Words :=
  ⟨(state.get 0).toBitVec, (state.get 1).toBitVec, (state.get 2).toBitVec,
    (state.get 3).toBitVec, (state.get 4).toBitVec, (state.get 5).toBitVec,
    (state.get 6).toBitVec, (state.get 7).toBitVec⟩

theorem toWords_initialState : toWords initialState = Sha2.initialHash := by
  unfold toWords Sha2.initialHash
  exact Sha2.Words.ext (initialState_eq 0) (initialState_eq 1) (initialState_eq 2)
    (initialState_eq 3) (initialState_eq 4) (initialState_eq 5) (initialState_eq 6)
    (initialState_eq 7)

theorem toWords_round (state : HashState) (constant word : UInt32) :
    toWords (round state constant word) =
      Sha2.step (toWords state) constant.toBitVec word.toBitVec := rfl

/-- INTERNAL: the additions behind the round loop. -/
theorem toWords_add (rounds state : HashState) :
    toWords (Vector.ofFn fun index => state.get index + rounds.get index) =
      (toWords rounds).add (toWords state) := by
  unfold toWords Sha2.Words.add
  simp [get_ofFn, BitVec.add_comm]

/-- INTERNAL: four bytes shifted in one after the other. -/
theorem foldl_fourBytes (b₀ b₁ b₂ b₃ : UInt8) :
    [b₀, b₁, b₂, b₃].foldl (fun (value : UInt32) byte => (value <<< 8) ||| byte.toUInt32) 0 =
      (b₀.toUInt32 <<< 24) ||| (b₁.toUInt32 <<< 16) ||| (b₂.toUInt32 <<< 8) ||| b₃.toUInt32 := by
  apply UInt32.toBitVec_inj.mp
  simp [BitVec.shiftLeft_or_distrib, ← BitVec.shiftLeft_add]

/-- INTERNAL: the bytes of a word in a block. -/
theorem take_drop_block (block : Vector UInt8 64) (t : ℕ) (h : t * 4 + 3 < 64) :
    (block.toList.drop (4 * t)).take 4 =
      [block[t * 4], block[t * 4 + 1], block[t * 4 + 2], block[t * 4 + 3]] := by
  have hlen : block.toList.length = 64 := Vector.length_toList
  rw [List.drop_eq_getElem_cons (by omega), List.drop_eq_getElem_cons (by omega),
    List.drop_eq_getElem_cons (by omega), List.drop_eq_getElem_cons (by omega)]
  simp [Nat.mul_comm]

theorem readWord_eq (block : Vector UInt8 64) (t : ℕ) (h : t * 4 + 3 < 64) :
    (readWord block (t * 4) h).toBitVec = Sha2.messageWord block.toList t := by
  have hfold : UInt32.toNat ([block[t * 4], block[t * 4 + 1], block[t * 4 + 2],
      block[t * 4 + 3]].foldl (fun value byte => (value <<< 8) ||| byte.toUInt32) 0) =
      BigEndian.decode [block[t * 4], block[t * 4 + 1], block[t * 4 + 2], block[t * 4 + 3]] :=
    foldl_field (by norm_num) pushByte_toNat32 rfl rfl
  unfold Sha2.messageWord readWord
  rw [take_drop_block block t h, ← hfold, ← foldl_fourBytes]
  apply BitVec.eq_of_toNat_eq
  rw [BitVec.toNat_ofNat, UInt32.toNat_toBitVec, Nat.mod_eq_of_lt (UInt32.toNat_lt _)]

/-- INTERNAL: the loop from an index on extends a schedule that is right before it. -/
theorem extendSchedule_eq {block : List UInt8} {remaining : ℕ} (h : remaining ≤ 48)
    {filled : MessageSchedule}
    (hfilled : ∀ t : Fin 64, t.val < 64 - remaining →
      (filled.get t).toBitVec = Sha2.schedule block t) (t : Fin 64) :
    ((extendSchedule remaining h filled).get t).toBitVec = Sha2.schedule block t := by
  induction remaining generalizing filled with
  | zero => exact hfilled t (by omega)
  | succ remaining ih =>
    unfold extendSchedule
    apply ih
    intro t ht
    have hbefore : ∀ i (hi : i < 64), i < 63 - remaining →
        filled[i].toBitVec = Sha2.schedule block i :=
      fun i hi hlt => hfilled ⟨i, hi⟩ (by simp only; omega)
    rcases Nat.lt_or_eq_of_le (show t.val ≤ 63 - remaining by omega) with hlt | heq
    · rw [get_of_lt, Vector.getElem_set_ne _ _ (by omega)]
      exact hfilled t (by omega)
    · obtain ⟨t, _⟩ := t
      subst heq
      rw [get_of_lt, Vector.getElem_set_self, Sha2.schedule_ge (by simp only; omega),
        UInt32.toBitVec_add, UInt32.toBitVec_add, UInt32.toBitVec_add, smallSigmaZero_eq,
        smallSigmaOne_eq, hbefore _ _ (by omega), hbefore _ _ (by omega), hbefore _ _ (by omega),
        hbefore _ _ (by omega)]
      ac_rfl

theorem makeSchedule_eq (block : Vector UInt8 64) (t : Fin 64) :
    ((makeSchedule block).get t).toBitVec = Sha2.schedule block.toList t := by
  unfold makeSchedule
  apply extendSchedule_eq
  intro t ht
  rw [Sha2.schedule_lt (by omega), get_ofFn, dif_pos (by omega),
    readWord_eq]

/-- **A block is compressed alike.** -/
theorem toWords_processBlock (block : Vector UInt8 64) (state : HashState) :
    toWords (processBlock block state) = Sha2.compress (toWords state) block.toList := by
  have hrounds : (List.range 64).foldl (fun v t => Sha2.step v (Sha2.roundConstant t)
        (Sha2.schedule block.toList t)) (toWords state) =
      toWords ((List.finRange 64).foldl (fun working index =>
        round working (roundConstants.get index) ((makeSchedule block).get index)) state) := by
    rw [← List.map_coe_finRange_eq_range, List.foldl_map]
    apply List.foldl_hom
    intro working t
    rw [toWords_round, roundConstants_eq, makeSchedule_eq]
  unfold Sha2.compress
  rw [hrounds, ← toWords_add]
  rfl

/-! ## Tail -/

/-- A complete block of the message. -/
theorem blockAt_toList {bytes : List UInt8} {index : ℕ} (h : (index + 1) * 64 ≤ bytes.length) :
    (blockAt bytes (index * 64)).toList = block 64 bytes index := by
  unfold blockAt block
  apply List.ext_getElem
  · rw [Vector.length_toList, List.length_take, List.length_drop]
    omega
  · intro i hi _
    rw [Vector.length_toList] at hi
    rw [Vector.getElem_toList, Vector.getElem_ofFn, List.getElem_take, List.getElem_drop]
    exact (List.getElem_eq_getD 0).symm

/-- INTERNAL: the length bytes of the code. -/
theorem lengthBytes_eq (length : ℕ) :
    appendU64 (UInt64.ofNat length * 8) = BigEndian.encode 8 (8 * length) := by
  rw [appendU64_eq, ← BigEndian.encode_mod 8 (8 * length)]
  congr 1
  rw [UInt64.toNat_mul, UInt64.toNat_ofNat', Nat.mod_mul_mod, Nat.mul_comm]
  rfl

/-- **The tail** is what the complete blocks leave of the message, and its padding. -/
theorem makeTail_eq (bytes : List UInt8) :
    makeTail bytes = bytes.drop (bytes.length / 64 * 64) ++ Sha2.padding bytes.length := by
  have hzeros : finalSize (bytes.length - bytes.length / 64 * 64) - 8 -
      (bytes.length - bytes.length / 64 * 64) - 1 = Sha2.zeros bytes.length := by
    rw [Sha2.zeros_eq]
    unfold finalSize blockSize
    split <;> omega
  unfold makeTail Sha2.padding
  rw [← lengthBytes_eq, ← hzeros]
  simp [blockSize, appendU64, bytesAtShifts]

theorem length_makeTail (bytes : List UInt8) :
    (makeTail bytes).length = finalSize (bytes.length - bytes.length / 64 * 64) := by
  rw [makeTail_eq]
  unfold Sha2.padding finalSize blockSize
  rw [Sha2.zeros_eq]
  simp
  split <;> omega

/-! ## Digest -/

/-- INTERNAL: the code shifts 32-bit words where the field writers shift 64-bit ones. -/
theorem writeWord_eq (value : UInt32) : writeWord value = BigEndian.encode 4 value.toNat := by
  have hshift : ∀ k : UInt32, k.toNat < 32 →
      (value >>> k).toUInt64 = value.toUInt64 >>> k.toUInt64 := by
    intro k hk
    apply UInt64.toNat_inj.mp
    rw [UInt32.toNat_toUInt64, UInt32.toNat_shiftRight, UInt64.toNat_shiftRight,
      UInt32.toNat_toUInt64, UInt32.toNat_toUInt64, Nat.mod_eq_of_lt hk,
      Nat.mod_eq_of_lt (by omega)]
  have hbyte : ∀ k : UInt32, k.toNat < 32 → ((value >>> k) &&& 0xff).toUInt8 =
      ((value.toUInt64 >>> k.toUInt64) &&& 0xff).toUInt8 := by
    intro k hk
    rw [← hshift k hk]
    rfl
  rw [← appendU32_eq]
  unfold writeWord appendU32 bytesAtShifts
  rw [hbyte 24 (by decide), hbyte 16 (by decide), hbyte 8 (by decide)]
  rfl

/-- INTERNAL: the words of a state, first to last. -/
theorem map_toBitVec_toList (state : HashState) :
    state.toList.map UInt32.toBitVec = (toWords state).toList := by
  have hlist : state.toList = [state[0], state[1], state[2], state[3], state[4], state[5],
      state[6], state[7]] := by
    apply List.ext_getElem
    · simp
    · intro i hi _
      have hi : i < 8 := by simpa using hi
      interval_cases i <;> rfl
  rw [hlist]
  rfl

/-- INTERNAL: the bytes of the digest. -/
theorem flatMap_writeWord (state : HashState) :
    state.toList.flatMap writeWord =
      (toWords state).toList.flatMap fun word => BigEndian.encode 4 word.toNat := by
  rw [← map_toBitVec_toList, List.flatMap_map]
  exact List.flatMap_congr fun value _ => writeWord_eq value

/-- INTERNAL: the digest array has all the bytes. -/
theorem ofFn_getD {bytes : List UInt8} {size : ℕ} (h : bytes.length = size) :
    (Vector.ofFn fun index : Fin size => bytes.getD index 0).toList = bytes := by
  apply List.ext_getElem
  · rw [Vector.length_toList, h]
  · intro i hi _
    rw [Vector.getElem_toList, Vector.getElem_ofFn]
    exact (List.getElem_eq_getD 0).symm

/-- INTERNAL: the state behind the complete blocks. -/
theorem toWords_foldl_processBlock (bytes : List UInt8) (state : HashState) :
    toWords ((List.range (bytes.length / 64)).foldl
        (fun state blockIndex => processBlock (blockAt bytes (blockIndex * 64)) state) state) =
      (List.range (bytes.length / 64)).foldl
        (fun hash index => Sha2.compress hash (block 64 bytes index)) (toWords state) := by
  have hblocks : (List.range (bytes.length / 64)).foldl
        (fun hash index => Sha2.compress hash (block 64 bytes index)) (toWords state) =
      (List.range (bytes.length / 64)).foldl
        (fun hash index => Sha2.compress hash (blockAt bytes (index * 64)).toList)
        (toWords state) := by
    apply List.foldl_ext
    intro hash index hindex
    have hlt := List.mem_range.mp hindex
    rw [blockAt_toList (by omega)]
  rw [hblocks]
  symm
  apply List.foldl_hom
  intro state index
  exact (toWords_processBlock _ state).symm

/-- INTERNAL: the state behind the tail. -/
theorem toWords_tail (bytes : List UInt8) (state : HashState) :
    toWords (if finalSize (bytes.length - bytes.length / 64 * 64) = 64 * 2
      then processBlock (blockAt (makeTail bytes) 64)
        (processBlock (blockAt (makeTail bytes) 0) state)
      else processBlock (blockAt (makeTail bytes) 0) state) =
      (blocks 64 (makeTail bytes)).foldl Sha2.compress (toWords state) := by
  have hlen := length_makeTail bytes
  have hfirst : (blockAt (makeTail bytes) (0 * 64)).toList = block 64 (makeTail bytes) 0 := by
    apply blockAt_toList
    rw [hlen]
    unfold finalSize blockSize
    split <;> omega
  unfold blocks
  rw [hlen]
  split
  · rename_i htwo
    have hsecond : (blockAt (makeTail bytes) (1 * 64)).toList = block 64 (makeTail bytes) 1 := by
      apply blockAt_toList
      omega
    rw [htwo, show (64 * 2) / 64 = 2 from rfl, List.range_succ, List.range_one, List.map_append,
      List.map_singleton, List.map_singleton, List.foldl_append, List.foldl_cons, List.foldl_nil,
      List.foldl_cons, List.foldl_nil, ← hfirst, ← hsecond, toWords_processBlock,
      toWords_processBlock]
  · rename_i hone
    have hsize : finalSize (bytes.length - bytes.length / 64 * 64) = 64 := by
      unfold finalSize blockSize at hone ⊢
      split at hone
      · exact if_pos ‹_›
      · exact absurd rfl hone
    rw [hsize, show 64 / 64 = 1 from rfl, List.range_one, List.map_singleton, List.foldl_cons,
      List.foldl_nil, ← hfirst, toWords_processBlock]

/-- **The hash is SHA-256**: for every byte string, of every length modulo 64, the digest of the
code is the digest of the standard.  Behind 2^61 bytes, where the standard says nothing, both
lengths drop the same bits.
SRC: sha256.cpp:85-397 -/
theorem sha256_standard (bytes : List UInt8) :
    (sha256 bytes).bytes.toList = Sha2.sha256 bytes := by
  unfold sha256 Sha2.sha256
  rw [foldl_blocks_append (by decide), ← makeTail_eq, ← toWords_initialState,
    ← toWords_foldl_processBlock, ← toWords_tail, ← flatMap_writeWord]
  apply ofFn_getD
  rw [List.length_flatMap]
  simp [writeWord]

end Tickline.Analysis
