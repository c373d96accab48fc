import Mathlib.Analysis.SpecialFunctions.Pow.NthRootLemmas
import Mathlib.Data.Nat.Prime.Nth
import Mathlib.Tactic.IntervalCases
import Mathlib.Tactic.NormNum.Prime
import Tickline.Library.BigEndian
import Tickline.Library.Blocks

/-!
# The SHA-256 standard

The digest of FIPS 180-4 for a message of whole bytes, in the terms of the standard: words of 32
bits with addition modulo 2^32, the six logical functions, the message schedule as a recursion on
its index, the compression of a block as 64 steps on eight working variables, and the padding.

No table is written down.  The constants are what the standard says they are, the first 32 bits
of the fractional parts of the roots of the first primes (`rootBits`), and `rootBits_eq`
evaluates one of them from bounds on the root.
-/

set_option autoImplicit false

namespace Tickline.Library.Sha2

/-- A word of 32 bits; `+` is addition modulo 2^32. -/
abbrev Word := BitVec 32

/-! ## Constants -/

/-- The first 32 bits of the fractional part of the `k`-th root of the prime at an index, that is
`⌊p^(1/k) · 2^32⌋` modulo 2^32. -/
noncomputable def rootBits (k index : ℕ) : Word :=
  BitVec.ofNat 32 (Nat.nthRoot k (Nat.nth Nat.Prime index * 2 ^ (32 * k)))

/-- The constants `K_t`, from cube roots. -/
noncomputable def roundConstant (t : ℕ) : Word := rootBits 3 t

/-- A test by the primes up to 17, right for numbers below 18². -/
def passesTrial (n : ℕ) : Bool :=
  2 ≤ n && [2, 3, 5, 7, 11, 13, 17].all fun d => n % d != 0 || n == d

/-- INTERNAL: a composite number below 18² has a factor below 18. -/
theorem passesTrial_iff {n : ℕ} (hn : n < 324) : passesTrial n = true ↔ n.Prime := by
  unfold passesTrial
  rw [Bool.and_eq_true, decide_eq_true_eq, List.all_eq_true]
  constructor
  · rintro ⟨htwo, htrial⟩
    by_contra hprime
    have hsq := Nat.minFac_sq_le_self (by omega) hprime
    have hlt : n.minFac < 18 := by nlinarith
    have hmin : n.minFac.Prime := Nat.minFac_prime (by omega)
    have hmem : n.minFac ∈ [2, 3, 5, 7, 11, 13, 17] := by
      generalize n.minFac = d at hlt hmin
      interval_cases d <;> first | decide | exact absurd hmin (by norm_num)
    have hself : n = n.minFac := by
      simpa [Nat.mod_eq_zero_of_dvd n.minFac_dvd] using htrial _ hmem
    exact hprime (hself ▸ hmin)
  · intro hprime
    refine ⟨hprime.two_le, fun d hd => ?_⟩
    have hone : d ≠ 1 := by rintro rfl; simp at hd
    simp only [Bool.or_eq_true, bne_iff_ne, beq_iff_eq, ne_eq, ← Nat.dvd_iff_mod_eq_zero]
    rcases em (d ∣ n) with hdvd | hdvd
    · exact .inr ((hprime.eq_one_or_self_of_dvd d hdvd).resolve_left hone).symm
    · exact .inl hdvd

/-- The prime at an index, by the test. -/
theorem nth_prime_eq {p index : ℕ} (hp : p < 324) (hprime : passesTrial p = true)
    (hcount : (List.range p).countP passesTrial = index) : Nat.nth Nat.Prime index = p := by
  have hcongr : Nat.count Nat.Prime p = (List.range p).countP passesTrial := by
    apply List.countP_congr
    intro n hn
    rw [decide_eq_true_eq, passesTrial_iff (lt_trans (List.mem_range.mp hn) hp)]
  rw [← hcount, ← hcongr, Nat.nth_count ((passesTrial_iff hp).mp hprime)]

/-- A constant from bounds on the root. -/
theorem rootBits_eq {k index p root : ℕ} (hp : Nat.nth Nat.Prime index = p)
    (hle : root ^ k ≤ p * 2 ^ (32 * k)) (hlt : p * 2 ^ (32 * k) < (root + 1) ^ k) :
    rootBits k index = BitVec.ofNat 32 root := by
  unfold rootBits
  rw [hp, Nat.nthRoot_eq_of_le_of_lt hle hlt]

/-! ## Functions -/

/-- SHR is the shift, ROTR the rotation of a bit vector. -/
def ch (x y z : Word) : Word := (x &&& y) ^^^ (~~~x &&& z)

def maj (x y z : Word) : Word := (x &&& y) ^^^ (x &&& z) ^^^ (y &&& z)

/-- `Σ₀` -/
def upperSigma0 (x : Word) : Word := x.rotateRight 2 ^^^ x.rotateRight 13 ^^^ x.rotateRight 22

/-- `Σ₁` -/
def upperSigma1 (x : Word) : Word := x.rotateRight 6 ^^^ x.rotateRight 11 ^^^ x.rotateRight 25

/-- `σ₀` -/
def lowerSigma0 (x : Word) : Word := x.rotateRight 7 ^^^ x.rotateRight 18 ^^^ x >>> 3

/-- `σ₁` -/
def lowerSigma1 (x : Word) : Word := x.rotateRight 17 ^^^ x.rotateRight 19 ^^^ x >>> 10

/-! ## Compression -/

/-- The eight words of a hash value, and the working variables. -/
@[ext] structure Words where
  (a b c d e f g h : Word)

/-- The words of a hash value, first to last. -/
def Words.toList (v : Words) : List Word := [v.a, v.b, v.c, v.d, v.e, v.f, v.g, v.h]

/-- Word by word. -/
def Words.add (v w : Words) : Words :=
  ⟨v.a + w.a, v.b + w.b, v.c + w.c, v.d + w.d, v.e + w.e, v.f + w.f, v.g + w.g, v.h + w.h⟩

/-- The initial hash value, from square roots. -/
noncomputable def initialHash : Words :=
  ⟨rootBits 2 0, rootBits 2 1, rootBits 2 2, rootBits 2 3, rootBits 2 4, rootBits 2 5,
    rootBits 2 6, rootBits 2 7⟩

/-- The word of a block at an index, big-endian. -/
def messageWord (block : List UInt8) (t : ℕ) : Word :=
  BitVec.ofNat 32 (BigEndian.decode ((block.drop (4 * t)).take 4))

/-- The message schedule `W_t`. -/
def schedule (block : List UInt8) (t : ℕ) : Word :=
  if t < 16 then messageWord block t
  else lowerSigma1 (schedule block (t - 2)) + schedule block (t - 7) +
    lowerSigma0 (schedule block (t - 15)) + schedule block (t - 16)

/-- One step on the working variables, with `T₁` and `T₂`. -/
def step (v : Words) (constant word : Word) : Words :=
  let t₁ := v.h + upperSigma1 v.e + ch v.e v.f v.g + constant + word
  let t₂ := upperSigma0 v.a + maj v.a v.b v.c
  { a := t₁ + t₂, b := v.a, c := v.b, d := v.c, e := v.d + t₁, f := v.e, g := v.f, h := v.g }

/-- The next hash value, from a block of 64 bytes. -/
noncomputable def compress (hash : Words) (block : List UInt8) : Words :=
  ((List.range 64).foldl (fun v t => step v (roundConstant t) (schedule block t)) hash).add hash

/-! ## Padding and digest -/

/-- INTERNAL: zeros can fill a block up to its length field. -/
theorem exists_zeros (length : ℕ) : ∃ zeros, (length + 1 + zeros) % 64 = 56 :=
  ⟨(119 - length % 64) % 64, by omega⟩

/-- The least number of zero bytes that leaves eight bytes in the last block. -/
def zeros (length : ℕ) : ℕ := Nat.find (exists_zeros length)

/-- A marker bit, zeros, and the length in bits as 64 bits. -/
def padding (length : ℕ) : List UInt8 :=
  0x80 :: (List.replicate (zeros length) 0 ++ BigEndian.encode 8 (8 * length))

/-- **The digest**: the compression folded over the blocks of the padded message. -/
noncomputable def sha256 (message : List UInt8) : List UInt8 :=
  ((blocks 64 (message ++ padding message.length)).foldl compress initialHash).toList.flatMap
    fun word => BigEndian.encode 4 word.toNat

/-- The zeros in closed form. -/
theorem zeros_eq (length : ℕ) : zeros length = (119 - length % 64) % 64 := by
  apply (Nat.find_eq_iff _).mpr
  constructor
  · omega
  · intro n hn
    omega

theorem schedule_lt {block : List UInt8} {t : ℕ} (h : t < 16) :
    schedule block t = messageWord block t := by
  rw [schedule, if_pos h]

theorem schedule_ge {block : List UInt8} {t : ℕ} (h : 16 ≤ t) :
    schedule block t = lowerSigma1 (schedule block (t - 2)) + schedule block (t - 7) +
      lowerSigma0 (schedule block (t - 15)) + schedule block (t - 16) := by
  rw [schedule, if_neg (by omega)]

end Tickline.Library.Sha2
