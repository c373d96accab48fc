import Mathlib.Tactic.Linarith
import Mathlib.Tactic.Positivity
import Mathlib.Tactic.Ring

/-!
# Big-endian byte strings of naturals

`encode w n` is the `w`-byte big-endian form of `n`, and `decode` reads a byte string
back.  Encoding and decoding are inverse in both directions on strings of a fixed
width (`decode_encode_of_lt`, `encode_decode`), so a fixed-width field has exactly one
spelling.
-/

set_option autoImplicit false

namespace Tickline.Library.BigEndian

/-- The `w` big-endian bytes of `n`; what does not fit in `w` bytes is dropped. -/
def encode : ℕ → ℕ → List UInt8
  | 0, _ => []
  | w + 1, n => UInt8.ofNat (n / 256 ^ w) :: encode w n

/-- Read one more byte behind the ones already read. -/
def step (value : ℕ) (byte : UInt8) : ℕ := value * 256 + byte.toNat

/-- The natural a byte string spells, most significant byte first. -/
def decode (bytes : List UInt8) : ℕ := bytes.foldl step 0

@[simp] theorem length_encode (w n : ℕ) : (encode w n).length = w := by
  induction w with
  | zero => rfl
  | succ w ih => simp [encode, ih]

/-- Bytes already read move up by the width of the bytes still to come. -/
theorem foldl_step (bytes : List UInt8) (value : ℕ) :
    bytes.foldl step value = value * 256 ^ bytes.length + decode bytes := by
  induction bytes generalizing value with
  | nil => simp [decode]
  | cons b bytes ih =>
    have hz : decode (b :: bytes) = b.toNat * 256 ^ bytes.length + decode bytes := by
      rw [decode, List.foldl_cons, ih]
      simp [step]
    rw [List.foldl_cons, ih, hz, List.length_cons, pow_succ, step]
    ring

/-- INTERNAL: the first byte is the most significant one. -/
theorem decode_cons (b : UInt8) (bytes : List UInt8) :
    decode (b :: bytes) = b.toNat * 256 ^ bytes.length + decode bytes := by
  rw [decode, List.foldl_cons, foldl_step]
  simp [step]

/-- A byte string spells a number that fits its width. -/
theorem decode_lt (bytes : List UInt8) : decode bytes < 256 ^ bytes.length := by
  induction bytes with
  | nil => simp [decode]
  | cons b bytes ih =>
    rw [decode_cons, List.length_cons, pow_succ]
    have hb : b.toNat < 256 := b.toNat_lt
    nlinarith

/-- Only the low `w` bytes of a number reach its encoding. -/
theorem encode_mod (w n : ℕ) : encode w (n % 256 ^ w) = encode w n := by
  have aux : ∀ v m : ℕ, v ≤ w → encode v (m % 256 ^ w) = encode v m := by
    intro v
    induction v with
    | zero => intro m _; rfl
    | succ v ih =>
      intro m hv
      have hd : 256 ^ w = 256 ^ v * 256 * 256 ^ (w - v - 1) := by
        rw [← pow_succ, ← pow_add]
        congr 1
        omega
      have hbyte : UInt8.ofNat (m % 256 ^ w / 256 ^ v) = UInt8.ofNat (m / 256 ^ v) := by
        apply UInt8.toNat_inj.mp
        rw [UInt8.toNat_ofNat', UInt8.toNat_ofNat', hd, Nat.mul_assoc, Nat.mod_mul_right_div_self,
          Nat.mod_mod_of_dvd _ ⟨256 ^ (w - v - 1), by norm_num⟩]
      rw [encode, encode, hbyte, ih m (by omega)]
  exact aux w n le_rfl

/-- Decoding an encoding gives the number back, up to what the width drops. -/
theorem decode_encode (w n : ℕ) : decode (encode w n) = n % 256 ^ w := by
  induction w with
  | zero => simp [encode, decode, Nat.mod_one]
  | succ w ih =>
    rw [encode, decode_cons, length_encode, ih, UInt8.toNat_ofNat', pow_succ 256 w,
      Nat.mod_mul, show 2 ^ 8 = 256 from rfl]
    ring

/-- A number that fits the width is read back. -/
theorem decode_encode_of_lt {w n : ℕ} (h : n < 256 ^ w) : decode (encode w n) = n := by
  rw [decode_encode, Nat.mod_eq_of_lt h]

/-- Encoding what a byte string spells gives the byte string back. -/
theorem encode_decode (bytes : List UInt8) : encode bytes.length (decode bytes) = bytes := by
  induction bytes with
  | nil => rfl
  | cons b bytes ih =>
    have hlt := decode_lt bytes
    have hdiv : decode (b :: bytes) / 256 ^ bytes.length = b.toNat := by
      rw [decode_cons, Nat.mul_comm, Nat.mul_add_div (by positivity), Nat.div_eq_of_lt hlt,
        Nat.add_zero]
    have hmod : decode (b :: bytes) % 256 ^ bytes.length = decode bytes := by
      rw [decode_cons, Nat.add_comm, Nat.add_mul_mod_self_right, Nat.mod_eq_of_lt hlt]
    rw [List.length_cons, encode, hdiv, UInt8.ofNat_toNat, ← encode_mod, hmod, ih]

end Tickline.Library.BigEndian
