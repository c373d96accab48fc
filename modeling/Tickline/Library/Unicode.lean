import Tickline.Library.Json

/-!
# Texts in bytes and in code units

A decoder of UTF-8 that goes on behind bytes which are not part of a character: what it reads is
a list of runes, `none` for each such byte.  Bytes are valid when there is none, which is when they
are the bytes of a text (`valid_iff`).  Replacing the others by U+FFFD keeps exactly the valid
bytes (`coerce_eq_iff`).

The bytes of a character are one that starts it and then continuation bytes
(`utf8EncodeChar_cases`), so runes may be read apart in front of every other byte
(`runes_append`).

The code units of a text are read back in the same way (`chars_units`).
-/

set_option autoImplicit false

namespace Tickline.Library.Unicode

open Tickline.Library.Json (utf16 units)

/-! ## UTF-8 -/

/-- The UTF-8 bytes of a text. -/
def encode (text : List Char) : List UInt8 := text.flatMap String.utf8EncodeChar

/-- The character that bytes start with. -/
def first? (bytes : List UInt8) : Option Char := (bytes.take 4).toByteArray.utf8DecodeChar? 0

/-- The runes of bytes, behind so many that are part of the rune before. -/
def runesBehind : ℕ → List UInt8 → List (Option Char)
  | _, [] => []
  | skipped + 1, _ :: bytes => runesBehind skipped bytes
  | 0, byte :: bytes =>
    match first? (byte :: bytes) with
    | some c => some c :: runesBehind (c.utf8Size - 1) bytes
    | none => none :: runesBehind 0 bytes

/-- The runes of bytes. -/
def runes (bytes : List UInt8) : List (Option Char) := runesBehind 0 bytes

/-- U+FFFD, which stands for what cannot be decoded. -/
def replacement : Char := Char.ofNat 0xfffd

/-- The text of bytes, with a replacement for each byte that is not part of a character. -/
def decode (bytes : List UInt8) : List Char := (runes bytes).map (·.getD replacement)

/-- The bytes of that text. -/
def coerce (bytes : List UInt8) : List UInt8 := encode (decode bytes)

/-- Every byte is part of a character. -/
def Valid (bytes : List UInt8) : Prop := none ∉ runes bytes

instance (bytes : List UInt8) : Decidable (Valid bytes) :=
  inferInstanceAs (Decidable (none ∉ runes bytes))

@[simp] theorem encode_nil : encode [] = [] := rfl

@[simp] theorem encode_cons (c : Char) (text : List Char) :
    encode (c :: text) = String.utf8EncodeChar c ++ encode text := rfl

/-- Bytes that are skipped. -/
theorem runesBehind_append (front bytes : List UInt8) :
    runesBehind front.length (front ++ bytes) = runes bytes := by
  induction front with
  | nil => rfl
  | cons byte front ih => exact ih

/-- A character is read behind its bytes. -/
theorem first?_utf8EncodeChar (c : Char) (bytes : List UInt8) :
    first? (String.utf8EncodeChar c ++ bytes) = some c := by
  have hsize : (String.utf8EncodeChar c).length ≤ 4 := by
    rw [String.length_utf8EncodeChar]
    exact c.utf8Size_le_four
  rw [first?, List.take_append, List.take_of_length_le hsize, List.toByteArray_append]
  exact ByteArray.utf8DecodeChar?_utf8EncodeChar_append

/-- A character that is read has its bytes there. -/
theorem eq_of_first? {bytes : List UInt8} {c : Char} (h : first? bytes = some c) :
    ∃ rest, bytes = String.utf8EncodeChar c ++ rest := by
  obtain ⟨tail, htail⟩ := ByteArray.exists_of_utf8DecodeChar?_eq_some h
  refine ⟨tail.data.toList ++ bytes.drop 4, ?_⟩
  have htake : bytes.take 4 = String.utf8EncodeChar c ++ tail.data.toList := by
    have hdata := congrArg (fun array => array.data.toList) htail
    simpa using hdata
  rw [← List.append_assoc, ← htake, List.take_append_drop]

theorem runes_utf8EncodeChar (c : Char) (bytes : List UInt8) :
    runes (String.utf8EncodeChar c ++ bytes) = some c :: runes bytes := by
  have hfirst := first?_utf8EncodeChar c bytes
  have hlength := String.length_utf8EncodeChar c
  obtain ⟨byte, front, hbytes⟩ : ∃ byte front, String.utf8EncodeChar c = byte :: front :=
    List.exists_cons_of_length_pos (hlength ▸ c.utf8Size_pos)
  rw [hbytes] at hfirst hlength ⊢
  have hfront : c.utf8Size - 1 = front.length := by
    rw [← hlength]
    rfl
  show runesBehind 0 (byte :: (front ++ bytes)) = _
  rw [List.cons_append] at hfirst
  simp only [runesBehind, hfirst, hfront, runesBehind_append]

/-- The runes of the bytes of a text. -/
theorem runes_encode (text : List Char) : runes (encode text) = text.map some := by
  induction text with
  | nil => rfl
  | cons c text ih => rw [encode_cons, runes_utf8EncodeChar, ih, List.map_cons]

/-- **A text is decoded from its bytes.** -/
theorem decode_encode (text : List Char) : decode (encode text) = text := by
  rw [decode, runes_encode, List.map_map]
  exact List.map_id text

/-- The bytes are those of their characters and those that are part of none. -/
theorem length_add_count (bytes : List UInt8) :
    (coerce bytes).length = bytes.length + 2 * (runes bytes).count none := by
  induction hn : bytes.length using Nat.strongRecOn generalizing bytes with
  | ind n ih =>
    cases bytes with
    | nil => exact hn ▸ rfl
    | cons byte bytes =>
      cases hfirst : first? (byte :: bytes) with
      | some c =>
        obtain ⟨rest, hrest⟩ := eq_of_first? hfirst
        have hlength := congrArg List.length hrest
        rw [hn, List.length_append] at hlength
        have hpos : 0 < (String.utf8EncodeChar c).length :=
          String.length_utf8EncodeChar c ▸ c.utf8Size_pos
        have hih := ih rest.length (by omega) rest rfl
        rw [hrest, coerce, decode, runes_utf8EncodeChar, List.map_cons, Option.getD_some,
          encode_cons, List.length_append, List.count_cons_of_ne (by simp)]
        show (String.utf8EncodeChar c).length + (coerce rest).length = _
        omega
      | none =>
        have hrunes : runes (byte :: bytes) = none :: runes bytes := by
          simp only [runes, runesBehind, hfirst]
        have hih := ih bytes.length (by rw [← hn]; exact Nat.lt_succ_self _) bytes rfl
        have hthree : (String.utf8EncodeChar replacement).length = 3 := by decide
        rw [coerce, decode, hrunes, List.map_cons, Option.getD_none, encode_cons,
          List.length_append, List.count_cons_self, hthree]
        show 3 + (coerce bytes).length = _
        rw [hih, ← hn, List.length_cons]
        omega

/-- **Valid bytes are those of a text.** -/
theorem valid_iff {bytes : List UInt8} : Valid bytes ↔ ∃ text, bytes = encode text := by
  constructor
  · intro hvalid
    induction hn : bytes.length using Nat.strongRecOn generalizing bytes with
    | ind n ih =>
      cases bytes with
      | nil => exact ⟨[], rfl⟩
      | cons byte bytes =>
        cases hfirst : first? (byte :: bytes) with
        | none =>
          refine absurd ?_ hvalid
          simp only [runes, runesBehind, hfirst, List.mem_cons_self]
        | some c =>
          obtain ⟨rest, hrest⟩ := eq_of_first? hfirst
          have hlength := congrArg List.length hrest
          rw [hn, List.length_append] at hlength
          have hpos : 0 < (String.utf8EncodeChar c).length :=
            String.length_utf8EncodeChar c ▸ c.utf8Size_pos
          rw [Valid, hrest, runes_utf8EncodeChar] at hvalid
          obtain ⟨text, htext⟩ := ih rest.length (by omega)
            (fun hmem => hvalid (List.mem_cons_of_mem _ hmem)) rfl
          exact ⟨c :: text, by rw [hrest, htext, encode_cons]⟩
  · rintro ⟨text, rfl⟩
    rw [Valid, runes_encode]
    simp

/-- **The bytes that are kept are the valid ones.** -/
theorem coerce_eq_iff {bytes : List UInt8} : coerce bytes = bytes ↔ Valid bytes := by
  constructor
  · intro heq
    have hcount := length_add_count bytes
    rw [heq] at hcount
    exact List.count_eq_zero.mp (by omega)
  · intro hvalid
    obtain ⟨text, rfl⟩ := valid_iff.mp hvalid
    rw [coerce, decode_encode]

/-! ## The bytes of a character -/

/-- A byte that continues a character. -/
def IsContinuation (b : UInt8) : Prop := 0x80 ≤ b ∧ b < 0xc0

instance (b : UInt8) : Decidable (IsContinuation b) :=
  inferInstanceAs (Decidable (0x80 ≤ b ∧ b < 0xc0))

/-- A character is one ASCII byte, or a byte that starts it with continuation bytes behind. -/
theorem utf8EncodeChar_cases (c : Char) :
    c.toNat < 0x80 ∧ String.utf8EncodeChar c = [UInt8.ofNat c.toNat] ∨
      0x80 ≤ c.toNat ∧ ∃ first rest, String.utf8EncodeChar c = first :: rest ∧ 0xc0 ≤ first ∧
        rest ≠ [] ∧ ∀ b ∈ rest, IsContinuation b := by
  have hcontinuation : ∀ n, IsContinuation (UInt8.ofNat (n % 0x40 + 0x80)) := by
    intro n
    have hvalue : (UInt8.ofNat (n % 0x40 + 0x80)).toNat = n % 0x40 + 0x80 :=
      UInt8.toNat_ofNat_of_lt' (by rw [UInt8.size]; omega)
    constructor
    · simp only [UInt8.le_iff_toNat_le, hvalue, UInt8.reduceToNat]
      omega
    · simp only [UInt8.lt_iff_toNat_lt, hvalue, UInt8.reduceToNat]
      omega
  have hstart : ∀ n, 0xc0 ≤ n → n < 0x100 → (0xc0 : UInt8) ≤ UInt8.ofNat n := by
    intro n hlow hhigh
    rw [UInt8.le_iff_toNat_le, UInt8.toNat_ofNat_of_lt' (by rw [UInt8.size]; exact hhigh)]
    exact hlow
  have hvalid := c.valid
  unfold String.utf8EncodeChar
  dsimp only
  split_ifs with hone htwo hthree
  · exact Or.inl ⟨Nat.lt_succ_of_le hone, rfl⟩
  · refine Or.inr ⟨Nat.lt_of_not_le hone, _, _, rfl, hstart _ (by omega) (by omega), by simp, ?_⟩
    simpa using hcontinuation _
  · refine Or.inr ⟨Nat.lt_of_not_le hone, _, _, rfl, hstart _ (by omega) (by omega), by simp, ?_⟩
    simp only [List.forall_mem_cons]
    exact ⟨hcontinuation _, hcontinuation _, by simp⟩
  · refine Or.inr ⟨Nat.lt_of_not_le hone, _, _, rfl, hstart _ (by omega) (by omega), by simp, ?_⟩
    simp only [List.forall_mem_cons]
    exact ⟨hcontinuation _, hcontinuation _, hcontinuation _, by simp⟩

theorem toNat_ofNat_byte (b : UInt8) : (Char.ofNat b.toNat).toNat = b.toNat := by
  have hvalid : b.toNat.isValidChar := Or.inl (b.toNat_lt.trans (by decide))
  rw [Char.ofNat, dif_pos hvalid]
  rfl

/-- An ASCII byte is a character. -/
theorem utf8EncodeChar_ascii {b : UInt8} (h : b < 0x80) :
    String.utf8EncodeChar (Char.ofNat b.toNat) = [b] := by
  have hlt : b.toNat < 0x80 := h
  have hnat : (Char.ofNat b.toNat).toNat = b.toNat := toNat_ofNat_byte b
  rcases utf8EncodeChar_cases (Char.ofNat b.toNat) with ⟨-, hbytes⟩ | ⟨hlong, -⟩
  · rw [hbytes, hnat, UInt8.ofNat_toNat]
  · omega

/-- A continuation byte starts no character. -/
theorem first?_continuation {b : UInt8} (h : IsContinuation b) (bytes : List UInt8) :
    first? (b :: bytes) = none := by
  cases hfirst : first? (b :: bytes) with
  | none => rfl
  | some c =>
    obtain ⟨rest, hrest⟩ := eq_of_first? hfirst
    rcases utf8EncodeChar_cases c with ⟨hsmall, hbytes⟩ | ⟨-, first, tail, hbytes, hstart, -⟩
    · rw [hbytes, List.singleton_append] at hrest
      have hlow := h.1
      rw [(List.cons.inj hrest).1, UInt8.le_iff_toNat_le,
        UInt8.toNat_ofNat_of_lt' (by rw [UInt8.size]; omega)] at hlow
      exact absurd hlow (Nat.not_le.mpr hsmall)
    · rw [hbytes, List.cons_append] at hrest
      rw [← (List.cons.inj hrest).1] at hstart
      exact absurd h.2 (UInt8.not_lt.mpr hstart)

/-- Where no character starts, one byte is read. -/
theorem runes_invalid {byte : UInt8} {bytes : List UInt8} (h : first? (byte :: bytes) = none) :
    runes (byte :: bytes) = none :: runes bytes := by
  simp only [runes, runesBehind, h]

/-- Bytes are read rune by rune. -/
theorem runesInduction {motive : List UInt8 → Prop} (nil : motive [])
    (char : ∀ c rest, motive rest → motive (String.utf8EncodeChar c ++ rest))
    (invalid : ∀ byte bytes, first? (byte :: bytes) = none → motive bytes →
      motive (byte :: bytes)) (bytes : List UInt8) : motive bytes := by
  induction hn : bytes.length using Nat.strongRecOn generalizing bytes with
  | ind n ih =>
    cases bytes with
    | nil => exact nil
    | cons byte bytes =>
      cases hfirst : first? (byte :: bytes) with
      | none => exact invalid byte bytes hfirst (ih bytes.length (by rw [← hn]; simp) bytes rfl)
      | some c =>
        obtain ⟨rest, hrest⟩ := eq_of_first? hfirst
        have hlength := congrArg List.length hrest
        rw [hn, List.length_append, String.length_utf8EncodeChar] at hlength
        have hpos := c.utf8Size_pos
        rw [hrest]
        exact char c rest (ih rest.length (by omega) rest rfl)

/-- **Runes are read apart** in front of a byte that continues no character. -/
theorem runes_append (front : List UInt8) {b : UInt8} (hb : ¬ IsContinuation b)
    (bytes : List UInt8) : runes (front ++ b :: bytes) = runes front ++ runes (b :: bytes) := by
  induction front using runesInduction with
  | nil => rfl
  | char c rest ih =>
    rw [List.append_assoc, runes_utf8EncodeChar, ih, runes_utf8EncodeChar, List.cons_append]
  | invalid byte front hfirst ih =>
    have hwhole : first? (byte :: (front ++ b :: bytes)) = none := by
      cases hsome : first? (byte :: (front ++ b :: bytes)) with
      | none => rfl
      | some c =>
        -- A character would end in front of the byte, or have it as a continuation byte.
        obtain ⟨rest, hrest⟩ := eq_of_first? hsome
        rw [← List.cons_append] at hrest
        rcases List.append_eq_append_iff.mp hrest with ⟨more, hmore, hbytes⟩ | ⟨more, hmore, -⟩
        · cases more with
          | nil =>
            rw [List.append_nil] at hmore
            have hread := first?_utf8EncodeChar c []
            rw [List.append_nil, hmore, hfirst] at hread
            cases hread
          | cons next more =>
            rw [List.cons_append] at hbytes
            obtain rfl := (List.cons.inj hbytes).1
            rcases utf8EncodeChar_cases c with ⟨-, hone⟩ | ⟨-, first, tail, hlong, -, -, htail⟩
            · rw [hone] at hmore
              cases front <;> simp at hmore
            · rw [hlong, List.cons_append] at hmore
              exact absurd (htail _ (by rw [(List.cons.inj hmore).2]; simp)) hb
        · have hread := first?_utf8EncodeChar c more
          rw [← hmore, hfirst] at hread
          cases hread
    rw [List.cons_append, runes_invalid hwhole, ih, runes_invalid hfirst, List.cons_append]

/-- A character that is read from bytes has its own bytes in them. -/
theorem exists_of_mem_runes {bytes : List UInt8} {c : Char} (h : some c ∈ runes bytes) :
    ∃ front rest, bytes = front ++ String.utf8EncodeChar c ++ rest := by
  induction bytes using runesInduction with
  | nil => cases h
  | char d rest ih =>
    rw [runes_utf8EncodeChar] at h
    rcases List.mem_cons.mp h with heq | h
    · obtain rfl := Option.some.inj heq
      exact ⟨[], rest, by simp⟩
    · obtain ⟨front, behind, rfl⟩ := ih h
      exact ⟨String.utf8EncodeChar d ++ front, behind, by simp⟩
  | invalid byte bytes hfirst ih =>
    rw [runes_invalid hfirst] at h
    rcases List.mem_cons.mp h with heq | h
    · cases heq
    · obtain ⟨front, behind, rfl⟩ := ih h
      exact ⟨byte :: front, behind, by simp⟩

theorem encode_append (text more : List Char) :
    encode (text ++ more) = encode text ++ encode more :=
  List.flatMap_append

theorem valid_encode (text : List Char) : Valid (encode text) := valid_iff.mpr ⟨text, rfl⟩

theorem Valid.append {bytes more : List UInt8} (h : Valid bytes) (hmore : Valid more) :
    Valid (bytes ++ more) := by
  obtain ⟨text, rfl⟩ := valid_iff.mp h
  obtain ⟨other, rfl⟩ := valid_iff.mp hmore
  exact valid_iff.mpr ⟨text ++ other, (encode_append text other).symm⟩

/-- **The end of valid bytes is valid** where it begins between two characters. -/
theorem Valid.suffix_iff {front back : List UInt8} {b : UInt8} (h : Valid (front ++ b :: back)) :
    Valid (b :: back) ↔ ¬ IsContinuation b := by
  constructor
  · intro hvalid hb
    apply hvalid
    rw [runes_invalid (first?_continuation hb back)]
    exact List.mem_cons_self
  · intro hb hmem
    apply h
    rw [runes_append front hb]
    exact List.mem_append_right _ hmem

theorem valid_coerce (bytes : List UInt8) : Valid (coerce bytes) := valid_encode _

/-! ## UTF-16 -/

/-- The character of a code unit by itself. -/
def charOfUnit (unit : UInt16) : Char :=
  if 0xd800 ≤ unit ∧ unit < 0xe000 then replacement else Char.ofNat unit.toNat

/-- The text of code units, with a replacement for a surrogate without its partner. -/
def chars : List UInt16 → List Char
  | [] => []
  | [unit] => [charOfUnit unit]
  | high :: low :: rest =>
    if 0xd800 ≤ high ∧ high < 0xdc00 ∧ 0xdc00 ≤ low ∧ low < 0xe000 then
      Char.ofNat (0x10000 + (high.toNat - 0xd800) * 0x400 + (low.toNat - 0xdc00)) :: chars rest
    else charOfUnit high :: chars (low :: rest)

/-- INTERNAL: no character is a surrogate. -/
theorem not_surrogate (c : Char) : c.toNat < 0xd800 ∨ 0xdfff < c.toNat ∧ c.toNat < 0x110000 :=
  c.valid

/-- INTERNAL: a character is read from its code units. -/
theorem chars_utf16 (c : Char) (rest : List UInt16) :
    chars (utf16 c ++ rest) = c :: chars rest := by
  have hvalid := not_surrogate c
  unfold utf16
  split_ifs with hsmall
  · have hunit : (UInt16.ofNat c.toNat).toNat = c.toNat := UInt16.toNat_ofNat_of_lt' hsmall
    have hnot : ¬ (0xd800 ≤ UInt16.ofNat c.toNat ∧ UInt16.ofNat c.toNat < 0xe000) := by
      simp only [UInt16.le_iff_toNat_le, UInt16.lt_iff_toNat_lt, UInt16.reduceToNat, hunit]
      omega
    have hchar : charOfUnit (UInt16.ofNat c.toNat) = c := by
      rw [charOfUnit, if_neg hnot, hunit, Char.ofNat_toNat]
    cases rest with
    | nil => exact congrArg (· :: []) hchar
    | cons low rest =>
      show chars (UInt16.ofNat c.toNat :: low :: rest) = _
      rw [chars, if_neg, hchar]
      rintro ⟨hlow, hhigh, -⟩
      exact hnot ⟨hlow, UInt16.lt_trans hhigh (by decide)⟩
  · have hhigh : (UInt16.ofNat (0xd800 + (c.toNat - 0x10000) / 0x400)).toNat =
        0xd800 + (c.toNat - 0x10000) / 0x400 := UInt16.toNat_ofNat_of_lt' (by
      rw [UInt16.size]
      omega)
    have hlow : (UInt16.ofNat (0xdc00 + (c.toNat - 0x10000) % 0x400)).toNat =
        0xdc00 + (c.toNat - 0x10000) % 0x400 := UInt16.toNat_ofNat_of_lt' (by
      rw [UInt16.size]
      omega)
    have hpair : 0xd800 ≤ UInt16.ofNat (0xd800 + (c.toNat - 0x10000) / 0x400) ∧
        UInt16.ofNat (0xd800 + (c.toNat - 0x10000) / 0x400) < 0xdc00 ∧
        0xdc00 ≤ UInt16.ofNat (0xdc00 + (c.toNat - 0x10000) % 0x400) ∧
        UInt16.ofNat (0xdc00 + (c.toNat - 0x10000) % 0x400) < 0xe000 := by
      simp only [UInt16.le_iff_toNat_le, UInt16.lt_iff_toNat_lt, UInt16.reduceToNat, hhigh, hlow]
      omega
    have hvalue : 0x10000 + (0xd800 + (c.toNat - 0x10000) / 0x400 - 0xd800) * 0x400 +
        (0xdc00 + (c.toNat - 0x10000) % 0x400 - 0xdc00) = c.toNat := by
      omega
    rw [List.cons_append, List.cons_append, List.nil_append, chars, if_pos hpair, hhigh, hlow,
      hvalue, Char.ofNat_toNat]

/-- **A text is read from its code units.** -/
theorem chars_units (text : List Char) : chars (units text) = text := by
  induction text with
  | nil => rfl
  | cons c text ih =>
    show chars (utf16 c ++ units text) = _
    rw [chars_utf16, ih]

end Tickline.Library.Unicode
