import Tickline.Model.Console

/-!
# What a terminal is given

A stage writes bytes, and the console shows what is left of them.  The loop that keeps bytes is
read here without its fuel (`kept_byte`, `kept_escape`), and escape sequences by their grammar
instead of the functions that pass over them (`EscapeSequence`, `consume_sequence`,
`consume_cases`).  So every byte that is kept stands behind whole escape sequences and other bytes
(`exists_of_kept`).

What is shown is valid, and its control characters are newlines and the ones from U+0080 to
U+009F.  Those are two bytes, of which the loop drops neither, and they are shown exactly where
the bytes of one come together behind what the loop drops (`terminal_output_inert`).
-/

set_option autoImplicit false

namespace Tickline.Analysis

open Tickline.Library Tickline.Model
open Tickline.Model.Console

/-! ## Escape sequences -/

/-- The bytes of an escape sequence behind its escape byte. -/
inductive EscapeSequence : List UInt8 → Prop
  | control {parameters : List UInt8} {last : UInt8}
      (hparameters : ∀ b ∈ parameters, ¬ (0x40 ≤ b ∧ b ≤ 0x7e))
      (hlast : 0x40 ≤ last ∧ last ≤ 0x7e) :
      EscapeSequence (GoString.byte '[' :: (parameters ++ [last]))
  | string {start : UInt8} {text stop : List UInt8}
      (hstart : start ∈
        [GoString.byte ']', GoString.byte 'P', GoString.byte '^', GoString.byte '_'])
      (hbell : 0x07 ∉ text) (hopen : ¬ [0x1b, GoString.byte '\\'] <:+: text)
      (hstop : stop ∈ [[0x07], [0x1b, GoString.byte '\\']]) :
      EscapeSequence (start :: (text ++ stop))
  | single {b : UInt8} (h : b ∉ [GoString.byte '[', GoString.byte ']', GoString.byte 'P',
      GoString.byte '^', GoString.byte '_']) : EscapeSequence [b]

theorem consumeCSI_append {parameters : List UInt8} {last : UInt8}
    (hparameters : ∀ b ∈ parameters, ¬ (0x40 ≤ b ∧ b ≤ 0x7e)) (hlast : 0x40 ≤ last ∧ last ≤ 0x7e)
    (rest : List UInt8) : consumeCSI (parameters ++ last :: rest) = rest := by
  induction parameters with
  | nil => exact if_pos hlast
  | cons b parameters ih =>
    rw [List.forall_mem_cons] at hparameters
    rw [List.cons_append, consumeCSI, if_neg hparameters.1]
    exact ih hparameters.2

theorem consumeCSI_cases (data : List UInt8) :
    consumeCSI data = [] ∨ ∃ parameters last, (∀ b ∈ parameters, ¬ (0x40 ≤ b ∧ b ≤ 0x7e)) ∧
      (0x40 ≤ last ∧ last ≤ 0x7e) ∧ data = parameters ++ last :: consumeCSI data := by
  induction data with
  | nil => exact Or.inl rfl
  | cons b data ih =>
    rw [consumeCSI]
    split_ifs with hlast
    · exact Or.inr ⟨[], b, by simp, hlast, rfl⟩
    · rcases ih with hnil | ⟨parameters, last, hparameters, hlast', hdata⟩
      · exact Or.inl hnil
      · refine Or.inr ⟨b :: parameters, last, List.forall_mem_cons.mpr ⟨hlast, hparameters⟩,
          hlast', ?_⟩
        rw [List.cons_append, ← hdata]

theorem consumeStringSequence_append {text stop : List UInt8} (hbell : 0x07 ∉ text)
    (hopen : ¬ [0x1b, GoString.byte '\\'] <:+: text)
    (hstop : stop ∈ [[0x07], [0x1b, GoString.byte '\\']]) (rest : List UInt8) :
    consumeStringSequence (text ++ (stop ++ rest)) = rest := by
  induction text with
  | nil =>
    simp only [List.mem_cons, List.not_mem_nil, or_false] at hstop
    rcases hstop with rfl | rfl
    · rfl
    · rfl
  | cons b text ih =>
    rw [List.mem_cons, not_or] at hbell
    have hrest : ¬ [0x1b, GoString.byte '\\'] <:+: text := fun h =>
      hopen (h.trans (List.suffix_cons b text).isInfix)
    have hnot : ¬ (b = 0x1b ∧ (text ++ (stop ++ rest)).head? = some (GoString.byte '\\')) := by
      rintro ⟨rfl, hhead⟩
      cases text with
      | nil =>
        simp only [List.mem_cons, List.not_mem_nil, or_false] at hstop
        rcases hstop with rfl | rfl
        · exact absurd hhead (by simp [GoString.byte])
        · exact absurd hhead (by simp [GoString.byte])
      | cons next text =>
        simp only [List.cons_append, List.head?_cons, Option.some.injEq] at hhead
        subst hhead
        exact hopen ⟨[], text, rfl⟩
    rw [List.cons_append, consumeStringSequence, if_neg (Ne.symm hbell.1), if_neg hnot]
    exact ih hbell.2 hrest

theorem consumeStringSequence_cases (data : List UInt8) :
    consumeStringSequence data = [] ∨ ∃ text stop, 0x07 ∉ text ∧
      ¬ [0x1b, GoString.byte '\\'] <:+: text ∧ stop ∈ [[0x07], [0x1b, GoString.byte '\\']] ∧
        data = text ++ (stop ++ consumeStringSequence data) := by
  induction data with
  | nil => exact Or.inl rfl
  | cons b data ih =>
    rw [consumeStringSequence]
    split_ifs with hbell hescape
    · exact Or.inr ⟨[], [0x07], by simp, by simp, by simp, by rw [hbell]; rfl⟩
    · refine Or.inr ⟨[], [0x1b, GoString.byte '\\'], by simp, by simp, by simp, ?_⟩
      obtain ⟨rfl, hhead⟩ := hescape
      cases data with
      | nil => cases hhead
      | cons next data =>
        obtain rfl := Option.some.inj hhead
        rfl
    · rcases ih with hnil | ⟨text, stop, htext, hopen, hstop, hdata⟩
      · exact Or.inl hnil
      · refine Or.inr ⟨b :: text, stop, ?_, ?_, hstop, ?_⟩
        · simpa [htext] using Ne.symm hbell
        · intro hpair
          rcases List.infix_cons_iff.mp hpair with hprefix | hpair
          · obtain ⟨more, hmore⟩ := hprefix
            obtain ⟨rfl, rfl⟩ := List.cons.inj hmore
            apply hescape
            exact ⟨rfl, by rw [hdata]; rfl⟩
          · exact hopen hpair
        · rw [List.cons_append, ← hdata]

/-- An escape sequence is passed over, whatever follows it. -/
theorem consume_sequence {body : List UInt8} (h : EscapeSequence body) (rest : List UInt8) :
    consumeEscapeSequence (body ++ rest) = rest := by
  cases h with
  | control hparameters hlast =>
    rw [List.cons_append, List.append_assoc, consumeEscapeSequence, if_pos rfl]
    exact consumeCSI_append hparameters hlast rest
  | @string start text stop hstart hbell hopen hstop =>
    have hnot : start ≠ GoString.byte '[' := by
      rintro rfl
      exact absurd hstart (by decide)
    rw [List.cons_append, List.append_assoc, consumeEscapeSequence, if_neg hnot, if_pos hstart]
    exact consumeStringSequence_append hbell hopen hstop rest
  | single hb =>
    rw [List.mem_cons, not_or] at hb
    rw [List.cons_append, consumeEscapeSequence, if_neg hb.1, if_neg hb.2]
    rfl

/-- An escape byte takes an escape sequence with it, or all that follows. -/
theorem consume_cases (data : List UInt8) : consumeEscapeSequence data = [] ∨
    ∃ body, EscapeSequence body ∧ data = body ++ consumeEscapeSequence data := by
  cases data with
  | nil => exact Or.inl rfl
  | cons b data =>
    rw [consumeEscapeSequence]
    split_ifs with hcontrol hstring
    · rcases consumeCSI_cases data with hnil | ⟨parameters, last, hparameters, hlast, hdata⟩
      · exact Or.inl hnil
      · refine Or.inr ⟨_, .control hparameters hlast, ?_⟩
        rw [List.cons_append, List.append_assoc, List.singleton_append, ← hdata, hcontrol]
    · rcases consumeStringSequence_cases data with hnil | ⟨text, stop, hbell, hopen, hstop, hdata⟩
      · exact Or.inl hnil
      · refine Or.inr ⟨_, .string hstring hbell hopen hstop, ?_⟩
        rw [List.cons_append, List.append_assoc, ← hdata]
    · exact Or.inr ⟨[b], .single (List.not_mem_cons_of_ne_of_not_mem hcontrol hstring), rfl⟩

theorem length_consume_le (data : List UInt8) :
    (consumeEscapeSequence data).length ≤ data.length := by
  rcases consume_cases data with hnil | ⟨body, -, hdata⟩
  · rw [hnil]
    exact Nat.zero_le _
  · have hlength := congrArg List.length hdata
    rw [List.length_append] at hlength
    omega

/-! ## The bytes that are kept -/

/-- The bytes that one byte is shown as. -/
def shownBytes (b : UInt8) : List UInt8 :=
  if b = 0x0d then [0x0a]
  else if b = 0x09 then [0x20, 0x20, 0x20, 0x20]
  else if b = 0x0a then [b]
  else if b < 0x20 ∨ b = 0x7f then []
  else [b]

/-- What is read behind a byte: a carriage return takes a newline with it. -/
def behind (b : UInt8) (data : List UInt8) : List UInt8 :=
  if b = 0x0d ∧ data.head? = some 0x0a then data.tail else data

/-- The bytes that are kept. -/
def kept (data : List UInt8) : List UInt8 := keptBytes data.length data

theorem length_behind_le (b : UInt8) (data : List UInt8) :
    (behind b data).length ≤ data.length := by
  unfold behind
  split_ifs
  · rw [List.length_tail]
    exact Nat.sub_le _ _
  · exact Nat.le_refl _

theorem keptBytes_escape (fuel : ℕ) (data : List UInt8) :
    keptBytes (fuel + 1) (0x1b :: data) = keptBytes fuel (consumeEscapeSequence data) := rfl

theorem keptBytes_byte (fuel : ℕ) {b : UInt8} (hb : b ≠ 0x1b) (data : List UInt8) :
    keptBytes (fuel + 1) (b :: data) = shownBytes b ++ keptBytes fuel (behind b data) := by
  rw [keptBytes, if_neg hb, shownBytes]
  by_cases hreturn : b = 0x0d
  · rw [if_pos hreturn, if_pos hreturn, behind]
    simp only [hreturn, true_and, List.singleton_append]
  · have hstay : behind b data = data := if_neg fun h => hreturn h.1
    rw [if_neg hreturn, if_neg hreturn, hstay]
    split_ifs <;> rfl

theorem keptBytes_fuel (fuel : ℕ) (data : List UInt8) (h : data.length ≤ fuel) :
    keptBytes fuel data = kept data := by
  unfold kept
  induction hn : data.length using Nat.strongRecOn generalizing data fuel with
  | ind n ih =>
    cases data with
    | nil =>
      subst hn
      cases fuel <;> rfl
    | cons b data =>
      obtain ⟨fuel, rfl⟩ : ∃ less, fuel = less + 1 :=
        Nat.exists_eq_succ_of_ne_zero (by rw [List.length_cons] at h; omega)
      rw [List.length_cons] at h hn
      subst hn
      have hsame : ∀ rest : List UInt8, rest.length ≤ data.length →
          keptBytes fuel rest = keptBytes data.length rest := by
        intro rest hrest
        rw [ih rest.length (by omega) fuel rest (by omega) rfl,
          ← ih rest.length (by omega) data.length rest hrest rfl]
      by_cases hb : b = 0x1b
      · subst hb
        rw [keptBytes_escape, keptBytes_escape, hsame _ (length_consume_le data)]
      · rw [keptBytes_byte _ hb, keptBytes_byte _ hb, hsame _ (length_behind_le b data)]

@[simp] theorem kept_nil : kept [] = [] := rfl

@[simp] theorem kept_escape (data : List UInt8) :
    kept (0x1b :: data) = kept (consumeEscapeSequence data) := by
  rw [← keptBytes_fuel data.length _ (length_consume_le data)]
  rfl

theorem kept_byte {b : UInt8} (hb : b ≠ 0x1b) (data : List UInt8) :
    kept (b :: data) = shownBytes b ++ kept (behind b data) := by
  rw [← keptBytes_fuel data.length _ (length_behind_le b data), ← keptBytes_byte _ hb]
  rfl

/-- Bytes are kept one after the other, or with the sequence they belong to. -/
theorem keptInduction {motive : List UInt8 → Prop} (nil : motive [])
    (escape : ∀ data, motive (consumeEscapeSequence data) → motive (0x1b :: data))
    (byte : ∀ b data, b ≠ 0x1b → motive (behind b data) → motive (b :: data))
    (data : List UInt8) : motive data := by
  induction hn : data.length using Nat.strongRecOn generalizing data with
  | ind n ih =>
    subst hn
    cases data with
    | nil => exact nil
    | cons b data =>
      have hless : ∀ rest : List UInt8, rest.length ≤ data.length → motive rest := fun rest hrest =>
        ih rest.length (Nat.lt_succ_of_le hrest) rest rfl
      by_cases hb : b = 0x1b
      · subst hb
        exact escape data (hless _ (length_consume_le data))
      · exact byte b data hb (hless _ (length_behind_le b data))

/-- Whole escape sequences, and other bytes of a kind. -/
inductive Complete (kind : UInt8 → Prop) : List UInt8 → Prop
  | nil : Complete kind []
  | byte {b : UInt8} {bytes : List UInt8} (hb : b ≠ 0x1b) (hkind : kind b)
      (hrest : Complete kind bytes) : Complete kind (b :: bytes)
  | sequence {body bytes : List UInt8} (hbody : EscapeSequence body)
      (hrest : Complete kind bytes) : Complete kind (0x1b :: (body ++ bytes))

/-- Bytes at whose end no escape sequence is open. -/
abbrev Outside : List UInt8 → Prop := Complete fun _ => True

/-- Bytes that are dropped whole. -/
abbrev Silent : List UInt8 → Prop := Complete fun b => shownBytes b = []

theorem kept_sequence {body : List UInt8} (h : EscapeSequence body) (rest : List UInt8) :
    kept (0x1b :: (body ++ rest)) = kept rest := by
  rw [kept_escape, consume_sequence h]

/-- A byte that is dropped takes nothing with it. -/
theorem behind_dropped {b : UInt8} (h : shownBytes b = []) (data : List UInt8) :
    behind b data = data := by
  refine if_neg fun hreturn => ?_
  rw [hreturn.1] at h
  cases h

theorem kept_silent {middle : List UInt8} (h : Silent middle) (rest : List UInt8) :
    kept (middle ++ rest) = kept rest := by
  induction h with
  | nil => rfl
  | byte hb hkind _ ih =>
    rw [List.cons_append, kept_byte hb, behind_dropped hkind, hkind, List.nil_append, ih]
  | sequence hbody _ ih => rw [List.cons_append, List.append_assoc, kept_sequence hbody, ih]

/-- **Outside of escape sequences the bytes are kept apart**, but for a newline behind a carriage
return. -/
theorem kept_append {front rest : List UInt8} (h : Outside front) (hrest : rest.head? ≠ some 0x0a) :
    kept (front ++ rest) = kept front ++ kept rest := by
  induction h with
  | nil => rfl
  | @byte b bytes hb _ hbytes ih =>
    rw [List.cons_append, kept_byte hb, kept_byte hb, List.append_assoc]
    cases bytes with
    | nil =>
      rw [List.nil_append, behind, if_neg fun h => hrest h.2]
      simp [behind]
    | cons next bytes =>
      by_cases hreturn : b = 0x0d ∧ next = 0x0a
      · obtain ⟨rfl, rfl⟩ := hreturn
        -- The newline is shown by itself in what is known of the bytes behind the return.
        have hnewline : ∀ data, kept (0x0a :: data) = 0x0a :: kept data :=
          fun data => kept_byte (by decide) data
        rw [List.cons_append, hnewline, hnewline, List.cons_append] at ih
        exact congrArg (shownBytes 0x0d ++ ·) (List.cons.inj ih).2
      · have hstay : ∀ data, behind b (next :: data) = next :: data :=
          fun data => if_neg fun h => hreturn ⟨h.1, Option.some.inj h.2⟩
        rw [List.cons_append, hstay, hstay, ← List.cons_append, ih]
  | sequence hbody _ ih =>
    rw [List.cons_append, List.append_assoc, kept_sequence hbody, kept_sequence hbody, ih]

/-- What is kept are newlines and no other control bytes of ASCII. -/
theorem printable_of_mem_kept {data : List UInt8} {x : UInt8} (h : x ∈ kept data) :
    x = 0x0a ∨ 0x20 ≤ x ∧ x ≠ 0x7f := by
  induction data using keptInduction with
  | nil => cases h
  | escape data ih => exact ih (by rwa [kept_escape] at h)
  | byte b data hb ih =>
    rw [kept_byte hb] at h
    rcases List.mem_append.mp h with hshown | hrest
    · unfold shownBytes at hshown
      split_ifs at hshown with hreturn htab hnewline hcontrol
      · exact Or.inl (List.mem_singleton.mp hshown)
      · simp only [List.mem_cons, List.not_mem_nil, or_false, or_self] at hshown
        subst hshown
        exact Or.inr ⟨by decide, by decide⟩
      · exact Or.inl (List.mem_singleton.mp hshown ▸ hnewline)
      · cases hshown
      · rw [not_or, UInt8.not_lt] at hcontrol
        exact Or.inr (List.mem_singleton.mp hshown ▸ hcontrol)
    · exact ih hrest

/-- A byte that is no control byte of ASCII is kept. -/
theorem kept_printable {b : UInt8} (hb : 0x20 ≤ b) (hdelete : b ≠ 0x7f) (data : List UInt8) :
    kept (b :: data) = b :: kept data := by
  have hne : ∀ y : UInt8, y < 0x20 → b ≠ y := fun y hy heq =>
    absurd hb (UInt8.not_le.mpr (heq ▸ hy))
  have hshown : shownBytes b = [b] := by
    rw [shownBytes, if_neg (hne _ (by decide)), if_neg (hne _ (by decide)),
      if_neg (hne _ (by decide)), if_neg (not_or.mpr ⟨UInt8.not_lt.mpr hb, hdelete⟩)]
  have hstay : behind b data = data := if_neg fun h => hne _ (by decide) h.1
  rw [kept_byte (hne _ (by decide)), hshown, hstay, List.singleton_append]

theorem kept_high {b : UInt8} (hb : 0x80 ≤ b) (data : List UInt8) :
    kept (b :: data) = b :: kept data := by
  refine kept_printable (UInt8.le_trans (by decide) hb) ?_ data
  rintro rfl
  exact absurd hb (by decide)

/-- A byte beyond ASCII is shown for itself only. -/
theorem eq_of_shownBytes {b x : UInt8} (hx : 0x80 ≤ x) {shown more : List UInt8}
    (h : shownBytes b = shown ++ x :: more) : b = x ∧ shown = [] ∧ more = [] := by
  have hmem : x ∈ shownBytes b := h ▸ List.mem_append_right _ List.mem_cons_self
  have hx' : ∀ y : UInt8, y < 0x80 → x ≠ y := fun y hy heq =>
    absurd hx (UInt8.not_le.mpr (heq ▸ hy))
  unfold shownBytes at h hmem
  split_ifs at h hmem with hreturn htab hnewline hcontrol
  · exact absurd (List.mem_singleton.mp hmem) (hx' _ (by decide))
  · simp [hx' 0x20 (by decide)] at hmem
  · exact absurd ((List.mem_singleton.mp hmem).trans hnewline) (hx' _ (by decide))
  · cases hmem
  · obtain rfl := List.mem_singleton.mp hmem
    cases shown with
    | nil => exact ⟨rfl, rfl, (List.cons.inj h).2.symm⟩
    | cons y shown =>
      have hnil := (List.cons.inj h).2
      simp at hnil

/-- INTERNAL: an element of two lists in a row stands in the first or in the second. -/
theorem append_eq_append_cons {xs ys zs ws : List UInt8} {w : UInt8}
    (h : xs ++ ys = zs ++ w :: ws) :
    (∃ more, zs = xs ++ more ∧ ys = more ++ w :: ws) ∨
      ∃ more, xs = zs ++ w :: more ∧ ws = more ++ ys := by
  rcases List.append_eq_append_iff.mp h with ⟨more, hmore, hys⟩ | ⟨more, hmore, hws⟩
  · exact Or.inl ⟨more, hmore, hys⟩
  · cases more with
    | nil => exact Or.inl ⟨[], by simpa using hmore.symm, hws.symm⟩
    | cons next more =>
      obtain ⟨rfl, htail⟩ := List.cons.inj hws
      exact Or.inr ⟨more, hmore, htail⟩

/-- **Where a byte that is kept stands**: behind whole sequences and other bytes. -/
theorem exists_of_kept {data shown more : List UInt8} {x : UInt8} (hx : 0x80 ≤ x)
    (h : kept data = shown ++ x :: more) : ∃ front rest, data = front ++ x :: rest ∧
      Outside front ∧ kept front = shown ∧ kept rest = more := by
  induction data using keptInduction generalizing shown with
  | nil => simp at h
  | escape data ih =>
    rw [kept_escape] at h
    rcases consume_cases data with hnil | ⟨body, hbody, hdata⟩
    · rw [hnil] at h
      simp at h
    · obtain ⟨front, rest, heq, hfront, hshown, hmore⟩ := ih h
      refine ⟨0x1b :: (body ++ front), rest, ?_, .sequence hbody hfront, ?_, hmore⟩
      · rw [List.cons_append, List.append_assoc, ← heq, ← hdata]
      · rw [kept_sequence hbody, hshown]
  | byte b data hb ih =>
    rw [kept_byte hb] at h
    rcases append_eq_append_cons h with ⟨before, hbefore, hrest⟩ | ⟨before, hshown, hrest⟩
    · obtain ⟨front, rest, heq, hfront, hkept, hmore⟩ := ih hrest
      by_cases hreturn : b = 0x0d ∧ data.head? = some 0x0a
      · rw [behind, if_pos hreturn] at heq
        have hdata : data = 0x0a :: (front ++ x :: rest) := by
          rw [← heq, List.cons_head?_tail hreturn.2]
        refine ⟨b :: 0x0a :: front, rest, by rw [hdata]; rfl, .byte hb trivial (.byte (by decide)
          trivial hfront), ?_, hmore⟩
        rw [kept_byte hb, behind, if_pos ⟨hreturn.1, rfl⟩, List.tail_cons, hkept, hbefore]
      · rw [behind, if_neg hreturn] at heq
        have hstay : ¬ (b = 0x0d ∧ front.head? = some 0x0a) := by
          rintro ⟨rfl, hhead⟩
          rw [heq, List.head?_append, hhead] at hreturn
          exact hreturn ⟨rfl, rfl⟩
        refine ⟨b :: front, rest, by rw [heq]; rfl, .byte hb trivial hfront, ?_, hmore⟩
        rw [kept_byte hb, behind, if_neg hstay, hkept, hbefore]
    · obtain ⟨rfl, rfl, rfl⟩ := eq_of_shownBytes hx hshown
      have hstay : behind b data = data := by
        refine if_neg fun hreturn => absurd hx ?_
        rw [hreturn.1]
        decide
      rw [List.nil_append, hstay] at hrest
      exact ⟨[], data, rfl, .nil, rfl, hrest.symm⟩

theorem Complete.silent {front : List UInt8} (h : Outside front) (hkept : kept front = []) :
    Silent front := by
  induction h with
  | nil => exact .nil
  | @byte b bytes hb _ _ ih =>
    rw [kept_byte hb, List.append_eq_nil_iff] at hkept
    obtain ⟨hshown, hrest⟩ := hkept
    rw [behind_dropped hshown] at hrest
    exact .byte hb hshown (ih hrest)
  | sequence hbody _ ih =>
    rw [kept_sequence hbody] at hkept
    exact .sequence hbody (ih hkept)

/-! ## What is shown -/

/-- The code points that control a terminal. -/
def IsControl (c : Char) : Prop := c.toNat < 0x20 ∨ 0x7f ≤ c.toNat ∧ c.toNat < 0xa0

/-- A text without control characters other than newlines. -/
def Inert (out : List UInt8) : Prop :=
  ∃ text, out = Unicode.encode text ∧ ∀ c ∈ text, IsControl c → c = '\n'

/-- The two bytes of a character from U+0080 to U+009F come together: outside of escape sequences,
with nothing between them that is shown. -/
def StartsC1 (data : List UInt8) : Prop :=
  ∃ front middle b rest, data = front ++ 0xc2 :: (middle ++ b :: rest) ∧ Outside front ∧
    Silent middle ∧ 0x80 ≤ b ∧ b < 0xa0

theorem joinInvalid_map_some (joined : Bool) (text : List Char) :
    joinInvalid joined (text.map some) = text := by
  induction text generalizing joined with
  | nil => rfl
  | cons c text ih =>
    rw [List.map_cons, joinInvalid, ih]

theorem mem_joinInvalid {joined : Bool} {runes : List (Option Char)} {c : Char}
    (h : c ∈ joinInvalid joined runes) : c = Unicode.replacement ∨ some c ∈ runes := by
  induction runes generalizing joined with
  | nil => cases h
  | cons rune runes ih =>
    cases rune with
    | some d =>
      rw [joinInvalid, List.mem_cons] at h
      rcases h with rfl | h
      · exact Or.inr List.mem_cons_self
      · exact (ih h).imp_right (List.mem_cons_of_mem _)
    | none =>
      cases joined with
      | true => exact (ih h).imp_right (List.mem_cons_of_mem _)
      | false =>
        rw [joinInvalid, List.mem_cons] at h
        rcases h with rfl | h
        · exact Or.inl rfl
        · exact (ih h).imp_right (List.mem_cons_of_mem _)

theorem mem_joinInvalid_of_mem (joined : Bool) {runes : List (Option Char)} {c : Char}
    (h : some c ∈ runes) : c ∈ joinInvalid joined runes := by
  induction runes generalizing joined with
  | nil => cases h
  | cons rune runes ih =>
    cases rune with
    | some d =>
      rw [joinInvalid]
      rcases List.mem_cons.mp h with heq | h
      · exact Option.some.inj heq ▸ List.mem_cons_self
      · exact List.mem_cons_of_mem _ (ih _ h)
    | none =>
      have hrest : some c ∈ runes := (List.mem_cons.mp h).resolve_left (by simp)
      cases joined with
      | true => exact ih _ hrest
      | false => exact List.mem_cons_of_mem _ (ih _ hrest)

/-- The text that is shown. -/
def shownText (data : List UInt8) : List Char := joinInvalid false (Unicode.runes (kept data))

/-- What is shown are the bytes of a text. -/
theorem sanitize_eq (data : List UInt8) :
    sanitizeTerminalOutput data = Unicode.encode (shownText data) := by
  unfold sanitizeTerminalOutput
  dsimp only
  split_ifs with hvalid
  · obtain ⟨text, htext⟩ := Unicode.valid_iff.mp hvalid
    have hkept : kept data = Unicode.encode text := htext
    rw [shownText, hkept, Unicode.runes_encode, joinInvalid_map_some]
    exact htext
  · rfl

theorem kept_plain {data : List UInt8} (h : ∀ b ∈ data, 0x20 ≤ b ∧ b ≠ 0x7f) :
    kept data = data := by
  induction data with
  | nil => rfl
  | cons b data ih =>
    rw [List.forall_mem_cons] at h
    rw [kept_printable h.1.1 h.1.2, ih h.2]

/-- Valid bytes without control bytes are shown as they are. -/
theorem sanitize_plain {data : List UInt8} (h : ∀ b ∈ data, 0x20 ≤ b ∧ b ≠ 0x7f)
    (hvalid : Unicode.Valid data) : sanitizeTerminalOutput data = data := by
  obtain ⟨text, htext⟩ := Unicode.valid_iff.mp hvalid
  rw [sanitize_eq, shownText, kept_plain h, htext, Unicode.runes_encode, joinInvalid_map_some]

/-- The bytes of a character from U+0080 to U+009F. -/
theorem utf8EncodeChar_c1 {b : UInt8} (hlow : 0x80 ≤ b) (hhigh : b < 0xa0) :
    String.utf8EncodeChar (Char.ofNat b.toNat) = [0xc2, b] := by
  have hlow' : 0x80 ≤ b.toNat := hlow
  have hhigh' : b.toNat < 0xa0 := hhigh
  have hfirst : b.toNat / 64 % 0x20 + 0xc0 = 0xc2 := by omega
  have hsecond : b.toNat % 64 + 0x80 = b.toNat := by omega
  unfold String.utf8EncodeChar
  dsimp only
  have hnat : (Char.ofNat b.toNat).val.toNat = b.toNat := Unicode.toNat_ofNat_byte b
  rw [hnat, if_neg (by omega), if_pos (by omega), hfirst, hsecond, UInt8.ofNat_toNat]
  rfl

/-- What is shown controls a terminal with newlines, and with characters beyond ASCII. -/
theorem newline_or_c1 {data : List UInt8} {c : Char} (h : c ∈ shownText data) (hc : IsControl c) :
    c = '\n' ∨ 0x80 ≤ c.toNat ∧ some c ∈ Unicode.runes (kept data) := by
  rcases mem_joinInvalid h with rfl | hrune
  · exact absurd hc (by unfold IsControl; decide)
  · rcases Unicode.utf8EncodeChar_cases c with ⟨hsmall, hbytes⟩ | ⟨hlarge, -⟩
    · -- The character is a byte that is kept.
      obtain ⟨front, rest, hkept⟩ := Unicode.exists_of_mem_runes hrune
      have hmem : UInt8.ofNat c.toNat ∈ kept data := by
        rw [hkept, hbytes]
        simp
      have hnat : (UInt8.ofNat c.toNat).toNat = c.toNat :=
        UInt8.toNat_ofNat_of_lt' (by rw [UInt8.size]; omega)
      rcases printable_of_mem_kept hmem with hnewline | ⟨hprintable, hdelete⟩
      · refine Or.inl (Char.ext (UInt32.toNat_inj.mp ?_))
        exact hnat.symm.trans (congrArg UInt8.toNat hnewline)
      · have hlow : 0x20 ≤ c.toNat := hnat ▸ hprintable
        have hother : c.toNat ≠ 0x7f := fun heq => hdelete (UInt8.toNat_inj.mp (hnat.trans heq))
        unfold IsControl at hc
        omega
    · exact Or.inr ⟨hlarge, hrune⟩

/-- Where the bytes of a control character come together, it is shown. -/
theorem exists_control_of_startsC1 {data : List UInt8} (h : StartsC1 data) :
    ∃ c ∈ shownText data, IsControl c ∧ c ≠ '\n' := by
  obtain ⟨front, middle, b, rest, rfl, hfront, hmiddle, hlow, hhigh⟩ := h
  have hlow' : 0x80 ≤ b.toNat := hlow
  have hhigh' : b.toNat < 0xa0 := hhigh
  have hkept : kept (front ++ 0xc2 :: (middle ++ b :: rest)) =
      kept front ++ 0xc2 :: b :: kept rest := by
    rw [kept_append hfront (by simp), kept_high (by decide), kept_silent hmiddle, kept_high hlow]
  have hnat : (Char.ofNat b.toNat).toNat = b.toNat := Unicode.toNat_ofNat_byte b
  refine ⟨Char.ofNat b.toNat, mem_joinInvalid_of_mem false ?_, ?_, ?_⟩
  · rw [hkept, Unicode.runes_append _ (by decide)]
    refine List.mem_append_right _ ?_
    have hpair : 0xc2 :: b :: kept rest =
        String.utf8EncodeChar (Char.ofNat b.toNat) ++ kept rest := by
      rw [utf8EncodeChar_c1 hlow hhigh]
      rfl
    rw [hpair, Unicode.runes_utf8EncodeChar]
    exact List.mem_cons_self
  · unfold IsControl
    omega
  · intro heq
    rw [heq] at hnat
    have hten : b.toNat = 0x0a := hnat.symm
    omega

/-- A control character beyond ASCII is shown where its bytes come together. -/
theorem startsC1_of_mem_runes {data : List UInt8} {c : Char} (hlow : 0x80 ≤ c.toNat)
    (hc : IsControl c) (h : some c ∈ Unicode.runes (kept data)) : StartsC1 data := by
  have hhigh : c.toNat < 0xa0 := by
    unfold IsControl at hc
    omega
  have hnat : (UInt8.ofNat c.toNat).toNat = c.toNat :=
    UInt8.toNat_ofNat_of_lt' (by rw [UInt8.size]; omega)
  generalize UInt8.ofNat c.toNat = b at hnat
  have hblow : 0x80 ≤ b := by
    rw [UInt8.le_iff_toNat_le, hnat]
    exact hlow
  have hbhigh : b < 0xa0 := by
    rw [UInt8.lt_iff_toNat_lt, hnat]
    exact hhigh
  have hbytes : String.utf8EncodeChar c = [0xc2, b] := by
    rw [← utf8EncodeChar_c1 hblow hbhigh, hnat, Char.ofNat_toNat]
  obtain ⟨shown, more, hkept⟩ := Unicode.exists_of_mem_runes h
  rw [hbytes, List.append_assoc] at hkept
  -- Its first byte stands outside of the sequences, and so does the second in what is behind.
  obtain ⟨front, rest, hdata, hfront, -, hrest⟩ := exists_of_kept (by decide) hkept
  have hsecond : kept rest = [] ++ b :: more := hrest
  obtain ⟨middle, tail, htail, hmiddle, hnone, -⟩ := exists_of_kept hblow hsecond
  exact ⟨front, middle, b, tail, by rw [hdata, htail], hfront, hmiddle.silent hnone, hblow, hbhigh⟩

theorem inert_iff (data : List UInt8) : Inert (sanitizeTerminalOutput data) ↔ ¬ StartsC1 data := by
  constructor
  · rintro ⟨text, htext, hinert⟩ hstarts
    rw [sanitize_eq] at htext
    have hsame : shownText data = text := by
      rw [← Unicode.decode_encode (shownText data), htext, Unicode.decode_encode]
    obtain ⟨c, hc, hcontrol, hnot⟩ := exists_control_of_startsC1 hstarts
    exact hnot (hinert c (hsame ▸ hc) hcontrol)
  · intro hnot
    refine ⟨shownText data, sanitize_eq data, fun c hc hcontrol => ?_⟩
    rcases newline_or_c1 hc hcontrol with hnewline | ⟨hlow, hrune⟩
    · exact hnewline
    · exact absurd (startsC1_of_mem_runes hlow hcontrol hrune) hnot

/-- **What a terminal is given**: for all bytes, the loop ends within their number of steps, what it
shows are valid bytes, and it controls the terminal with nothing but newlines unless the two bytes
of a character from U+0080 to U+009F come together in what the loop keeps.
SRC: sanitize.go:8-127 -/
theorem terminal_output_inert (data : List UInt8) :
    (∀ extra, keptBytes (data.length + extra) data = keptBytes data.length data) ∧
      Unicode.Valid (sanitizeTerminalOutput data) ∧
      (∃ text, sanitizeTerminalOutput data = Unicode.encode text ∧
        ∀ c ∈ text, IsControl c → c = '\n' ∨ 0x80 ≤ c.toNat) ∧
      (Inert (sanitizeTerminalOutput data) ↔ ¬ StartsC1 data) := by
  refine ⟨fun extra => keptBytes_fuel _ data (Nat.le_add_right _ _), ?_, ?_, inert_iff data⟩
  · rw [sanitize_eq]
    exact Unicode.valid_encode _
  · refine ⟨shownText data, sanitize_eq data, fun c hc hcontrol => ?_⟩
    exact (newline_or_c1 hc hcontrol).imp_right And.left

/-- A control sequence introducer of two bytes is given to the terminal, and its sequence with
it. -/
theorem terminal_output_introducer :
    ¬ Inert (sanitizeTerminalOutput ([0xc2, 0x9b] ++ GoString.ascii "31m")) := by
  rw [inert_iff, not_not]
  exact ⟨[], [], 0x9b, GoString.ascii "31m", rfl, .nil, .nil, by decide, by decide⟩

end Tickline.Analysis
