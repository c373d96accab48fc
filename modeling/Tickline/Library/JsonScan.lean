import Tickline.Library.Json

/-!
# Reading a JSON text from left to right

What a decoder has come to at a place of a text, before it has read the rest: `wantsValue` says that
a value has to start there, and `comesTo` that the decoder comes to a place where a value has to
start and what is behind it has a property.

`leadingInteger` is the integer literal that such a decoder reads at a place.  Where the whole text
is decoded, the literal is in one of its number tokens (`number_of_comesTo`).
-/

set_option autoImplicit false

namespace Tickline.Library.Json

/-! ## Places -/

/-- Whether a value has to start behind a text. -/
def wantsValue (accept : List (List UInt16 × Json) → Bool) (front : List Char) : Bool :=
  match front.foldlM Lexer.step ⟨[], .between⟩ with
  | some ⟨tokens, .between⟩ =>
    match tokens.foldlM (Parser.step accept) ⟨[], .value false⟩ with
    | some ⟨_, .value _⟩ => true
    | _ => false
  | _ => false

/-- Whether the decoder comes to such a place with what is behind it like this. -/
def comesTo (accept : List (List UInt16 × Json) → Bool) (like : List Char → Bool)
    (front : List Char) : List Char → Bool
  | [] => false
  | c :: rest =>
    (like (c :: rest) && wantsValue accept front) || comesTo accept like (front ++ [c]) rest

/-- Where the decoder has come to. -/
theorem comesTo_iff {accept : List (List UInt16 × Json) → Bool} {like : List Char → Bool}
    {front text : List Char} : comesTo accept like front text = true ↔
      ∃ passed rest, text = passed ++ rest ∧ rest ≠ [] ∧ like rest = true ∧
        wantsValue accept (front ++ passed) = true := by
  induction text generalizing front with
  | nil =>
    refine iff_of_false (by rw [comesTo]; exact Bool.false_ne_true) ?_
    rintro ⟨passed, rest, hsplit, hrest, -⟩
    exact hrest (List.append_eq_nil_iff.mp hsplit.symm).2
  | cons c text ih =>
    rw [comesTo, Bool.or_eq_true, Bool.and_eq_true, ih]
    constructor
    · rintro (⟨hlike, hwants⟩ | ⟨passed, rest, rfl, hrest, hlike, hwants⟩)
      · exact ⟨[], c :: text, rfl, List.cons_ne_nil _ _, hlike, by rwa [List.append_nil]⟩
      · exact ⟨c :: passed, rest, rfl, hrest, hlike, by rwa [List.append_assoc] at hwants⟩
    · rintro ⟨passed, rest, hsplit, hrest, hlike, hwants⟩
      cases passed with
      | nil =>
        rw [List.nil_append] at hsplit
        rw [List.append_nil] at hwants
        exact .inl ⟨hsplit ▸ hlike, hwants⟩
      | cons first passed =>
        obtain ⟨rfl, rfl⟩ := List.cons.inj hsplit
        exact .inr ⟨passed, rest, rfl, hrest, hlike, by rwa [List.append_assoc]⟩

/-! ## Literals -/

/-- Whether a fraction starts here. -/
def startsFraction : List Char → Bool
  | '.' :: c :: _ => c.isDigit
  | _ => false

/-- Whether an exponent starts here. -/
def startsExponent : List Char → Bool
  | c :: rest =>
    let digits := if rest.head? = some '+' ∨ rest.head? = some '-' then rest.tail else rest
    (c = 'e' || c = 'E') && digits.head?.any Char.isDigit
  | [] => false

/-- A text without the sign at its front. -/
def unsigned (text : List Char) : List Char := if text.head? = some '-' then text.tail else text

/-- A zero, or all the digits at the front of a text. -/
def wholeDigits (text : List Char) : List Char :=
  if text.head? = some '0' then ['0'] else text.takeWhile Char.isDigit

/-- The digits of the integer literal at the front of a text; none where a number with a fraction
or an exponent is there, or no number. -/
def leadingInteger (text : List Char) : List Char :=
  let digits := wholeDigits (unsigned text)
  let rest := (unsigned text).drop digits.length
  if startsFraction rest || startsExponent rest then [] else digits

/-- The characters up to the next delimiter. -/
def word (text : List Char) : List Char := text.takeWhile fun c => !isDelimiter c

/-- INTERNAL: one more character of a word. -/
theorem word_cons {c : Char} (h : isDelimiter c = false) (text : List Char) :
    word (c :: text) = c :: word text :=
  List.takeWhile_cons_of_pos (by rw [h]; rfl)

/-- INTERNAL: the digits are in the word. -/
theorem length_takeWhile_isDigit_le (text : List Char) :
    (text.takeWhile Char.isDigit).length ≤ (word text).length := by
  induction text with
  | nil => exact le_rfl
  | cons c text ih =>
    by_cases hc : c.isDigit = true
    · rw [List.takeWhile_cons_of_pos hc, word_cons (isDelimiter_of_isDigit hc)]
      exact Nat.succ_le_succ ih
    · rw [List.takeWhile_cons_of_neg hc]
      exact Nat.zero_le _

/-- INTERNAL: a literal is in the word. -/
theorem length_leadingInteger_le (text : List Char) :
    (leadingInteger text).length ≤ (word text).length := by
  have hwhole : ∀ text, (wholeDigits text).length ≤ (word text).length := by
    intro text
    unfold wholeDigits
    split
    · next hzero =>
      obtain ⟨rest, rfl⟩ := List.head?_eq_some_iff.mp hzero
      rw [word_cons (by decide)]
      exact Nat.succ_le_succ (Nat.zero_le _)
    · exact length_takeWhile_isDigit_le text
  have hunsigned : (word (unsigned text)).length ≤ (word text).length := by
    unfold unsigned
    split
    · next hminus =>
      obtain ⟨rest, rfl⟩ := List.head?_eq_some_iff.mp hminus
      rw [word_cons (by decide)]
      exact Nat.le_succ _
    · exact le_rfl
  unfold leadingInteger
  dsimp only
  split
  · exact Nat.zero_le _
  · exact (hwhole _).trans hunsigned

/-! ## Tokens -/

/-- INTERNAL: reading only adds tokens. -/
theorem run_extends {text : List Char} {lexer final : Lexer}
    (h : text.foldlM Lexer.step lexer = some final) : lexer.tokens <+: final.tokens := by
  have hbehind := run_behind lexer.tokens text ⟨[], lexer.mode⟩
  have hlexer : Lexer.behind lexer.tokens ⟨[], lexer.mode⟩ = lexer := by
    rw [Lexer.behind, List.append_nil]
  rw [hlexer, h] at hbehind
  obtain ⟨rest, -, rfl⟩ := Option.map_eq_some_iff.mp hbehind.symm
  exact List.prefix_append _ _

/-- INTERNAL: so does a character between tokens. -/
theorem startToken_extends (tokens : List Token) (c : Char) :
    tokens <+: (startToken tokens c).tokens := by
  unfold startToken
  split_ifs
  · exact List.prefix_rfl
  · exact List.prefix_rfl
  · cases mark? c with
    | none => exact List.prefix_rfl
    | some token => exact List.prefix_append _ _

/-- INTERNAL: and so does the end of the text. -/
theorem finish_extends {lexer : Lexer} {tokens : List Token} (h : lexer.finish = some tokens) :
    lexer.tokens <+: tokens := by
  obtain ⟨before, mode⟩ := lexer
  cases mode with
  | between => exact Option.some.inj h ▸ List.prefix_rfl
  | bare read =>
    obtain ⟨token, -, rfl⟩ := Option.map_eq_some_iff.mp h
    exact List.prefix_append _ _
  | text read => cases h
  | escape read => cases h
  | unicode read value digits => cases h

/-- INTERNAL: a word that is read to its end is a token. -/
theorem token_of_word {text read : List Char} {before tokens : List Token}
    (h : (text.foldlM Lexer.step ⟨before, .bare read⟩).bind Lexer.finish = some tokens) :
    ∃ token ∈ tokens, bareToken? (read ++ word text) = some token := by
  induction text generalizing read with
  | nil =>
    obtain ⟨token, htoken, rfl⟩ := Option.map_eq_some_iff.mp h
    exact ⟨token, by simp, by rwa [word, List.takeWhile_nil, List.append_nil]⟩
  | cons c text ih =>
    rw [List.foldlM_cons] at h
    by_cases hc : isDelimiter c = true
    · have hword : word (c :: text) = [] := List.takeWhile_cons_of_neg (by rw [hc]; decide)
      obtain ⟨final, hrun, hfinish⟩ := Option.bind_eq_some_iff.mp h
      obtain ⟨next, hstep, hrest⟩ := Option.bind_eq_some_iff.mp hrun
      simp only [Lexer.step, hc, if_true] at hstep
      obtain ⟨token, htoken, rfl⟩ := Option.map_eq_some_iff.mp hstep
      have hprefix := ((startToken_extends (before ++ [token]) c).trans
        (run_extends hrest)).trans (finish_extends hfinish)
      exact ⟨token, hprefix.subset (by simp), by rwa [hword, List.append_nil]⟩
    · have hstep : Lexer.step ⟨before, .bare read⟩ c = some ⟨before, .bare (read ++ [c])⟩ := by
        simp only [Lexer.step, hc]
        rfl
      rw [hstep] at h
      obtain ⟨token, hmem, htoken⟩ := ih h
      refine ⟨token, hmem, ?_⟩
      rw [word_cons (Bool.eq_false_of_not_eq_true hc)]
      rwa [List.append_assoc] at htoken

/-- INTERNAL: a token as long as a number is a number. -/
theorem bareToken_long {read : List Char} {token : Token} (h : bareToken? read = some token)
    (hlong : 5 < read.length) : token = .number read := by
  have hname : ∀ name : List Char, name.length ≤ 5 → read ≠ name := by
    rintro name hname rfl
    omega
  unfold bareToken? at h
  rw [if_neg (hname _ (by decide)), if_neg (hname _ (by decide)), if_neg (hname _ (by decide))] at h
  split at h
  · exact (Option.some.inj h).symm
  · cases h

/-- **A literal that the decoder comes to is in a number token** of a text that it decodes. -/
theorem number_of_comesTo {accept : List (List UInt16 × Json) → Bool} {bound : ℕ}
    (hbound : 5 ≤ bound) {text : List Char} {tokens : List Token} (hlex : lex text = some tokens)
    (h : comesTo accept (fun rest => decide (bound < (leadingInteger rest).length)) [] text =
      true) :
    ∃ literal, .number literal ∈ tokens ∧ bound < literal.length := by
  obtain ⟨passed, rest, rfl, hrest, hlike, hwants⟩ := comesTo_iff.mp h
  rw [List.nil_append] at hwants
  have hlong := (of_decide_eq_true hlike).trans_le (length_leadingInteger_le rest)
  -- the lexer is between tokens, and the word starts here
  have hrun : ∃ before, passed.foldlM Lexer.step ⟨[], .between⟩ = some ⟨before, .between⟩ := by
    unfold wantsValue at hwants
    split at hwants
    · next before hbefore => exact ⟨before, hbefore⟩
    · cases hwants
  obtain ⟨before, hbefore⟩ := hrun
  obtain ⟨c, others, rfl⟩ := List.exists_cons_of_ne_nil hrest
  have hc : isDelimiter c = false := by
    by_contra hdelimiter
    rw [word, List.takeWhile_cons_of_neg (by simpa using hdelimiter)] at hlong
    exact absurd hlong (Nat.not_lt_zero _)
  have hdelimiters := hc
  simp only [isDelimiter, Bool.or_eq_false_iff, decide_eq_false_iff_not,
    Option.isSome_eq_false_iff, Option.isNone_iff_eq_none] at hdelimiters
  have hstart : Lexer.step ⟨before, .between⟩ c = some ⟨before, .bare [c]⟩ := by
    simp [Lexer.step, startToken, hdelimiters.1.1, hdelimiters.1.2, hdelimiters.2]
  unfold lex at hlex
  rw [List.foldlM_append, hbefore, Option.bind_eq_bind, Option.bind_some, List.foldlM_cons,
    hstart] at hlex
  obtain ⟨token, hmem, htoken⟩ := token_of_word hlex
  rw [List.singleton_append, ← word_cons hc] at htoken
  rw [bareToken_long htoken (by omega)] at hmem
  exact ⟨_, hmem, hlong⟩

end Tickline.Library.Json
