import Mathlib.Data.List.Forall2
import Tickline.Library.Json

/-!
# Writing JSON over lines

The layout of arrays and objects over lines (`block`), and that it is read back.  A `Written`
value is a text with the tokens that it is read as and what they stand for; every way to write a
value is one way to make a `Written`.  `decode_written` is what a decoder gets from its text.
-/

set_option autoImplicit false

namespace Tickline.Library.Json

/-! ## The layout -/

/-- Lines of an array or object: each is indented and ends in a comma, except for the last. -/
def blockLines (indent : ℕ) : List (List Char) → List Char
  | [] => []
  | [item] => List.replicate indent ' ' ++ item ++ ['\n']
  | item :: rest => List.replicate indent ' ' ++ item ++ [',', '\n'] ++ blockLines indent rest

/-- An array or object: two spaces more for each line in it. -/
def block (indent : ℕ) (opening closing : Char) (items : List (List Char)) : List Char :=
  if items.isEmpty then [opening, closing]
  else [opening, '\n'] ++ blockLines (indent + 2) items ++ List.replicate indent ' ' ++ [closing]

/-- An integer in decimal. -/
def intDigits (n : ℤ) : List Char :=
  if n < 0 then '-' :: Nat.toDigits 10 n.natAbs else Nat.toDigits 10 n.natAbs

/-! ## Integers -/

/-- An integer is read back from its digits. -/
theorem integer?_intDigits (n : ℤ) : integer? (intDigits n) = some n := by
  unfold intDigits
  split_ifs with hneg
  · unfold integer?
    rw [if_pos (List.head?_cons ..), List.tail_cons, isWhole_toDigits, if_pos rfl,
      Nat.ofDigitChars_ten_toDigits]
    congr 1
    omega
  · rw [integer?_toDigits]
    congr 1
    omega

/-- The digits of an integer spell it. -/
theorem Spells.int (n : ℤ) : Spells (intDigits n) (.number (intDigits n)) := by
  unfold intDigits
  split_ifs with hneg
  · refine Spells.bare (List.cons_ne_nil _ _) ?_ ?_
    · intro c hc
      rcases List.mem_cons.mp hc with rfl | hc
      · decide
      · exact isDelimiter_of_isDigit (isDigit_of_mem_toDigits hc)
    · have hhead : (Nat.toDigits 10 n.natAbs).head? ≠ some '-' := head_toDigits _
      have hnumber := isNumber_toDigits n.natAbs
      have hsigned : isNumber ('-' :: Nat.toDigits 10 n.natAbs) = true := by
        unfold isNumber at hnumber ⊢
        rw [if_neg hhead] at hnumber
        rw [if_pos (List.head?_cons ..)]
        exact hnumber
      have hname : ∀ name : List Char, name.head? ≠ some '-' →
          '-' :: Nat.toDigits 10 n.natAbs ≠ name := by
        rintro name hname rfl
        exact hname rfl
      unfold bareToken?
      rw [if_neg (hname _ (by decide)), if_neg (hname _ (by decide)), if_neg (hname _ (by decide)),
        hsigned, if_pos rfl]
  · exact Spells.digits n.natAbs

/-! ## Names -/

/-- A character that needs no escape. -/
def isPlain (c : Char) : Bool := c ≠ '"' && c ≠ '\\' && 0x20 ≤ c.toNat

/-- A text of plain characters is read as it is. -/
theorem Reads.of_plain {text : List Char} (h : text.all isPlain = true) :
    Reads text (units text) := by
  induction text with
  | nil => exact Reads.nil
  | cons c text ih =>
    rw [List.all_cons, Bool.and_eq_true] at h
    obtain ⟨hc, htext⟩ := h
    simp only [isPlain, Bool.and_eq_true, decide_eq_true_eq] at hc
    exact (Reads.plain hc.1.1 hc.1.2 (Nat.not_lt.mpr hc.2)).append (ih htext)

/-! ## Texts before a delimiter -/

/-- Between tokens, the text is read as these tokens as soon as a delimiter is behind it. -/
def LexesBefore (text : List Char) (tokens : List Token) : Prop :=
  ∀ c rest after, isDelimiter c = true → Lexes (c :: rest) after →
    Lexes (text ++ c :: rest) (tokens ++ after)

namespace LexesBefore

variable {text text' : List Char} {tokens tokens' : List Token}

theorem of_spells {token : Token} (h : Spells text token) : LexesBefore text [token] := h

theorem of_lexes (h : Lexes text tokens) : LexesBefore text tokens :=
  fun _ _ _ _ hrest => h.append hrest

theorem behind (h : Lexes text tokens) (h' : LexesBefore text' tokens') :
    LexesBefore (text ++ text') (tokens ++ tokens') := by
  intro c rest after hc hrest
  rw [List.append_assoc, List.append_assoc]
  exact h.append (h' c rest after hc hrest)

/-- A delimiter and what is behind it. -/
theorem lexes (h : LexesBefore text tokens) {c : Char} {rest : List Char}
    (hc : isDelimiter c = true) (hrest : Lexes (c :: rest) tokens') :
    Lexes (text ++ c :: rest) (tokens ++ tokens') :=
  h c rest tokens' hc hrest

end LexesBefore

/-- The tokens of items, with commas between them. -/
def separated : List (List Token) → List Token
  | [] => []
  | [item] => item
  | item :: rest => item ++ .comma :: separated rest

/-- INTERNAL: lines are read as their tokens. -/
theorem blockLines_lexes (indent : ℕ) {items : List (List Char)} {tokens : List (List Token)}
    (h : List.Forall₂ LexesBefore items tokens) :
    Lexes (blockLines indent items) (separated tokens) := by
  have hcomma : Lexes [',', '\n'] [.comma] := Lexes.of_start (by decide)
  have hend : Lexes ['\n'] [] := Lexes.of_start (by decide)
  induction h with
  | nil => exact Lexes.nil
  | @cons item token items tokens hone hrest ih =>
    have hindented := LexesBefore.behind (Lexes.spaces indent) hone
    cases hrest with
    | nil =>
      have hline := hindented.lexes (by decide) hend
      rwa [List.nil_append, List.append_nil] at hline
    | @cons next nextToken rest restTokens hnext hmore =>
      have hline := (hindented.lexes (by decide) hcomma).append ih
      have htokens : [] ++ token ++ [.comma] ++ separated (nextToken :: restTokens) =
          separated (token :: nextToken :: restTokens) := by
        simp [separated]
      rw [htokens] at hline
      exact hline

/-- INTERNAL: an array or object is read as its tokens. -/
theorem block_lexes (indent : ℕ) {opening closing : Char} {openToken closeToken : Token}
    (hopen : Lexes [opening] [openToken]) (hclose : Lexes [closing] [closeToken])
    {items : List (List Char)} {tokens : List (List Token)}
    (h : List.Forall₂ LexesBefore items tokens) :
    Lexes (block indent opening closing items) (openToken :: separated tokens ++ [closeToken]) := by
  unfold block
  split_ifs with hempty
  · obtain rfl := List.isEmpty_iff.mp hempty
    cases h
    exact hopen.append hclose
  · have hline : Lexes ['\n'] [] := Lexes.of_start (by decide)
    have hblock := (((hopen.append hline).append (blockLines_lexes (indent + 2) h)).append
      (Lexes.spaces indent)).append hclose
    rw [List.append_nil, List.append_nil, List.singleton_append] at hblock
    exact hblock

/-! ## Values -/

section

variable {accept : List (List UInt16 × Json) → Bool}

/-- INTERNAL: items with commas between them. -/
theorem separated_items {tokens : List (List Token)} {items : List Json}
    (h : List.Forall₂ (Parses accept) tokens items) (hne : items ≠ []) :
    ParsesItems accept (separated tokens) items := by
  induction h with
  | nil => exact absurd rfl hne
  | cons hone hrest ih =>
    cases hrest with
    | nil => exact ParsesItems.one hone
    | cons hnext hmore => exact (ParsesItems.one hone).append (ih (List.cons_ne_nil _ _))

/-- INTERNAL: members with commas between them. -/
theorem separated_members {tokens : List (List Token)} {members : List (List UInt16 × Json)}
    (h : List.Forall₂ (fun tokens member =>
      ParsesMembers accept tokens [member]) tokens members) (hne : members ≠ []) :
    ParsesMembers accept (separated tokens) members := by
  induction h with
  | nil => exact absurd rfl hne
  | cons hone hrest ih =>
    cases hrest with
    | nil => exact hone
    | cons hnext hmore => exact hone.append (ih (List.cons_ne_nil _ _))

end

/-- A text of a value, with the tokens that it is read as and what they stand for. -/
structure Written (accept : List (List UInt16 × Json) → Bool) where
  text : List Char
  tokens : List Token
  json : Json
  lexes : LexesBefore text tokens
  parses : Parses accept tokens json

namespace Written

variable {accept : List (List UInt16 × Json) → Bool}

/-- A string, whose text is read as these code units. -/
def string {body : List Char} {read : List UInt16} (h : Reads body read) : Written accept where
  text := '"' :: body ++ ['"']
  tokens := [.string read]
  json := .string read
  lexes := LexesBefore.of_lexes (Spells.string h)
  parses := Parses.string read

/-- An integer. -/
def int (n : ℤ) : Written accept where
  text := intDigits n
  tokens := [.number (intDigits n)]
  json := .number (intDigits n)
  lexes := LexesBefore.of_spells (Spells.int n)
  parses := Parses.number _

/-- INTERNAL: values are read and parsed one by one. -/
theorem forall₂_map {α β : Type} {R : α → β → Prop} {f : Written accept → α}
    {g : Written accept → β} (h : ∀ value, R (f value) (g value))
    (values : List (Written accept)) : List.Forall₂ R (values.map f) (values.map g) := by
  rw [List.forall₂_map_left_iff, List.forall₂_map_right_iff]
  exact List.forall₂_same.mpr fun value _ => h value

/-- An array. -/
def array (indent : ℕ) (values : List (Written accept)) : Written accept where
  text := block indent '[' ']' (values.map (·.text))
  tokens := .openArray :: separated (values.map (·.tokens)) ++ [.closeArray]
  json := .array (values.map (·.json))
  lexes := LexesBefore.of_lexes (block_lexes indent (Lexes.of_start (by decide))
    (Lexes.of_start (by decide)) (forall₂_map (·.lexes) values))
  parses := by
    rcases eq_or_ne values [] with rfl | hne
    · exact Parses.emptyArray
    · exact Parses.array (separated_items (forall₂_map (·.parses) values)
        (List.map_eq_nil_iff.not.mpr hne))

/-- A name that needs no escapes, and its value. -/
structure Member (accept : List (List UInt16 × Json) → Bool) where
  name : String
  plain : name.toList.all isPlain = true
  value : Written accept

namespace Member

/-- The line of a member. -/
def line (name : String) (value : List Char) : List Char :=
  '"' :: name.toList ++ ['"'] ++ [':', ' '] ++ value

/-- The tokens of a member. -/
def tokens (member : Member accept) : List Token :=
  .string (units member.name.toList) :: .colon :: member.value.tokens

/-- INTERNAL: a member is read as its tokens. -/
theorem lexes (member : Member accept) :
    LexesBefore (line member.name member.value.text) member.tokens := by
  have hcolon : Lexes [':', ' '] [.colon] := Lexes.of_start (by decide)
  exact LexesBefore.behind ((Spells.string (Reads.of_plain member.plain)).append hcolon) member.value.lexes

end Member

/-- An object with members that the decoder lets through. -/
def object (indent : ℕ) (members : List (Member accept)) (hne : members ≠ [])
    (haccept : accept (members.map fun member =>
      (units member.name.toList, member.value.json)) = true) : Written accept where
  text := block indent '{' '}' (members.map fun member =>
    Member.line member.name member.value.text)
  tokens := .openObject :: separated (members.map (·.tokens)) ++ [.closeObject]
  json := .object (members.map fun member => (units member.name.toList, member.value.json))
  lexes := by
    refine LexesBefore.of_lexes (block_lexes indent (Lexes.of_start (by decide))
      (Lexes.of_start (by decide)) ?_)
    rw [List.forall₂_map_left_iff, List.forall₂_map_right_iff]
    exact List.forall₂_same.mpr fun member _ => member.lexes
  parses := by
    refine Parses.object (separated_members ?_ (List.map_eq_nil_iff.not.mpr hne)) haccept
    rw [List.forall₂_map_left_iff, List.forall₂_map_right_iff]
    exact List.forall₂_same.mpr fun member _ => ParsesMembers.one _ member.value.parses

/-- **A text over lines decodes to what was written.** -/
theorem decode_written (value : Written accept) :
    decode accept (value.text ++ ['\n']) = some value.json := by
  have hlexes := value.lexes.lexes (by decide) (Lexes.of_start (by decide) : Lexes ['\n'] [])
  rw [List.append_nil] at hlexes
  exact decode_of hlexes value.parses

end Written

end Tickline.Library.Json
