import Mathlib.Data.Int.Notation
import Mathlib.Data.Bool.AllAny
import Mathlib.Data.List.Basic
import Mathlib.Data.List.Induction
import Mathlib.Data.List.TakeWhile
import Mathlib.Data.Nat.Notation
import Mathlib.Order.Basic
import Mathlib.Tactic.IntervalCases
import Mathlib.Tactic.SplitIfs

/-!
# JSON texts

A decoder of JSON texts in two passes: the lexer takes one step for each character and the
parser one for each token, on a stack of the arrays and objects that are open.  A string is its
UTF-16 code units, a number is as it is written, and an object has its members in order, repeated
names included; `accept` says which objects the decoder lets through.

What a text means is put together from its parts.  `Lexes text tokens` says what a piece of
text between tokens is read as, `Spells value token` the same of a value that needs something
behind it to end, and `Parses`, `ParsesItems` and `ParsesMembers` what tokens stand for.  They
have one rule for each way to write a value, and `decode_of` gives the decoder's result.
-/

set_option autoImplicit false

namespace Tickline.Library

/-- A JSON value. -/
inductive Json
  | null
  | boolean (value : Bool)
  | number (literal : List Char)
  | string (text : List UInt16)
  | array (items : List Json)
  | object (members : List (List UInt16 × Json))

namespace Json

/-! ## Strings and numbers -/

/-- The UTF-16 code units of a character. -/
def utf16 (c : Char) : List UInt16 :=
  if c.toNat < 0x10000 then [UInt16.ofNat c.toNat]
  else [UInt16.ofNat (0xd800 + (c.toNat - 0x10000) / 0x400),
    UInt16.ofNat (0xdc00 + (c.toNat - 0x10000) % 0x400)]

/-- The code units of a text. -/
def units (text : List Char) : List UInt16 := text.flatMap utf16

/-- The value of a hexadecimal digit. -/
def hexValue? (c : Char) : Option ℕ :=
  if '0' ≤ c ∧ c ≤ '9' then some (c.toNat - 48)
  else if 'a' ≤ c ∧ c ≤ 'f' then some (c.toNat - 87)
  else if 'A' ≤ c ∧ c ≤ 'F' then some (c.toNat - 55)
  else none

/-- The code unit that a character stands for behind a backslash. -/
def escaped? (c : Char) : Option UInt16 :=
  ([('"', 34), ('\\', 92), ('/', 47), ('b', 8), ('f', 12), ('n', 10), ('r', 13), ('t', 9)] :
    List (Char × UInt16)).lookup c

/-- A single zero, or digits that do not start with one. -/
def isWhole (digits : List Char) : Bool :=
  digits = ['0'] || (!digits.isEmpty && digits.all Char.isDigit && digits.head? ≠ some '0')

/-- The exponent of a number, which may be missing. -/
def isExponent : List Char → Bool
  | [] => true
  | c :: rest =>
    let digits := if rest.head? = some '+' ∨ rest.head? = some '-' then rest.tail else rest
    (c = 'e' || c = 'E') && !digits.isEmpty && digits.all Char.isDigit

/-- The fraction and the exponent of a number. -/
def isFraction : List Char → Bool
  | '.' :: rest =>
    !(rest.takeWhile Char.isDigit).isEmpty && isExponent (rest.dropWhile Char.isDigit)
  | rest => isExponent rest

/-- Whether a text is a number. -/
def isNumber (literal : List Char) : Bool :=
  let magnitude := if literal.head? = some '-' then literal.tail else literal
  isWhole (magnitude.takeWhile Char.isDigit) && isFraction (magnitude.dropWhile Char.isDigit)

/-- The value of a number without fraction and exponent. -/
def integer? (literal : List Char) : Option ℤ :=
  if literal.head? = some '-' then
    if isWhole literal.tail then some (-(Nat.ofDigitChars 10 literal.tail 0 : ℤ)) else none
  else if isWhole literal then some (Nat.ofDigitChars 10 literal 0 : ℤ) else none

/-- The first member of an object under a name. -/
def member? (name : String) : Json → Option Json
  | .object members => members.lookup (units name.toList)
  | _ => none

/-- Where names differ, every member is found under its name. -/
theorem member?_of_mem {name : String} {value : Json} {members : List (List UInt16 × Json)}
    (hnames : (members.map Prod.fst).Nodup) (h : (units name.toList, value) ∈ members) :
    (Json.object members).member? name = some value := by
  show members.lookup (units name.toList) = some value
  induction members with
  | nil => cases h
  | cons first rest ih =>
    obtain ⟨hfirst, hrest⟩ := List.nodup_cons.mp hnames
    obtain ⟨other, otherValue⟩ := first
    rw [List.lookup_cons]
    rcases List.mem_cons.mp h with heq | h
    · obtain ⟨rfl, rfl⟩ := Prod.mk.inj heq
      rw [beq_self_eq_true]
    · have hne : ¬ units name.toList = other := fun heq =>
        hfirst (List.mem_map.mpr ⟨_, h, heq⟩)
      rw [beq_false_of_ne hne]
      exact ih hrest h

/-! ## The lexer -/

inductive Token
  | openObject
  | closeObject
  | openArray
  | closeArray
  | colon
  | comma
  | null
  | boolean (value : Bool)
  | number (literal : List Char)
  | string (text : List UInt16)
  deriving DecidableEq

/-- What the lexer is in the middle of, and what it has read of it. -/
inductive Mode
  | between
  | text (read : List UInt16)
  | escape (read : List UInt16)
  | unicode (read : List UInt16) (value digits : ℕ)
  | bare (read : List Char)
  deriving DecidableEq

structure Lexer where
  tokens : List Token
  mode : Mode
  deriving DecidableEq

/-- White space. -/
def isSpace (c : Char) : Bool := c = ' ' || c = '\n' || c = '\t' || c = '\r'

/-- The token that a character is by itself. -/
def mark? (c : Char) : Option Token :=
  ([('{', .openObject), ('}', .closeObject), ('[', .openArray), (']', .closeArray),
    (':', .colon), (',', .comma)] : List (Char × Token)).lookup c

/-- Whether a character ends a number or a name. -/
def isDelimiter (c : Char) : Bool := isSpace c || c = '"' || (mark? c).isSome

/-- The token that a text without delimiters is. -/
def bareToken? (read : List Char) : Option Token :=
  if read = "null".toList then some .null
  else if read = "true".toList then some (.boolean true)
  else if read = "false".toList then some (.boolean false)
  else if isNumber read then some (.number read)
  else none

/-- A character between tokens. -/
def startToken (tokens : List Token) (c : Char) : Lexer :=
  if isSpace c then ⟨tokens, .between⟩
  else if c = '"' then ⟨tokens, .text []⟩
  else match mark? c with
    | some token => ⟨tokens ++ [token], .between⟩
    | none => ⟨tokens, .bare [c]⟩

/-- Read one character. -/
def Lexer.step (lexer : Lexer) (c : Char) : Option Lexer :=
  match lexer.mode with
  | .between => some (startToken lexer.tokens c)
  | .text read =>
    if c = '"' then some ⟨lexer.tokens ++ [.string read], .between⟩
    else if c = '\\' then some ⟨lexer.tokens, .escape read⟩
    else if c.toNat < 0x20 then none
    else some ⟨lexer.tokens, .text (read ++ utf16 c)⟩
  | .escape read =>
    if c = 'u' then some ⟨lexer.tokens, .unicode read 0 0⟩
    else (escaped? c).map fun unit => ⟨lexer.tokens, .text (read ++ [unit])⟩
  | .unicode read value digits =>
    (hexValue? c).map fun digit =>
      if digits = 3 then ⟨lexer.tokens, .text (read ++ [UInt16.ofNat (value * 16 + digit)])⟩
      else ⟨lexer.tokens, .unicode read (value * 16 + digit) (digits + 1)⟩
  | .bare read =>
    if isDelimiter c then
      (bareToken? read).map fun token => startToken (lexer.tokens ++ [token]) c
    else some ⟨lexer.tokens, .bare (read ++ [c])⟩

/-- The tokens at the end of a text. -/
def Lexer.finish (lexer : Lexer) : Option (List Token) :=
  match lexer.mode with
  | .between => some lexer.tokens
  | .bare read => (bareToken? read).map fun token => lexer.tokens ++ [token]
  | _ => none

/-- The tokens of a text. -/
def lex (text : List Char) : Option (List Token) :=
  (text.foldlM Lexer.step ⟨[], .between⟩).bind Lexer.finish

/-! ## The parser -/

/-- An array or object that is open, and the name of the member that is being read. -/
inductive Frame
  | array (items : List Json)
  | object (members : List (List UInt16 × Json))
  | member (members : List (List UInt16 × Json)) (name : List UInt16)

/-- What has to come next; `orEnd` is at the first place of an array or object. -/
inductive Wanted
  | value (orEnd : Bool)
  | name (orEnd : Bool)
  | colon
  | separator
  | nothing (value : Json)

structure Parser where
  frames : List Frame
  wanted : Wanted

/-- Take a complete value. -/
def complete (value : Json) : List Frame → Option Parser
  | [] => some ⟨[], .nothing value⟩
  | .array items :: frames => some ⟨.array (items ++ [value]) :: frames, .separator⟩
  | .member members name :: frames =>
    some ⟨.object (members ++ [(name, value)]) :: frames, .separator⟩
  | .object _ :: _ => none

/-- Close the array on top. -/
def endArray : List Frame → Option Parser
  | .array items :: frames => complete (.array items) frames
  | _ => none

/-- Close the object on top. -/
def endObject (accept : List (List UInt16 × Json) → Bool) : List Frame → Option Parser
  | .object members :: frames =>
    if accept members then complete (.object members) frames else none
  | _ => none

/-- Read one token. -/
def Parser.step (accept : List (List UInt16 × Json) → Bool) (parser : Parser) (token : Token) :
    Option Parser :=
  match parser.wanted, token with
  | .value _, .null => complete .null parser.frames
  | .value _, .boolean value => complete (.boolean value) parser.frames
  | .value _, .number literal => complete (.number literal) parser.frames
  | .value _, .string text => complete (.string text) parser.frames
  | .value _, .openArray => some ⟨.array [] :: parser.frames, .value true⟩
  | .value _, .openObject => some ⟨.object [] :: parser.frames, .name true⟩
  | .value true, .closeArray => endArray parser.frames
  | .name _, .string name =>
    match parser.frames with
    | .object members :: frames => some ⟨.member members name :: frames, .colon⟩
    | _ => none
  | .name true, .closeObject => endObject accept parser.frames
  | .colon, .colon => some ⟨parser.frames, .value false⟩
  | .separator, .comma =>
    match parser.frames with
    | .array _ :: _ => some ⟨parser.frames, .value false⟩
    | .object _ :: _ => some ⟨parser.frames, .name false⟩
    | _ => none
  | .separator, .closeArray => endArray parser.frames
  | .separator, .closeObject => endObject accept parser.frames
  | _, _ => none

/-- The value that tokens stand for. -/
def parse (accept : List (List UInt16 × Json) → Bool) (tokens : List Token) : Option Json :=
  match tokens.foldlM (Parser.step accept) ⟨[], .value false⟩ with
  | some ⟨[], .nothing value⟩ => some value
  | _ => none

/-- The value of a text, if every object in it is one of those that `accept` lets through. -/
def decode (accept : List (List UInt16 × Json) → Bool) (text : List Char) : Option Json :=
  (lex text).bind (parse accept)

/-! ## What a piece of text is read as -/

/-- The lexer with tokens before its own. -/
def Lexer.behind (before : List Token) (lexer : Lexer) : Lexer :=
  ⟨before ++ lexer.tokens, lexer.mode⟩

/-- INTERNAL: a token starts the same whatever is before it. -/
theorem startToken_behind (before tokens : List Token) (c : Char) :
    startToken (before ++ tokens) c = (startToken tokens c).behind before := by
  unfold startToken
  split_ifs
  · rfl
  · rfl
  · cases mark? c <;> simp [Lexer.behind]

/-- INTERNAL: a character is read the same whatever is before it. -/
theorem step_behind (before : List Token) (lexer : Lexer) (c : Char) :
    (lexer.behind before).step c = (lexer.step c).map (Lexer.behind before) := by
  obtain ⟨tokens, mode⟩ := lexer
  cases mode with
  | between => simp [Lexer.step, Lexer.behind, startToken_behind]
  | text read =>
    simp only [Lexer.step, Lexer.behind]
    split_ifs <;> simp [Lexer.behind]
  | escape read =>
    simp only [Lexer.step, Lexer.behind]
    split_ifs
    · rfl
    · cases escaped? c <;> rfl
  | unicode read value digits =>
    simp only [Lexer.step, Lexer.behind]
    cases hexValue? c with
    | none => rfl
    | some digit =>
      simp only [Option.map_some]
      split_ifs <;> rfl
  | bare read =>
    simp only [Lexer.step, Lexer.behind]
    split_ifs
    · cases bareToken? read with
      | none => rfl
      | some token => simp [startToken_behind]
    · rfl

/-- INTERNAL: a text is read the same whatever is before it. -/
theorem run_behind (before : List Token) (text : List Char) (lexer : Lexer) :
    text.foldlM Lexer.step (lexer.behind before) =
      (text.foldlM Lexer.step lexer).map (Lexer.behind before) := by
  induction text generalizing lexer with
  | nil => rfl
  | cons c text ih =>
    rw [List.foldlM_cons, List.foldlM_cons, step_behind]
    cases lexer.step c with
    | none => rfl
    | some next => exact ih next

/-- Between tokens, the text is read as these tokens. -/
def Lexes (text : List Char) (tokens : List Token) : Prop :=
  ∀ before, text.foldlM Lexer.step ⟨before, .between⟩ = some ⟨before ++ tokens, .between⟩

/-- Between tokens, the text is read as this token as soon as a delimiter is behind it. -/
def Spells (text : List Char) (token : Token) : Prop :=
  ∀ c rest tokens, isDelimiter c = true → Lexes (c :: rest) tokens →
    Lexes (text ++ c :: rest) (token :: tokens)

/-- Inside a string, the text is read as these code units. -/
def Reads (text : List Char) (read : List UInt16) : Prop :=
  ∀ tokens before, text.foldlM Lexer.step ⟨tokens, .text before⟩ =
    some ⟨tokens, .text (before ++ read)⟩

namespace Lexes

theorem nil : Lexes [] [] := by
  intro before
  simp

theorem append {text text' : List Char} {tokens tokens' : List Token} (h : Lexes text tokens)
    (h' : Lexes text' tokens') : Lexes (text ++ text') (tokens ++ tokens') := by
  intro before
  rw [List.foldlM_append, h before]
  show text'.foldlM Lexer.step ⟨before ++ tokens, .between⟩ = _
  rw [h', List.append_assoc]

theorem space {c : Char} (hc : isSpace c = true) : Lexes [c] [] := by
  intro before
  simp [Lexer.step, startToken, hc]

theorem spaces (n : ℕ) : Lexes (List.replicate n ' ') [] := by
  induction n with
  | zero => exact nil
  | succ n ih => exact (space rfl).append ih

/-- A fixed text, by running the lexer. -/
theorem of_start {text : List Char} {tokens : List Token}
    (h : text.foldlM Lexer.step ⟨[], .between⟩ = some ⟨tokens, .between⟩) : Lexes text tokens := by
  intro before
  have hbefore := run_behind before text ⟨[], .between⟩
  rw [h, Lexer.behind, List.append_nil] at hbefore
  exact hbefore

theorem mark {c : Char} {token : Token} (hspace : isSpace c = false) (hquote : c ≠ '"')
    (hmark : mark? c = some token) : Lexes [c] [token] := by
  intro before
  simp [Lexer.step, startToken, hspace, hquote, hmark]

end Lexes

namespace Reads

theorem nil : Reads [] [] := by
  intro tokens before
  simp

theorem append {text text' : List Char} {read read' : List UInt16} (h : Reads text read)
    (h' : Reads text' read') : Reads (text ++ text') (read ++ read') := by
  intro tokens before
  rw [List.foldlM_append, h tokens before]
  show text'.foldlM Lexer.step ⟨tokens, .text (before ++ read)⟩ = _
  rw [h', List.append_assoc]

/-- A character that needs no escape. -/
theorem plain {c : Char} (hquote : c ≠ '"') (hslash : c ≠ '\\') (hcontrol : ¬ c.toNat < 0x20) :
    Reads [c] (utf16 c) := by
  intro tokens before
  simp [Lexer.step, hquote, hslash, hcontrol]

/-- A character behind a backslash. -/
theorem escape {c : Char} {unit : UInt16} (hu : c ≠ 'u') (hc : escaped? c = some unit) :
    Reads ['\\', c] [unit] := by
  intro tokens before
  simp [Lexer.step, hu, hc]

/-- A code unit in hexadecimal. -/
theorem unicode {a b c d : Char} {w x y z : ℕ} (ha : hexValue? a = some w)
    (hb : hexValue? b = some x) (hc : hexValue? c = some y) (hd : hexValue? d = some z) :
    Reads ['\\', 'u', a, b, c, d] [UInt16.ofNat (((w * 16 + x) * 16 + y) * 16 + z)] := by
  intro tokens before
  simp [Lexer.step, ha, hb, hc, hd]

end Reads

namespace Spells

/-- A string. -/
theorem string {text : List Char} {read : List UInt16} (h : Reads text read) :
    Lexes ('"' :: text ++ ['"']) [.string read] := by
  intro before
  rw [List.cons_append, List.foldlM_cons]
  show (text ++ ['"']).foldlM Lexer.step ⟨before, .text []⟩ = _
  rw [List.foldlM_append, h]
  rfl

/-- A text that is read as a token whatever is behind it. -/
theorem of_lexes {text : List Char} {token : Token} (h : Lexes text [token]) : Spells text token :=
  fun _ _ _ _ hrest => h.append hrest

/-- INTERNAL: a text without delimiters is collected. -/
theorem collect {read : List Char} (h : ∀ c ∈ read, isDelimiter c = false) (tokens : List Token)
    (before : List Char) : read.foldlM Lexer.step ⟨tokens, .bare before⟩ =
      some ⟨tokens, .bare (before ++ read)⟩ := by
  induction read generalizing before with
  | nil => simp
  | cons c read ih =>
    have hc := h c (List.mem_cons_self ..)
    have hrest := ih (fun d hd => h d (List.mem_cons_of_mem c hd)) (before ++ [c])
    rw [List.append_assoc, List.singleton_append] at hrest
    rw [List.foldlM_cons]
    show (if isDelimiter c then _ else _ : Option Lexer).bind _ = _
    rw [hc]
    exact hrest

/-- A number or a name. -/
theorem bare {read : List Char} {token : Token} (hread : read ≠ [])
    (h : ∀ c ∈ read, isDelimiter c = false) (htoken : bareToken? read = some token) :
    Spells read token := by
  intro c rest tokens hc hrest before
  obtain ⟨first, others, rfl⟩ := List.exists_cons_of_ne_nil hread
  have hfirst := h first (List.mem_cons_self ..)
  simp only [isDelimiter, Bool.or_eq_false_iff, decide_eq_false_iff_not,
    Option.isSome_eq_false_iff, Option.isNone_iff_eq_none] at hfirst
  have hstart : startToken before first = ⟨before, .bare [first]⟩ := by
    simp [startToken, hfirst.1.1, hfirst.1.2, hfirst.2]
  have hothers := collect (fun d hd => h d (List.mem_cons_of_mem first hd)) before [first]
  have hbehind := hrest (before ++ [token])
  rw [List.foldlM_cons] at hbehind
  rw [List.cons_append, List.foldlM_cons]
  show (others ++ c :: rest).foldlM Lexer.step (startToken before first) = _
  rw [hstart, List.foldlM_append, hothers]
  show (c :: rest).foldlM Lexer.step ⟨before, .bare (first :: others)⟩ = _
  rw [List.foldlM_cons]
  show ((if isDelimiter c then (bareToken? (first :: others)).map _ else _ : Option Lexer).bind _) =
    _
  have hsplit : before ++ token :: tokens = before ++ [token] ++ tokens := by simp
  rw [hc, if_pos rfl, htoken, hsplit]
  exact hbehind

end Spells

/-! ## What tokens stand for -/

variable {accept : List (List UInt16 × Json) → Bool}

/-- The tokens stand for a value. -/
def Parses (accept : List (List UInt16 × Json) → Bool) (tokens : List Token) (value : Json) :
    Prop :=
  ∀ frames orEnd, tokens.foldlM (Parser.step accept) ⟨frames, .value orEnd⟩ =
    complete value frames

/-- The tokens stand for items of an array, with commas between them. -/
def ParsesItems (accept : List (List UInt16 × Json) → Bool) (tokens : List Token)
    (items : List Json) : Prop :=
  ∀ before frames orEnd,
    tokens.foldlM (Parser.step accept) ⟨.array before :: frames, .value orEnd⟩ =
      some ⟨.array (before ++ items) :: frames, .separator⟩

/-- The tokens stand for members of an object, with commas between them. -/
def ParsesMembers (accept : List (List UInt16 × Json) → Bool) (tokens : List Token)
    (members : List (List UInt16 × Json)) : Prop :=
  ∀ before frames orEnd,
    tokens.foldlM (Parser.step accept) ⟨.object before :: frames, .name orEnd⟩ =
      some ⟨.object (before ++ members) :: frames, .separator⟩

theorem ParsesItems.one {tokens : List Token} {value : Json} (h : Parses accept tokens value) :
    ParsesItems accept tokens [value] :=
  fun before frames orEnd => h (.array before :: frames) orEnd

theorem ParsesItems.append {tokens tokens' : List Token} {items items' : List Json}
    (h : ParsesItems accept tokens items) (h' : ParsesItems accept tokens' items') :
    ParsesItems accept (tokens ++ .comma :: tokens') (items ++ items') := by
  intro before frames orEnd
  rw [List.foldlM_append, h]
  show tokens'.foldlM (Parser.step accept) ⟨.array (before ++ items) :: frames, .value false⟩ = _
  rw [h', List.append_assoc]

theorem ParsesMembers.one (name : List UInt16) {tokens : List Token} {value : Json}
    (h : Parses accept tokens value) :
    ParsesMembers accept (.string name :: .colon :: tokens) [(name, value)] :=
  fun before frames _ => h (.member before name :: frames) false

theorem ParsesMembers.append {tokens tokens' : List Token} {members members' : List (List UInt16 × Json)}
    (h : ParsesMembers accept tokens members) (h' : ParsesMembers accept tokens' members') :
    ParsesMembers accept (tokens ++ .comma :: tokens') (members ++ members') := by
  intro before frames orEnd
  rw [List.foldlM_append, h]
  show tokens'.foldlM (Parser.step accept) ⟨.object (before ++ members) :: frames, .name false⟩ = _
  rw [h', List.append_assoc]

namespace Parses

theorem boolean (value : Bool) : Parses accept [.boolean value] (.boolean value) :=
  fun _ _ => bind_pure _

theorem number (literal : List Char) : Parses accept [.number literal] (.number literal) :=
  fun _ _ => bind_pure _

theorem string (text : List UInt16) : Parses accept [.string text] (.string text) :=
  fun _ _ => bind_pure _

/-- An array without items. -/
theorem emptyArray : Parses accept [.openArray, .closeArray] (.array []) := by
  intro frames orEnd
  rw [List.foldlM_cons]
  exact bind_pure (complete (.array []) frames)

/-- An array with items. -/
theorem array {tokens : List Token} {items : List Json} (h : ParsesItems accept tokens items) :
    Parses accept (.openArray :: tokens ++ [.closeArray]) (.array items) := by
  intro frames orEnd
  rw [List.foldlM_append]
  show (tokens.foldlM (Parser.step accept) ⟨.array [] :: frames, .value true⟩).bind _ = _
  rw [h, List.nil_append]
  exact bind_pure (complete (.array items) frames)

/-- An object with members. -/
theorem object {tokens : List Token} {members : List (List UInt16 × Json)}
    (h : ParsesMembers accept tokens members) (haccept : accept members = true) :
    Parses accept (.openObject :: tokens ++ [.closeObject]) (.object members) := by
  intro frames orEnd
  rw [List.foldlM_append]
  show (tokens.foldlM (Parser.step accept) ⟨.object [] :: frames, .name true⟩).bind _ = _
  rw [h, List.nil_append]
  show (if accept members then complete (.object members) frames else none).bind _ = _
  rw [haccept]
  exact bind_pure (complete (.object members) frames)

end Parses

/-- **A text decodes to the value that its tokens stand for.** -/
theorem decode_of {text : List Char} {tokens : List Token} {value : Json}
    (hlexes : Lexes text tokens) (hparses : Parses accept tokens value) :
    decode accept text = some value := by
  have hlex : lex text = some tokens := by
    unfold lex
    rw [hlexes []]
    rfl
  unfold decode
  rw [hlex]
  show parse accept tokens = some value
  unfold parse
  rw [hparses [] false]
  rfl

/-! ## Decimal digits -/

/-- The digits of a number are digits. -/
theorem isDigit_of_mem_toDigits {n : ℕ} {c : Char} (h : c ∈ Nat.toDigits 10 n) :
    c.isDigit = true :=
  Nat.isDigit_of_mem_toDigits (by decide) (by decide) h

/-- INTERNAL: the characters that are digits. -/
theorem mem_digits {c : Char} (h : c.isDigit = true) :
    c ∈ ['0', '1', '2', '3', '4', '5', '6', '7', '8', '9'] := by
  have hvalue : ∀ n, 48 ≤ n → n ≤ 57 →
      Char.ofNat n ∈ ['0', '1', '2', '3', '4', '5', '6', '7', '8', '9'] := by
    intro n hlow hhigh
    interval_cases n <;> decide
  have hrange : 48 ≤ c.toNat ∧ c.toNat ≤ 57 := by
    unfold Char.isDigit at h
    rw [Bool.and_eq_true, decide_eq_true_eq, decide_eq_true_eq] at h
    exact h
  rw [← Char.ofNat_toNat c]
  exact hvalue _ hrange.1 hrange.2

/-- A digit is no delimiter. -/
theorem isDelimiter_of_isDigit {c : Char} (h : c.isDigit = true) : isDelimiter c = false := by
  have hall : ∀ d ∈ ['0', '1', '2', '3', '4', '5', '6', '7', '8', '9'], isDelimiter d = false :=
    List.all_iff_forall_prop.mp (by decide)
  exact hall c (mem_digits h)

/-- The digits of a number are a number without a sign. -/
theorem isWhole_toDigits (n : ℕ) : isWhole (Nat.toDigits 10 n) = true := by
  have hhead : ∀ n : ℕ, 0 < n → (Nat.toDigits 10 n).head? ≠ some '0' := by
    intro n
    induction n using Nat.strongRecOn with
    | ind n ih =>
      intro hn
      rw [Nat.toDigits_eq_if (by decide)]
      split_ifs with hsmall
      · intro hzero
        have hten : ∀ m : ℕ, 0 < m → m < 10 → Nat.digitChar m ≠ '0' := by
          intro m hm hlt
          interval_cases m <;> decide
        exact hten n hn hsmall (Option.some.inj hzero)
      · have hfirst := ih (n / 10) (by omega) (by omega)
        obtain ⟨c, rest, hc⟩ := List.exists_cons_of_ne_nil (Nat.toDigits_ne_nil (n := n / 10) (b := 10))
        rw [hc] at hfirst ⊢
        exact hfirst
  unfold isWhole
  rcases Nat.eq_zero_or_pos n with rfl | hn
  · rfl
  · have hdigits : (Nat.toDigits 10 n).all Char.isDigit = true := by
      rw [List.all_eq_true]
      exact fun c hc => isDigit_of_mem_toDigits hc
    have hnonempty : (Nat.toDigits 10 n).isEmpty = false :=
      List.isEmpty_eq_false_iff.mpr Nat.toDigits_ne_nil
    rw [hdigits, hnonempty, decide_eq_true (hhead n hn)]
    simp

/-- INTERNAL: a number has no sign. -/
theorem head_toDigits (n : ℕ) : (Nat.toDigits 10 n).head? ≠ some '-' := by
  intro h
  have hdigit := isDigit_of_mem_toDigits (List.mem_of_head? h)
  revert hdigit
  decide

/-- A number is read back from its digits. -/
theorem integer?_toDigits (n : ℕ) : integer? (Nat.toDigits 10 n) = some (n : ℤ) := by
  unfold integer?
  rw [if_neg (head_toDigits n), isWhole_toDigits, if_pos rfl, Nat.ofDigitChars_ten_toDigits]

/-- The digits of a number are a number. -/
theorem isNumber_toDigits (n : ℕ) : isNumber (Nat.toDigits 10 n) = true := by
  have htake : (Nat.toDigits 10 n).takeWhile Char.isDigit = Nat.toDigits 10 n :=
    List.takeWhile_eq_self_iff.mpr fun c hc => isDigit_of_mem_toDigits hc
  have hdrop : (Nat.toDigits 10 n).dropWhile Char.isDigit = [] :=
    List.dropWhile_eq_nil_iff.mpr fun c hc => isDigit_of_mem_toDigits hc
  unfold isNumber
  rw [if_neg (head_toDigits n)]
  show (isWhole (List.takeWhile _ _) && isFraction (List.dropWhile _ _)) = true
  rw [htake, hdrop, isWhole_toDigits]
  rfl

/-- The digits of a number spell it. -/
theorem Spells.digits (n : ℕ) : Spells (Nat.toDigits 10 n) (.number (Nat.toDigits 10 n)) := by
  have hname : ∀ name : List Char, name.any (!·.isDigit) = true → Nat.toDigits 10 n ≠ name := by
    intro name hletter heq
    obtain ⟨c, hc, hnot⟩ := List.any_eq_true.mp hletter
    rw [isDigit_of_mem_toDigits (heq ▸ hc)] at hnot
    cases hnot
  refine Spells.bare Nat.toDigits_ne_nil
    (fun c hc => isDelimiter_of_isDigit (isDigit_of_mem_toDigits hc)) ?_
  unfold bareToken?
  rw [if_neg (hname _ (by decide)), if_neg (hname _ (by decide)), if_neg (hname _ (by decide)),
    isNumber_toDigits, if_pos rfl]

/-! ## Decimal digits as code units -/

/-- Characters below `0x10000` are one code unit each. -/
theorem units_of_small {text : List Char} (h : ∀ c ∈ text, c.toNat < 0x10000) :
    units text = text.map fun c => UInt16.ofNat c.toNat := by
  induction text with
  | nil => rfl
  | cons c text ih =>
    have hunit : utf16 c = [UInt16.ofNat c.toNat] := by
      rw [utf16, if_pos (h c (List.mem_cons_self ..))]
    show utf16 c ++ units text = _
    rw [hunit, ih fun other hother => h other (List.mem_cons_of_mem _ hother)]
    rfl

/-- The code units of the digits of a number. -/
theorem units_toDigits (n : ℕ) :
    units (Nat.toDigits 10 n) = (Nat.toDigits 10 n).map fun c => UInt16.ofNat c.toNat := by
  have hsmall : ∀ c ∈ ['0', '1', '2', '3', '4', '5', '6', '7', '8', '9'], c.toNat < 0x10000 :=
    List.all_iff_forall_prop.mp (by decide)
  exact units_of_small fun c hc => hsmall c (mem_digits (isDigit_of_mem_toDigits hc))

/-- They are the code units of digits. -/
theorem mem_units_toDigits {n : ℕ} {unit : UInt16} (h : unit ∈ units (Nat.toDigits 10 n)) :
    unit ∈ ([48, 49, 50, 51, 52, 53, 54, 55, 56, 57] : List UInt16) := by
  have hall : ∀ c ∈ ['0', '1', '2', '3', '4', '5', '6', '7', '8', '9'],
      UInt16.ofNat c.toNat ∈ ([48, 49, 50, 51, 52, 53, 54, 55, 56, 57] : List UInt16) :=
    List.all_iff_forall_prop.mp (by decide)
  rw [units_toDigits, List.mem_map] at h
  obtain ⟨c, hc, rfl⟩ := h
  exact hall c (mem_digits (isDigit_of_mem_toDigits hc))

/-- There is at least one. -/
theorem units_toDigits_ne_nil (n : ℕ) : units (Nat.toDigits 10 n) ≠ [] := by
  rw [units_toDigits, ne_eq, List.map_eq_nil_iff]
  exact Nat.toDigits_ne_nil

/-- The first is a zero for zero only. -/
theorem head_units_toDigits (n : ℕ) :
    units (Nat.toDigits 10 n) = [48] ∨ (units (Nat.toDigits 10 n)).head? ≠ some 48 := by
  have hzero : ∀ c ∈ ['0', '1', '2', '3', '4', '5', '6', '7', '8', '9'],
      UInt16.ofNat c.toNat = 48 → c = '0' :=
    List.all_iff_forall_prop.mp (by decide)
  have hwhole := isWhole_toDigits n
  unfold isWhole at hwhole
  rw [Bool.or_eq_true, decide_eq_true_eq] at hwhole
  rcases hwhole with hone | hmore
  · left
    rw [hone]
    decide
  · right
    rw [Bool.and_eq_true, decide_eq_true_eq] at hmore
    rw [units_toDigits, List.head?_map]
    intro hhead
    obtain ⟨c, hc, hunit⟩ := Option.map_eq_some_iff.mp hhead
    have hdigit := isDigit_of_mem_toDigits (List.mem_of_head? hc)
    exact hmore.2 (hzero c (mem_digits hdigit) hunit ▸ hc)

/-- **They spell the number.** -/
theorem foldl_units_toDigits (n : ℕ) : (units (Nat.toDigits 10 n)).foldl
    (fun value unit => value * 10 + (unit.toNat - 48)) 0 = n := by
  have hvalue : ∀ c ∈ ['0', '1', '2', '3', '4', '5', '6', '7', '8', '9'],
      (UInt16.ofNat c.toNat).toNat = c.toNat :=
    List.all_iff_forall_prop.mp (by decide)
  have hdigits : Nat.ofDigitChars 10 (Nat.toDigits 10 n) 0 = n := Nat.ofDigitChars_ten_toDigits ..
  unfold Nat.ofDigitChars at hdigits
  rw [units_toDigits, List.foldl_map]
  refine Eq.trans (List.foldl_ext _ _ _ fun value c hc => ?_) hdigits
  rw [hvalue c (mem_digits (isDigit_of_mem_toDigits hc)), Nat.mul_comm]
  rfl

/-- INTERNAL: the code unit of a digit. -/
theorem units_digitChar (unit : UInt16) (hlow : 48 ≤ unit) (hhigh : unit ≤ 57) :
    units [Nat.digitChar (unit.toNat - 48)] = [unit] := by
  have hall : ∀ m < 10, units [Nat.digitChar m] = [UInt16.ofNat (48 + m)] := by decide
  have hlow' : 48 ≤ unit.toNat := UInt16.le_iff_toNat_le.mp hlow
  have hhigh' : unit.toNat ≤ 57 := UInt16.le_iff_toNat_le.mp hhigh
  rw [hall _ (by omega), Nat.add_sub_cancel' hlow', UInt16.ofNat_toNat]

/-- **Digits that do not start with a zero are those of the number that they spell.** -/
theorem units_toDigits_foldl {text : List UInt16} (hne : text ≠ [])
    (hdigits : ∀ unit ∈ text, 48 ≤ unit ∧ unit ≤ 57) (hhead : text.head? ≠ some 48) :
    0 < text.foldl (fun value unit => value * 10 + (unit.toNat - 48)) 0 ∧
      units (Nat.toDigits 10
        (text.foldl (fun value unit => value * 10 + (unit.toNat - 48)) 0)) = text := by
  induction text using List.reverseRecOn with
  | nil => exact absurd rfl hne
  | append_singleton text unit ih =>
    obtain ⟨hlow, hhigh⟩ := hdigits unit (by simp)
    have hlow' : 48 ≤ unit.toNat := UInt16.le_iff_toNat_le.mp hlow
    have hhigh' : unit.toNat ≤ 57 := UInt16.le_iff_toNat_le.mp hhigh
    rw [List.foldl_append, List.foldl_cons, List.foldl_nil]
    by_cases hempty : text = []
    · subst hempty
      have hzero : unit.toNat ≠ 48 := fun heq =>
        hhead (congrArg some (UInt16.toNat_inj.mp heq))
      rw [List.foldl_nil, Nat.zero_mul, Nat.zero_add]
      refine ⟨by omega, ?_⟩
      rw [Nat.toDigits_of_lt_base (by omega), units_digitChar unit hlow hhigh]
      rfl
    · rw [List.head?_append_of_ne_nil _ hempty] at hhead
      obtain ⟨hpos, hunits⟩ := ih hempty (fun other hother => hdigits other (by simp [hother])) hhead
      set value := text.foldl (fun value unit => value * 10 + (unit.toNat - 48)) 0
      refine ⟨by omega, ?_⟩
      have hdiv : (value * 10 + (unit.toNat - 48)) / 10 = value := by omega
      have hmod : (value * 10 + (unit.toNat - 48)) % 10 = unit.toNat - 48 := by omega
      rw [Nat.toDigits_of_base_le (by decide) (by omega), hdiv, hmod]
      show units (Nat.toDigits 10 value ++ [Nat.digitChar (unit.toNat - 48)]) = _
      rw [units, List.flatMap_append, ← units, ← units, hunits, units_digitChar unit hlow hhigh]

end Json

end Tickline.Library
