import Mathlib.Data.List.Lex
import Mathlib.Data.Nat.Notation

/-!
# Strings and paths of the developer tool

A Go string is a sequence of bytes.  The functions of the packages `strings`, `path` and
`path/filepath` (on Linux) that the developer tool calls, as their documentation describes them.
-/

set_option autoImplicit false

namespace Tickline.Model

abbrev GoString := List UInt8

instance : LawfulBEq GoString := inferInstance

namespace GoString

/-- A literal of ASCII characters. -/
def ascii (text : String) : GoString := text.toList.map fun c => UInt8.ofNat c.toNat

/-- The byte of an ASCII character. -/
def byte (c : Char) : UInt8 := UInt8.ofNat c.toNat

/-- What strings are ordered by: their bytes, from the front. -/
def key (text : GoString) : List ℕ := text.map UInt8.toNat

/-! ## Strings -/

/-- The UTF-8 spellings of the characters that `unicode.IsSpace` accepts. -/
def spaces : List GoString :=
  [[0x09], [0x0a], [0x0b], [0x0c], [0x0d], [0x20], [0xc2, 0x85], [0xc2, 0xa0], [0xe1, 0x9a, 0x80],
    [0xe2, 0x80, 0x80], [0xe2, 0x80, 0x81], [0xe2, 0x80, 0x82], [0xe2, 0x80, 0x83],
    [0xe2, 0x80, 0x84], [0xe2, 0x80, 0x85], [0xe2, 0x80, 0x86], [0xe2, 0x80, 0x87],
    [0xe2, 0x80, 0x88], [0xe2, 0x80, 0x89], [0xe2, 0x80, 0x8a], [0xe2, 0x80, 0xa8],
    [0xe2, 0x80, 0xa9], [0xe2, 0x80, 0xaf], [0xe2, 0x81, 0x9f], [0xe3, 0x80, 0x80]]

/-- Drop spellings from the front while there is one, at most `fuel` times. -/
def dropSpellings (spellings : List GoString) : ℕ → GoString → GoString
  | 0, text => text
  | fuel + 1, text =>
    match spellings.find? (·.isPrefixOf text) with
    | some spelling => dropSpellings spellings fuel (text.drop spelling.length)
    | none => text

/-- `strings.TrimSpace`.  A spelling at the end of a string is read from behind. -/
def trimSpace (text : GoString) : GoString :=
  let text := dropSpellings spaces text.length text
  (dropSpellings (spaces.map List.reverse) text.length text.reverse).reverse

/-- `strings.Split` with a separator of one byte. -/
def split (text : GoString) (separator : Char) : List GoString := text.splitOn (byte separator)

/-- `strings.Join` with a separator of one byte. -/
def join (parts : List GoString) (separator : Char) : GoString :=
  [byte separator].intercalate parts

/-- `strings.HasPrefix`. -/
def hasPrefix (text : GoString) (front : String) : Bool := (ascii front).isPrefixOf text

/-! ## Paths -/

/-- `path.IsAbs`, `filepath.IsAbs`. -/
def isAbs (path : GoString) : Bool := path.hasPrefix "/"

/-- One element of a path behind those kept: empty elements and `.` are dropped, `..` drops the
element before it, and is kept where there is none, unless the path is rooted. -/
def cleanElement (rooted : Bool) (kept : List GoString) (element : GoString) : List GoString :=
  if element = [] ∨ element = ascii "." then kept
  else if element = ascii ".." then
    match kept.getLast? with
    | some last => if last = ascii ".." then kept ++ [element] else kept.dropLast
    | none => if rooted then [] else [element]
  else kept ++ [element]

/-- `path.Clean`, `filepath.Clean`. -/
def clean (path : GoString) : GoString :=
  if path = [] then ascii "."
  else
    let elements := (path.split '/').foldl (cleanElement path.isAbs) []
    if path.isAbs then byte '/' :: join elements '/'
    else if elements = [] then ascii "."
    else join elements '/'

/-- `filepath.Join` of a directory and a path below it. -/
def joinPath (directory path : GoString) : GoString :=
  if directory = [] then (if path = [] then [] else clean path)
  else if path = [] then clean directory
  else clean (directory ++ byte '/' :: path)

/-- The elements of a cleaned path. -/
def elements (path : GoString) : List GoString :=
  ((clean path).split '/').filter fun element => element ≠ [] ∧ element ≠ ascii "."

/-- Two lists without the front they share. -/
def dropShared : List GoString → List GoString → List GoString × List GoString
  | a :: as, b :: bs => if a = b then dropShared as bs else (a :: as, b :: bs)
  | as, bs => (as, bs)

/-- `filepath.Rel`; `none` for its error. -/
def rel (base target : GoString) : Option GoString :=
  if base.clean = target.clean then some (ascii ".")
  else if base.clean.isAbs ≠ target.clean.isAbs then none
  else
    let (up, down) := dropShared base.elements target.elements
    if up.head? = some (ascii "..") then none
    else some (join (up.map (fun _ => ascii "..") ++ down) '/')

/-- The test behind `filepath.Rel` that a path stays below a directory.
SRC: task/manifest.go:286-299, 340-355 -/
def escapes (base target : GoString) : Bool :=
  match rel base target with
  | none => true
  | some relative => relative == ascii ".." || relative.hasPrefix "../"

end GoString

end Tickline.Model
