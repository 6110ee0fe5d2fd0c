import DocComment.Source.Glyph
import DocComment.Text.HiddenCharacter

/-!
# Texts

White space, the parts of a text between marks, the numbers that digits spell, and texts in double quotes as
messages show them.
-/

namespace DocComment

namespace Text

/-- White space in the sense of Unicode. -/
def isBlank (c : Char) : Bool :=
  let n := c.toNat
  (9 ≤ n && n ≤ 13) || n == 0x20 || n == 0x85 || n == 0xA0 || n == 0x1680 || (0x2000 ≤ n && n ≤ 0x200A)
    || n == 0x2028 || n == 0x2029 || n == 0x202F || n == 0x205F || n == 0x3000

/-- The parts of a text between marks. The marks belong to no part, so there is one part more than there are marks. -/
def parts (mark : Char) : List Char → List (List Char)
  | [] => [[]]
  | c :: rest =>
    match parts mark rest with
    | [] => [[c]]
    | part :: more => if c == mark then [] :: part :: more else (c :: part) :: more

end Text

/-! ## Digits -/

namespace Digits

def hex? (c : Char) : Option Nat :=
  if '0' ≤ c && c ≤ '9' then some (c.toNat - '0'.toNat)
  else if 'a' ≤ c && c ≤ 'f' then some (c.toNat - 'a'.toNat + 10)
  else if 'A' ≤ c && c ≤ 'F' then some (c.toNat - 'A'.toNat + 10)
  else none

/-- The number that digits with these values spell in a base. -/
def value (base : Nat) (digits : List Nat) : Nat := digits.foldl (fun n d => n * base + d) 0

/-- The number that decimal digits spell. -/
def decimal (digits : List Char) : Nat := value 10 (digits.map fun c => c.toNat - '0'.toNat)

/-- The number that hexadecimal digits spell, if all characters are such. -/
def hexadecimal? (digits : List Char) : Option Nat := (digits.mapM hex?).map (value 16)

/-- The hexadecimal digits of a number, in lower case and without needless zeros. -/
def ofNat (n : Nat) : List Char := Nat.toDigits 16 n

end Digits

/-! ## Quoted texts -/

namespace QuotedText

/-- A glyph as it is written between quotes. Some characters have an escape of their own, characters that are not
shown are written by their number, and stray bytes by theirs. -/
def escaped : Glyph → List Char
  | .scalar c =>
    if c == '\x00' then ['\\', '0']
    else if c == '\t' then ['\\', 't']
    else if c == '\n' then ['\\', 'n']
    else if c == '\r' then ['\\', 'r']
    else if c == '"' || c == '\\' then ['\\', c]
    else if HiddenCharacter.isHidden c then '\\' :: 'u' :: '\x7b' :: Digits.ofNat c.toNat ++ ['\x7d']
    else [c]
  | .stray b => '\\' :: 'x' :: [b.toNat / 16, b.toNat % 16].map fun d => (Nat.digitChar d).toUpper

def quote (glyphs : List Glyph) : String :=
  "\"" ++ String.ofList (glyphs.flatMap escaped) ++ "\""

def ofText (text : String) : String := quote (Glyph.spell text)

def ofBytes (bytes : List UInt8) : String := quote (Glyph.decode bytes)

end QuotedText

end DocComment
