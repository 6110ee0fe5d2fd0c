/-!
# Glyphs: the characters of a source

A source is a list of bytes. It is read as a list of glyphs: the Unicode scalar values that its bytes
encode, and each byte that is part of no encoding as a glyph of its own. Only the shortest encoding of
a scalar value counts (`leading?`), and nothing is lost or invented (`bytes_decode`).
-/

namespace DocComment

/-- A character of a source: a scalar value, or a byte that no encoding accounts for. -/
inductive Glyph where
  | scalar (c : Char)
  | stray (b : UInt8)
  deriving DecidableEq

namespace Glyph

/-- The bytes that a glyph stands for. -/
def bytes : Glyph → List UInt8
  | .scalar c => String.utf8EncodeChar c
  | .stray b => [b]

/-- How many bytes a glyph stands for. -/
def width (g : Glyph) : Nat := g.bytes.length

/-- Every glyph stands for a byte at least. -/
theorem width_pos (g : Glyph) : 0 < g.width := by
  cases g with
  | scalar c => simp only [width, bytes, String.length_utf8EncodeChar]; exact c.utf8Size_pos
  | stray b => exact Nat.one_pos

/-! ## Decoding -/

/-- How many bytes an encoding has that starts with this byte. -/
def announcedWidth (b : UInt8) : Nat :=
  if b < 0x80 then 1 else if b < 0xE0 then 2 else if b < 0xF0 then 3 else 4

/-- The low bits of a first byte: those that do not announce a width. -/
def lowBits (b : UInt8) : Nat :=
  if b < 0x80 then b.toNat
  else if b < 0xE0 then b.toNat % 32
  else if b < 0xF0 then b.toNat % 16
  else b.toNat % 8

/-- The number that the front of the bytes spells, if the first byte tells the truth: its own low
bits, then six bits of each byte that it announces. -/
def announced : List UInt8 → Nat
  | [] => 0
  | b :: rest => (rest.take (announcedWidth b - 1)).foldl (fun n c => n * 64 + c.toNat % 64) (lowBits b)

/-- The scalar value whose encoding the bytes start with. -/
def leading? (bytes : List UInt8) : Option Char :=
  let c := Char.ofNat (announced bytes)
  if (String.utf8EncodeChar c).isPrefixOf bytes then some c else none

/-- A leading scalar value is encoded at the front of the bytes. -/
theorem isPrefix_of_leading? {bytes : List UInt8} {c : Char} (found : leading? bytes = some c) :
    String.utf8EncodeChar c <+: bytes := by
  simp only [leading?, Option.ite_none_right_eq_some, Option.some.injEq] at found
  rw [← found.2]
  exact List.isPrefixOf_iff_prefix.mp found.1

/-- The glyphs of the bytes, where the first `passing` bytes belong to a glyph already read. -/
def decodeFrom (passing : Nat) : List UInt8 → List Glyph
  | [] => []
  | b :: rest =>
    match passing with
    | passing + 1 => decodeFrom passing rest
    | 0 =>
      match leading? (b :: rest) with
      | some c => .scalar c :: decodeFrom (c.utf8Size - 1) rest
      | none => .stray b :: decodeFrom 0 rest

/-- The glyphs of a source. -/
def decode (source : List UInt8) : List Glyph := decodeFrom 0 source

/-- Passing over bytes is decoding what is left behind them. -/
theorem decodeFrom_eq_drop (passing : Nat) (source : List UInt8) :
    decodeFrom passing source = decode (source.drop passing) := by
  induction source generalizing passing with
  | nil => simp [decodeFrom, decode]
  | cons b rest ih =>
    cases passing with
    | zero => rfl
    | succ passing => simpa [decodeFrom] using ih passing

/-- The glyphs of a source carry its bytes, all of them and in order. -/
theorem bytes_decode (source : List UInt8) : (decode source).flatMap bytes = source := by
  induction length : source.length using Nat.strongRecOn generalizing source with
  | _ n ih =>
    cases source with
    | nil => rfl
    | cons b rest =>
      simp only [decode, decodeFrom]
      cases found : leading? (b :: rest) with
      | none =>
        have shorter : rest.length < n := by simp at length; omega
        simpa [bytes, decodeFrom_eq_drop] using ih _ shorter rest rfl
      | some c =>
        obtain ⟨after, split⟩ := isPrefix_of_leading? found
        have size : (String.utf8EncodeChar c).length = c.utf8Size := String.length_utf8EncodeChar c
        have positive := c.utf8Size_pos
        have dropped : rest.drop (c.utf8Size - 1) = after := by
          have : (b :: rest).drop c.utf8Size = after := by rw [← split, ← size]; simp
          rwa [show c.utf8Size = c.utf8Size - 1 + 1 by omega, List.drop_succ_cons] at this
        have shorter : after.length < n := by
          have := congrArg List.length split
          simp [size] at this length
          omega
        simp only [decodeFrom_eq_drop, dropped, List.flatMap_cons, bytes, ih _ shorter after rfl, split]

/-! ## Classes of glyphs -/

/-- A scalar value with the property. -/
def satisfies (p : Char → Bool) : Glyph → Bool
  | .scalar c => p c
  | .stray _ => false

/-- White space: U+0009 to U+000D and the space, no other character. -/
def isBlank : Glyph → Bool :=
  satisfies fun c => (9 ≤ c.toNat && c.toNat ≤ 13) || c == ' '

/-- A letter of the ASCII alphabet or the low line, as in the name of a tag. -/
def isLetter : Glyph → Bool :=
  satisfies fun c => ('a' ≤ c && c ≤ 'z') || ('A' ≤ c && c ≤ 'Z') || c == '_'

/-- What an identifier starts with: a letter or a dollar sign. -/
def startsIdentifier (g : Glyph) : Bool :=
  g.isLetter || g == .scalar '$'

/-- What an identifier goes on with: all that it starts with, and the decimal digits. -/
def continuesIdentifier (g : Glyph) : Bool :=
  g.startsIdentifier || satisfies (fun c => '0' ≤ c && c ≤ '9') g

/-- The character U+0000, which no pattern takes, not even one that says "all but". -/
def isNull (g : Glyph) : Bool := g == .scalar '\x00'

/-- The mark that may stand at the very front of a source. -/
def byteOrderMark : Glyph := .scalar '\uFEFF'

/-! ## Glyphs as text -/

/-- The character of a glyph that is one. -/
def char? : Glyph → Option Char
  | .scalar c => some c
  | .stray _ => none

/-- The text of the glyphs, if none of them is a stray byte. -/
def text? (glyphs : List Glyph) : Option String :=
  (glyphs.mapM char?).map String.ofList

/-- The glyphs of a text. -/
def spell (text : String) : List Glyph := text.toList.map .scalar

end Glyph

/-- The bytes that encode a text. -/
def encode (text : String) : List UInt8 := text.toList.flatMap String.utf8EncodeChar

end DocComment
