import DocComment.Source.Place
import DocComment.Reading.Stage

/-!
# Readings: the lexemes of a source

A source is read from its front, lexeme by lexeme, until it is accepted or the first token that does
not fit. Each lexeme carries the blanks before it, so the lexemes and what follows them are the
source again.
-/

namespace DocComment

/-- A token of a source with the blanks before it. -/
structure Lexeme where
  token : Token
  padding : List Glyph
  body : List Glyph
  deriving DecidableEq

namespace Lexeme

/-- All glyphs of a lexeme, those of its padding first. -/
def glyphs (l : Lexeme) : List Glyph := l.padding ++ l.body

/-- How many bytes a lexeme takes up, its padding included. -/
def size (l : Lexeme) : Nat := (l.glyphs.flatMap Glyph.bytes).length

end Lexeme

/-- How a reading ends. -/
inductive Ending where
  /-- A whole comment was read; only blanks follow it. -/
  | accepted (trailing : List Glyph)
  /-- What was found does not fit. -/
  | rejected (found : Lookahead)
  deriving DecidableEq

/-- The lexemes read from a source, and why there are no more. -/
structure Reading where
  lexemes : List Lexeme
  ending : Ending
  deriving DecidableEq

namespace Reading

/-- The glyphs that are passed over before a token, and the rest: blanks, and at the front of a source a
byte order mark before them. -/
def pad (atFront : Bool) (input : List Glyph) : List Glyph × List Glyph :=
  let mark := if atFront && input.head? == some Glyph.byteOrderMark then input.take 1 else []
  let rest := input.drop mark.length
  (mark ++ rest.takeWhile Glyph.isBlank, rest.dropWhile Glyph.isBlank)

/-- The ending at a stage where only the padding is left. -/
def endingAt (stage : Stage) (padding : List Glyph) : Ending :=
  if stage = .closed then .accepted padding else .rejected .endOfInput

/-- What the front of the input comes to. -/
inductive Step where
  /-- A lexeme that fits, and the stage behind it. -/
  | lexeme (l : Lexeme) (behind : Stage)
  | ending (e : Ending)

/-- Takes the next step of a reading. -/
def step (atFront : Bool) (stage : Stage) (input : List Glyph) : Step :=
  let (padding, rest) := pad atFront input
  match recognise stage.identifiers rest with
  | (.token t, n) =>
    match stage.next t with
    | some behind => .lexeme ⟨t, padding, rest.take n⟩ behind
    | none => .ending (.rejected (.token t))
  | (.endOfInput, _) => .ending (endingAt stage padding)
  | (.unrecognised, _) => .ending (.rejected .unrecognised)

/-- The reading with one more lexeme before it. -/
def push (l : Lexeme) (r : Reading) : Reading := ⟨l :: r.lexemes, r.ending⟩

/-- Reads on from a stage, where the first `passing` glyphs belong to a lexeme already read. -/
def readFrom (atFront : Bool) (stage : Stage) : Nat → List Glyph → Reading
  | _, [] => ⟨[], endingAt stage []⟩
  | passing + 1, _ :: rest => readFrom false stage passing rest
  | 0, g :: rest =>
    match step atFront stage (g :: rest) with
    | .lexeme l behind => push l (readFrom false behind (l.glyphs.length - 1) rest)
    | .ending e => ⟨[], e⟩

/-- Reads a list of glyphs from the front. -/
def ofGlyphs (input : List Glyph) : Reading := readFrom true .start 0 input

/-- Reads a source. -/
def ofSource (source : List UInt8) : Reading := ofGlyphs (Glyph.decode source)

/-- The place behind the last lexeme. -/
def reached (r : Reading) : Place := Place.origin.afterAll (r.lexemes.flatMap Lexeme.glyphs)

/-- Reading on is reading what is left behind the lexeme already read. -/
theorem readFrom_eq_drop (stage : Stage) (passing : Nat) (input : List Glyph) :
    readFrom false stage passing input = readFrom false stage 0 (input.drop passing) := by
  induction input generalizing passing with
  | nil => simp [readFrom]
  | cons g rest ih =>
    cases passing with
    | zero => rfl
    | succ passing => simpa [readFrom] using ih passing

end Reading

end DocComment
