import DocComment.Token.Automaton
import DocComment.Token.TagClass

/-!
# Tokens and how they are recognised

A token is recognised by the first glyph of what is left of the source; its lexeme is then the longest
prefix that the pattern of that token accepts. Whether a letter starts an identifier or a piece of text
depends on the place, so that is told to `recognise`.
-/

namespace DocComment

/-- The tokens of a comment. -/
inductive Token where
  /-- A slash; it opens and closes a comment. -/
  | slash
  /-- A star behind the opening slash. -/
  | star
  /-- An at sign and a name. -/
  | tagName (c : TagClass)
  /-- A parameter of a tag. -/
  | identifier
  /-- A piece of text, on one line. -/
  | text
  /-- An opening brace and what it encloses, over any number of lines. -/
  | brace
  deriving DecidableEq

namespace Token

/-- The token is the name of a tag. -/
def isTagName : Token → Bool
  | .tagName _ => true
  | _ => false

/-- The token is running text: part of a description. -/
def isProse : Token → Bool
  | .text | .brace => true
  | _ => false

end Token

namespace Automaton

/-! ## Names of tags -/

/-- How far the name of a tag has come. -/
inductive TagNameState where
  | start
  | sign
  | name

/-- The names of tags: an at sign and letters, one at least. -/
def tagName : Automaton where
  State := TagNameState
  start := .start
  next
    | .start, g => if g = .scalar '@' then some .sign else none
    | .sign, g => if g.isLetter then some .name else none
    | .name, g => if g.isLetter then some .name else none
  final
    | .name => true
    | _ => false

/-! ## Identifiers -/

/-- How far an identifier has come. -/
inductive IdentifierState where
  | start
  | inside

/-- Identifiers: letters, dollar signs and digits, no digit in front. -/
def identifier : Automaton where
  State := IdentifierState
  start := .start
  next
    | .start, g => if g.startsIdentifier then some .inside else none
    | .inside, g => if g.continuesIdentifier then some .inside else none
  final
    | .start => false
    | .inside => true

/-! ## Braces -/

/-- How far a brace has come. -/
inductive BraceState where
  | start
  | opened
  | inside
  | closed

/-- What a brace may enclose: anything but an at sign or a closing brace, line feeds too. -/
def isEnclosed (g : Glyph) : Bool :=
  !(g == .scalar '@' || g == .scalar '}' || g.isNull)

/-- Braces: an opening brace, one enclosed glyph at least, and the closing brace if it is there. -/
def brace : Automaton where
  State := BraceState
  start := .start
  next
    | .start, g => if g = .scalar '{' then some .opened else none
    | .opened, g => if isEnclosed g then some .inside else none
    | .inside, g =>
      if g = .scalar '}' then some .closed
      else if isEnclosed g then some .inside else none
    | .closed, _ => none
  final
    | .inside | .closed => true
    | _ => false

/-! ## Text -/

/-- How far a piece of text has come. Stars are taken in only behind a stretch that holds, after the
first glyph or after the stars before, a glyph other than a slash to start it. -/
inductive TextState where
  | start
  /-- The first glyph, and slashes only. -/
  | lead
  /-- A stretch that stars may end. -/
  | body
  /-- The stars at the end of a stretch. -/
  | stars
  /-- A further stretch, which counts only if stars end it. -/
  | again

/-- What no piece of text holds: braces and the line feed. -/
def breaksText (g : Glyph) : Bool :=
  g == .scalar '{' || g == .scalar '}' || g == .scalar '\n' || g.isNull

/-- What a piece of text may start with. -/
def startsText (g : Glyph) : Bool :=
  !(g.isBlank || breaksText g || g == .scalar '*' || g == .scalar '@')

/-- Text: a glyph that may start it and a stretch without stars, then any number of stretches that do not
start with a slash and end in stars. -/
def text : Automaton where
  State := TextState
  start := .start
  next
    | .start, g => if startsText g then some .lead else none
    | .lead, g =>
      if breaksText g || g == .scalar '*' then none
      else if g = .scalar '/' then some .lead else some .body
    | .body, g =>
      if breaksText g then none
      else if g = .scalar '*' then some .stars else some .body
    | .stars, g =>
      if breaksText g || g == .scalar '/' then none
      else if g = .scalar '*' then some .stars else some .again
    | .again, g =>
      if breaksText g then none
      else if g = .scalar '*' then some .stars else some .again
  final
    | .lead | .body | .stars => true
    | _ => false

end Automaton

/-! ## Recognition -/

/-- What stands at the front of the rest of a source. -/
inductive Lookahead where
  | token (t : Token)
  | endOfInput
  /-- Nothing that any token starts with. -/
  | unrecognised
  deriving DecidableEq

/-- The token at the front of the input, which no blank precedes, and the length of its lexeme. A letter or
a dollar sign starts an identifier only where `identifiers` are looked for. -/
def recognise (identifiers : Bool) (input : List Glyph) : Lookahead × Nat :=
  let found (t : Nat → Token) : Option Nat → Lookahead × Nat
    | some n => (.token (t n), n)
    | none => (.unrecognised, 0)
  match input with
  | [] => (.endOfInput, 0)
  | g :: _ =>
    if g = .scalar '/' then (.token .slash, 1)
    else if g = .scalar '*' then (.token .star, 1)
    else if g = .scalar '@' then
      found (fun n => .tagName (TagClass.ofName (input.take n))) (Automaton.tagName.longest input)
    else if g = .scalar '{' then found (fun _ => .brace) (Automaton.brace.longest input)
    else if identifiers && g.startsIdentifier then
      found (fun _ => .identifier) (Automaton.identifier.longest input)
    else found (fun _ => .text) (Automaton.text.longest input)

end DocComment
