import DocComment.Text.Basic
import DocComment.Grammar.PropertyName
import DocComment.Grammar.TokenPattern.Basic

/-!
# Escapes in patterns

What may stand behind a backslash: a character by its number or its name, a property, a condition on the place,
or a mark that means itself. In a loose pattern blanks and comments are skipped, also inside an escape.
-/

namespace DocComment

namespace TokenPattern

/-! ## Skipping -/

/-- The text without the blanks and comments at its front; the first characters may belong to a comment, which
ends with its line. -/
def skipFrom : Bool → List Char → List Char
  | _, [] => []
  | true, c :: rest => skipFrom (c != '\n') rest
  | false, c :: rest =>
    if Text.isBlank c then skipFrom false rest else if c == '#' then skipFrom true rest else c :: rest

/-- The text without what a loose pattern may have at its front. -/
def skip (loose : Bool) (text : List Char) : List Char := if loose then skipFrom false text else text

/-- The text behind its first character, if there is more. -/
def next? (loose : Bool) (text : List Char) : Option (List Char) :=
  match skip loose (text.drop 1) with
  | [] => none
  | rest => some rest

/-- The characters up to a mark, and the text behind the mark; blanks and comments are left out of a loose
pattern. The first characters may belong to a comment. -/
def untilFrom (loose : Bool) (mark : Char) : Bool → List Char → Option (List Char × List Char)
  | _, [] => none
  | true, c :: rest => untilFrom loose mark (c != '\n') rest
  | false, c :: rest =>
    if loose && Text.isBlank c then untilFrom loose mark false rest
    else if loose && c == '#' then untilFrom loose mark true rest
    else if c == mark then some ([], rest)
    else (untilFrom loose mark false rest).map fun (inside, rest) => (c :: inside, rest)

def until? (loose : Bool) (mark : Char) (text : List Char) : Option (List Char × List Char) :=
  untilFrom loose mark false text

/-- So many characters, and the text behind them. -/
def take? (loose : Bool) : Nat → List Char → Option (List Char × List Char)
  | 0, text => some ([], text)
  | _ + 1, [] => none
  | n + 1, c :: rest => (take? loose n (skip loose rest)).map fun (taken, rest) => (c :: taken, rest)

/-! ## Escapes -/

/-- What an escape is. -/
inductive Escape where
  | letter (l : PatternLetter)
  | property (isAscii : Bool)
  | assertion

/-- The character whose number hexadecimal digits spell, one at least. -/
def hexChar? (digits : List Char) : Option Char := do
  let n ← Digits.hexadecimal? digits
  if !digits.isEmpty && n.isValidChar then some (Char.ofNat n) else none

/-- A character by its number: in braces, or with a fixed count of digits. -/
def hexEscape? (loose : Bool) (width : Nat) (text : List Char) : Option (Escape × List Char) :=
  match skip loose text with
  | '\x7b' :: rest => do
    let (digits, rest) ← until? loose '\x7d' rest
    return (.letter ⟨← hexChar? digits, false⟩, skip loose rest)
  | rest => do
    let (digits, rest) ← take? loose width rest
    return (.letter ⟨← hexChar? digits, width == 2⟩, rest)

/-- The first place at which a text begins with a mark splits it; the mark belongs to neither part. -/
def splitAt? (mark : List Char) : List Char → Option (List Char × List Char)
  | [] => none
  | c :: rest =>
    if mark.isPrefixOf (c :: rest) then some ([], (c :: rest).drop mark.length)
    else (splitAt? mark rest).map fun (before, after) => (c :: before, after)

/-- Whether the property that a text asks for holds of ASCII characters alone, if there is such a property. A
value may be asked for or ruled out. -/
def property? (text : List Char) : Option Bool :=
  let value (name value : List Char) : Option Bool :=
    if PropertyName.isKnownValue name value then some (PropertyName.isAscii value) else none
  match splitAt? ['!', '='] text with
  | some (name, v) => (value name v).map fun _ => false
  | none =>
    match splitAt? [':'] text <|> splitAt? ['='] text with
    | some (name, v) => value name v
    | none => if PropertyName.isKnown text then some (PropertyName.isAscii text) else none

/-- A property by its name: one letter, or a text in braces. -/
def propertyEscape? (loose isNegated : Bool) (text : List Char) : Option (Escape × List Char) := do
  let (name, rest) ← match skip loose text with
    | '\x7b' :: rest => until? loose '\x7d' rest
    | c :: rest => if c == '\\' then none else some ([c], skip loose rest)
    | [] => none
  return (.property (!isNegated && (← property? name)), rest)

/-- The conditions on the edge of a word that have a name. -/
def wordEdges : List String := ["start", "end", "start-half", "end-half"]

/-- A condition on the edge of a word, which may go by a name in braces. Braces that begin with no letter belong to
what follows. -/
def wordEdge? (loose : Bool) (text : List Char) : Option (Escape × List Char) :=
  let isOfName (c : Char) : Bool := c.isAlpha || c == '-'
  match text with
  | '\x7b' :: _ => do
    let inside ← next? loose text
    if inside.head?.any isOfName then
      let (name, rest) ← until? loose '\x7d' inside
      if wordEdges.contains (String.ofList name) then some (.assertion, rest) else none
    else some (.assertion, text)
  | _ => some (.assertion, text)

/-- A mark that means itself behind a backslash: any ASCII character but letters, digits and angle brackets. -/
def isEscapable (c : Char) : Bool := c.toNat < 128 && !c.isAlphanum && c != '<' && c != '>'

/-- The escape behind a backslash, and the text behind the escape. -/
def escape? (loose : Bool) : List Char → Option (Escape × List Char)
  | [] => none
  | c :: rest =>
    let plain (c : Char) := some (Escape.letter ⟨c, false⟩, rest)
    match c with
    | 'a' => plain '\x07'
    | 'f' => plain '\x0c'
    | 'n' => plain '\n'
    | 'r' => plain '\r'
    | 't' => plain '\t'
    | 'v' => plain '\x0b'
    | 'x' => hexEscape? loose 2 rest
    | 'u' => hexEscape? loose 4 rest
    | 'U' => hexEscape? loose 8 rest
    | 'p' => propertyEscape? loose false rest
    | 'P' => propertyEscape? loose true rest
    | 'b' => wordEdge? loose rest
    | 'A' | 'z' | 'B' | '<' | '>' => some (.assertion, rest)
    | c => if isEscapable c then plain c else none

end TokenPattern

end DocComment
