import DocComment.Grammar.TokenPattern.Escape

/-!
# Reading character classes

A character class is read from its opening bracket to the closing one. Classes may stand in classes, and operations
between parts of a class; what is open is kept on a stack.
-/

namespace DocComment

namespace TokenPattern

/-- The names of ASCII classes. -/
def asciiClasses : List String :=
  ["alnum", "alpha", "ascii", "blank", "cntrl", "digit", "graph", "lower", "print", "punct", "space",
    "upper", "word", "xdigit"]

/-- The ASCII class behind its bracket, such as `:alpha:]`, and the text behind it. -/
def asciiClass? : List Char → Option (CharacterClass × List Char)
  | ':' :: rest => do
    let isNegated := rest.head? == some '^'
    let (name, rest) ← until? false ':' (if isNegated then rest.drop 1 else rest)
    if asciiClasses.contains (String.ofList name) && rest.head? == some ']' then
      some (.ascii (String.ofList name) isNegated, rest.drop 1)
    else none
  | _ => none

/-- One member of a class, and the text behind it. -/
def classItem? (loose : Bool) : List Char → Option (CharacterClass × List Char)
  | [] => none
  | '\\' :: rest =>
    match escape? loose rest with
    | some (.letter l, rest) => some (.letter l, rest)
    | some (.property isAscii, rest) => some (.property isAscii, rest)
    | _ => none
  | c :: rest => some (.letter ⟨c, false⟩, rest)

/-- The character that comes after a hyphen. A loose pattern is looked at behind blanks, and behind the sign of one
comment, as far as there is anything. -/
def behindHyphen? (loose : Bool) (text : List Char) : Option Char :=
  let found :=
    match text.dropWhile Text.isBlank with
    | '#' :: rest => (rest.dropWhile Text.isBlank).head?
    | rest => rest.head?
  if loose then found <|> text.head? else text.head?

/-- A member of a class or a range of characters, whose ends must be in order, and the text behind it. -/
def classRange? (loose : Bool) (text : List Char) : Option (CharacterClass × List Char) := do
  let (low, rest) ← classItem? loose text
  match skip loose rest with
  | [] => none
  | '-' :: after =>
    let behind := behindHyphen? loose after
    if behind == some ']' || behind == some '-' then some (low, '-' :: after)
    else
      let (high, rest) ← classItem? loose (skip loose after)
      match low, high with
      | .letter l, .letter h => if l.char ≤ h.char then some (.range l h, rest) else none
      | _, _ => none
  | rest => some (low, rest)

/-- What is open around the members that are being read: a bracket with the members before it, the last one first, or
an operation with what stands to its left. -/
inductive ClassFrame where
  | bracket (isNegated : Bool) (before : List CharacterClass)
  | operand (o : ClassOperation) (left : CharacterClass)

/-- The hyphens at the front that mean themselves, and the text behind them. -/
def hyphens? (loose : Bool) : Nat → List Char → Option (List CharacterClass × List Char)
  | 0, _ => none
  | fuel + 1, '-' :: rest => do
    let rest ← next? loose ('-' :: rest)
    let (more, rest) ← hyphens? loose fuel rest
    return (.letter ⟨'-', false⟩ :: more, rest)
  | _, text => some ([], text)

/-- The head of a class behind its bracket: whether it is negated, the hyphens or the closing bracket that are meant
literally, and the text behind them. Something must follow. -/
def classHead? (loose : Bool) (text : List Char) : Option (Bool × List CharacterClass × List Char) := do
  let text ← next? loose ('[' :: text)
  let isNegated := text.head? == some '^'
  let text ← if isNegated then next? loose text else some text
  let (hyphens, text) ← hyphens? loose (text.length + 1) text
  if hyphens.isEmpty && text.head? == some ']' then
    return (isNegated, [.letter ⟨']', false⟩], ← next? loose text)
  else return (isNegated, hyphens, text)

/-- The operation that a sign written twice stands for. -/
def operation? : List Char → Option ClassOperation
  | '&' :: '&' :: _ => some .intersection
  | '-' :: '-' :: _ => some .difference
  | '~' :: '~' :: _ => some .symmetricDifference
  | _ => none

/-- Joins members, the last one first, with the operation they stand to the right of, if there is one. -/
def closeOperand (members : List CharacterClass) (frames : List ClassFrame) :
    CharacterClass × List ClassFrame :=
  let c := CharacterClass.ofMembers members.reverse
  match frames with
  | .operand o left :: frames => (.operation o left c, frames)
  | _ => (c, frames)

/-- The class that is open, and the text behind it. -/
def classFrom (loose : Bool) :
    Nat → List CharacterClass → List ClassFrame → List Char → Option (TokenPattern × List Char)
  | 0, _, _, _ => none
  | fuel + 1, members, frames, text =>
    let text := skip loose text
    match text, operation? text with
    | [], _ => none
    | _, some o =>
      let (left, frames) := closeOperand members frames
      classFrom loose fuel [] (.operand o left :: frames) (text.drop 2)
    | '[' :: rest, none =>
      match asciiClass? rest with
      | some (c, rest) => classFrom loose fuel (c :: members) frames rest
      | none => do
        let (isNegated, head, rest) ← classHead? loose rest
        classFrom loose fuel head (.bracket isNegated members :: frames) rest
    | ']' :: rest, none =>
      match closeOperand members frames with
      | (c, [.bracket isNegated _]) => some (.bracketed isNegated c, rest)
      | (c, .bracket isNegated before :: frames) =>
        classFrom loose fuel (.bracketed isNegated c :: before) frames rest
      | _ => none
    | _, none => do
      let (c, rest) ← classRange? loose text
      classFrom loose fuel (c :: members) frames rest

/-- The class behind an opening bracket, and the text behind the class. -/
def class? (loose : Bool) (text : List Char) : Option (TokenPattern × List Char) := do
  let (isNegated, head, rest) ← classHead? loose text
  classFrom loose (rest.length + 1) head.reverse [.bracket isNegated []] rest

end TokenPattern

end DocComment
