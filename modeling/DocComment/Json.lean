import DocComment.Text.Basic

/-!
# JSON texts

JSON values, their text in an indented layout, and the reading of a text. A text is first split into
words; the words then drive a stack of the containers that are open. Objects keep their members in order,
repeated keys too; `settled` lets the last value of a key stand in the place of the first. What has the form
of a value but stands for none is kept as such; `isSound` tells whether a value can be used throughout.
-/

namespace DocComment

/-- A JSON value. A number that is no integer keeps its spelling. -/
inductive Json where
  | null
  | bool (b : Bool)
  | integer (n : Int)
  | decimal (spelling : String)
  | string (s : String)
  | array (items : List Json)
  | object (members : List (String × Json))
  /-- What has the form of a value and stands for none: a text or a key with half of a surrogate pair, or a
  number that is too great. -/
  | unreadable

namespace Json

/-! ## Writing -/

/-- The hexadecimal digits of a number, four of them. -/
def fourDigits (n : Nat) : List Char :=
  [n / 4096, n / 256, n / 16, n].map fun d => Nat.digitChar (d % 16)

/-- A character as it is written inside a string. -/
def escaped (c : Char) : List Char :=
  if c == '"' || c == '\\' then ['\\', c]
  else if c == '\n' then ['\\', 'n']
  else if c == '\r' then ['\\', 'r']
  else if c == '\t' then ['\\', 't']
  else if c.toNat == 8 then ['\\', 'b']
  else if c.toNat == 12 then ['\\', 'f']
  else if c.toNat < 32 then '\\' :: 'u' :: fourDigits c.toNat
  else [c]

def quoted (s : String) : String := "\"" ++ String.ofList (s.toList.flatMap escaped) ++ "\""

/-- A line feed and the indentation of a depth. -/
def newline (depth : Nat) : String := "\n" ++ String.ofList (List.replicate (2 * depth) ' ')

mutual

/-- The indented text of a value at a depth. -/
def layout (depth : Nat) : Json → String
  | .null | .unreadable => "null"
  | .bool b => if b then "true" else "false"
  | .integer n => toString n
  | .decimal spelling => spelling
  | .string s => quoted s
  | .array [] => "[]"
  | .array (item :: rest) =>
    "[" ++ newline (depth + 1) ++ layout (depth + 1) item ++ layoutItems (depth + 1) rest
      ++ newline depth ++ "]"
  | .object [] => "\x7b\x7d"
  | .object ((key, value) :: rest) =>
    "\x7b" ++ newline (depth + 1) ++ quoted key ++ ": " ++ layout (depth + 1) value
      ++ layoutMembers (depth + 1) rest ++ newline depth ++ "\x7d"

def layoutItems (depth : Nat) : List Json → String
  | [] => ""
  | item :: rest => "," ++ newline depth ++ layout depth item ++ layoutItems depth rest

def layoutMembers (depth : Nat) : List (String × Json) → String
  | [] => ""
  | (key, value) :: rest =>
    "," ++ newline depth ++ quoted key ++ ": " ++ layout depth value ++ layoutMembers depth rest

end

/-- The text of a value, which ends its last line. -/
def text (v : Json) : String := layout 0 v ++ "\n"

/-! ## Words -/

/-- A word of a JSON text. -/
inductive Word where
  | openArray
  | closeArray
  | openObject
  | closeObject
  | comma
  | colon
  | scalar (v : Json)

/-- The number that four hexadecimal digits at the front spell. -/
def fourDigits? (input : List Char) : Option Nat :=
  if (input.take 4).length < 4 then none else Digits.hexadecimal? (input.take 4)

/-- The character that an escape stands for, and how long the escape is behind its backslash. A character
beyond U+FFFF takes two escapes, a high half and a low half; one half alone stands for no character. -/
def escape? : List Char → Option (Option Char × Nat)
  | '"' :: _ => some ('"', 1)
  | '\\' :: _ => some ('\\', 1)
  | '/' :: _ => some ('/', 1)
  | 'b' :: _ => some ('\x08', 1)
  | 'f' :: _ => some ('\x0c', 1)
  | 'n' :: _ => some ('\n', 1)
  | 'r' :: _ => some ('\r', 1)
  | 't' :: _ => some ('\t', 1)
  | 'u' :: digits => do
    let n ← fourDigits? digits
    if 0xD800 ≤ n && n ≤ 0xDBFF then
      let low :=
        match digits.drop 4 with
        | '\\' :: 'u' :: more => (fourDigits? more).filter fun low => 0xDC00 ≤ low && low ≤ 0xDFFF
        | _ => none
      match low with
      | some low => some (Char.ofNat (0x10000 + (n - 0xD800) * 0x400 + (low - 0xDC00)), 11)
      | none => some (none, 5)
    else if 0xDC00 ≤ n && n ≤ 0xDFFF then some (none, 5)
    else some (Char.ofNat n, 5)
  | _ => none

/-- Puts a character before others, if all of them are known. -/
def before (c : Option Char) (s : Option (List Char)) : Option (List Char) := do return (← c) :: (← s)

/-- The characters of a string behind its opening quote, if they are all known, and how long it is with its
closing quote. The first `passing` characters belong to an escape already read. -/
def stringFrom : Nat → List Char → Option (Option (List Char) × Nat)
  | _, [] => none
  | passing + 1, _ :: rest => (stringFrom passing rest).map fun (s, n) => (s, n + 1)
  | 0, '"' :: _ => some (some [], 1)
  | 0, '\\' :: rest =>
    match escape? rest with
    | some (c, passing) => (stringFrom passing rest).map fun (s, n) => (before c s, n + 1)
    | none => none
  | 0, c :: rest =>
    if c.toNat < 32 then none else (stringFrom 0 rest).map fun (s, n) => (before c s, n + 1)

/-- A mark at the front and the digits behind it, one at least; nothing if the mark is not there. -/
def markedDigits? (isMark : Char → Bool) (signed : Bool) (input : List Char) : Option (List Char) :=
  match input with
  | c :: rest =>
    if isMark c then
      let sign := if signed then rest.takeWhile (fun c => c == '+' || c == '-') else []
      let digits := (rest.drop sign.length).takeWhile Char.isDigit
      if sign.length ≤ 1 && !digits.isEmpty then some (c :: sign ++ digits) else none
    else some []
  | [] => some []

/-- The least size of a number that is too great: halfway from the greatest double to the next power of two. -/
def sizeLimit : Nat := Nat.pow 2 1024 - Nat.pow 2 970

/-- Whether digits scaled by a power of ten reach the size limit. The power is computed only where the number
of digits leaves it open. -/
def isTooGreat (digits : List Char) (scale : Int) : Bool :=
  let digits := digits.dropWhile (· == '0')
  let top := digits.length + scale
  if digits.isEmpty || top < 300 then false
  else if top > 310 then true
  else
    let n := Digits.decimal digits
    if scale < 0 then sizeLimit * Nat.pow 10 scale.natAbs ≤ n else sizeLimit ≤ n * Nat.pow 10 scale.natAbs

/-- The power of ten that an exponent with its mark asks for. -/
def power (exponent : List Char) : Int :=
  match exponent.drop 1 with
  | '-' :: digits => -(Digits.decimal digits : Int)
  | '+' :: digits => Digits.decimal digits
  | digits => Digits.decimal digits

/-- The number at the front, and how long it is: an integer part without needless zeros, a fraction, and
an exponent. A number with one of the last two is no integer, nor is a negative zero. -/
def number? (input : List Char) : Option (Json × Nat) := do
  let sign := if input.head? == some '-' then ['-'] else []
  let digits := (input.drop sign.length).takeWhile Char.isDigit
  if digits.isEmpty || (digits.length > 1 && digits.head? == some '0') then none
  else
    let whole := sign ++ digits
    let fraction ← markedDigits? (· == '.') false (input.drop whole.length)
    let exponent ← markedDigits? (fun c => c == 'e' || c == 'E') true
      (input.drop (whole ++ fraction).length)
    let spelling := whole ++ fraction ++ exponent
    let n := Digits.decimal digits
    let value :=
      if isTooGreat (digits ++ fraction.drop 1) (power exponent - (fraction.drop 1).length) then .unreadable
      else if spelling.length > whole.length || (!sign.isEmpty && n == 0) then
        .decimal (String.ofList spelling)
      else .integer (if sign.isEmpty then n else -n)
    some (value, spelling.length)

/-- The value of a string whose characters may not be known. -/
def ofCharacters : Option (List Char) → Json
  | some s => .string (String.ofList s)
  | none => .unreadable

/-- The word at the front, and how long it is. -/
def word? (input : List Char) : Option (Word × Nat) :=
  match input with
  | '[' :: _ => some (.openArray, 1)
  | ']' :: _ => some (.closeArray, 1)
  | '\x7b' :: _ => some (.openObject, 1)
  | '\x7d' :: _ => some (.closeObject, 1)
  | ',' :: _ => some (.comma, 1)
  | ':' :: _ => some (.colon, 1)
  | '"' :: rest => (stringFrom 0 rest).map fun (s, n) => (.scalar (ofCharacters s), n + 1)
  | _ =>
    if "true".toList.isPrefixOf input then some (.scalar (.bool true), 4)
    else if "false".toList.isPrefixOf input then some (.scalar (.bool false), 5)
    else if "null".toList.isPrefixOf input then some (.scalar .null, 4)
    else (number? input).map fun (v, n) => (.scalar v, n)

/-- What may stand between words. -/
def isBlank (c : Char) : Bool := c == ' ' || c == '\t' || c == '\n' || c == '\r'

/-- The words of a text, where the first `passing` characters belong to a word already read. -/
def wordsFrom : Nat → List Char → Option (List Word)
  | _, [] => some []
  | passing + 1, _ :: rest => wordsFrom passing rest
  | 0, c :: rest =>
    if isBlank c then wordsFrom 0 rest
    else
      match word? (c :: rest) with
      | some (w, n) => (wordsFrom (n - 1) rest).map fun more => w :: more
      | none => none

/-! ## Values -/

/-- A container that is open, its contents so far in reverse. -/
inductive Frame where
  | array (items : List Json)
  /-- The key is that of the member being read. One key that cannot be read spoils the object. -/
  | object (members : List (String × Json)) (key : String) (spoiled : Bool)

/-- What may come next. -/
inductive Expected where
  | value
  | valueOrClose
  | key
  | keyOrClose
  | colon
  | commaOrClose
  /-- Nothing; the whole value was read. -/
  | nothing (v : Json)

/-- Takes in a value that is complete. -/
def complete (v : Json) : List Frame → List Frame × Expected
  | [] => ([], .nothing v)
  | .array items :: outer => (.array (v :: items) :: outer, .commaOrClose)
  | .object members key spoiled :: outer =>
    (.object ((key, v) :: members) key spoiled :: outer, .commaOrClose)

def start (w : Word) (frames : List Frame) : Option (List Frame × Expected) :=
  match w with
  | .scalar v => some (complete v frames)
  | .openArray => some (.array [] :: frames, .valueOrClose)
  | .openObject => some (.object [] "" false :: frames, .keyOrClose)
  | _ => none

def takeKey (w : Word) (frames : List Frame) : Option (List Frame × Expected) :=
  match w, frames with
  | .scalar (.string key), .object members _ spoiled :: outer =>
    some (.object members key spoiled :: outer, .colon)
  | .scalar .unreadable, .object members _ _ :: outer => some (.object members "" true :: outer, .colon)
  | _, _ => none

def close (w : Word) (frames : List Frame) : Option (List Frame × Expected) :=
  match w, frames with
  | .closeArray, .array items :: outer => some (complete (.array items.reverse) outer)
  | .closeObject, .object members _ spoiled :: outer =>
    some (complete (if spoiled then .unreadable else .object members.reverse) outer)
  | _, _ => none

def takeWord (state : List Frame × Expected) (w : Word) : Option (List Frame × Expected) :=
  let (frames, expected) := state
  match expected, w, frames with
  | .value, w, _ => start w frames
  | .valueOrClose, .closeArray, _ => close w frames
  | .valueOrClose, w, _ => start w frames
  | .key, w, _ => takeKey w frames
  | .keyOrClose, .closeObject, _ => close w frames
  | .keyOrClose, w, _ => takeKey w frames
  | .colon, .colon, _ => some (frames, .value)
  | .commaOrClose, .comma, .array _ :: _ => some (frames, .value)
  | .commaOrClose, .comma, .object _ _ _ :: _ => some (frames, .key)
  | .commaOrClose, w, _ => close w frames
  | _, _, _ => none

/-- The value that a text spells: one value and nothing else but blanks. -/
def ofText? (text : List Char) : Option Json :=
  match (wordsFrom 0 text).bind fun words => words.foldlM takeWord ([], .value) with
  | some (_, .nothing v) => some v
  | _ => none

/-! ## Soundness -/

mutual

/-- Every part of a value is readable, and containers stand in each other no deeper than given. -/
def isSound (depth : Nat) : Json → Bool
  | .unreadable => false
  | .array items => depth != 0 && areSound (depth - 1) items
  | .object members => depth != 0 && areMembersSound (depth - 1) members
  | _ => true

def areSound (depth : Nat) : List Json → Bool
  | [] => true
  | item :: rest => isSound depth item && areSound depth rest

def areMembersSound (depth : Nat) : List (String × Json) → Bool
  | [] => true
  | (_, value) :: rest => isSound depth value && areMembersSound depth rest

end

/-! ## Members -/

/-- Puts a member among others: its value takes the place of an earlier one of the same key. -/
def put {α : Type} (members : List (String × α)) (key : String) (value : α) : List (String × α) :=
  if members.any fun m => m.1 == key then members.map fun m => if m.1 == key then (key, value) else m
  else members ++ [(key, value)]

mutual

/-- The value in which no key of an object is repeated; the last of its values stays. -/
def settled : Json → Json
  | .array items => .array (settledItems items)
  | .object members => .object (settledMembers [] members)
  | v => v

def settledItems : List Json → List Json
  | [] => []
  | item :: rest => settled item :: settledItems rest

/-- Puts members without repeated keys among those already there. -/
def settledMembers (done : List (String × Json)) : List (String × Json) → List (String × Json)
  | [] => done
  | (key, value) :: rest => settledMembers (put done key (settled value)) rest

end

end Json

end DocComment
