import DocComment.Text.NameCharacter
import DocComment.Grammar.TokenPattern.ClassReading

/-!
# Reading patterns

A pattern is read part by part; the groups that are open are kept on a stack. A flag makes a pattern loose: then
blanks and comments may stand between its parts, up to the end of the group.
-/

namespace DocComment

namespace TokenPattern

/-! ## Groups -/

/-- Whether a name may be given to a group. -/
def isGroupName : List Char → Bool
  | [] => false
  | c :: rest =>
    (c == '_' || NameCharacter.isLetter c)
      && rest.all fun c => "_.[]".toList.contains c || NameCharacter.isLetter c || NameCharacter.isNumber c

/-- Flags from a fixed set, none twice, and a hyphen before those that are taken away. -/
def flags? (text : List Char) : Option PatternFlags :=
  if text.all (fun c => "imsUuRx-".toList.contains c) && text.eraseDups.length == text.length
      && text.getLast? != some '-' then
    let set := text.takeWhile (· != '-')
    some ⟨set, text.drop (set.length + 1)⟩
  else none

/-- The head of a group. Flags alone open no group. -/
inductive GroupHead where
  | flags (f : PatternFlags)
  | plain (f : PatternFlags)
  | remembered (name : Option (List Char))

/-- The head of a group behind its parenthesis, and the text behind it. -/
def groupHead? (loose : Bool) (text : List Char) : Option (GroupHead × List Char) :=
  let named (text : List Char) : Option (GroupHead × List Char) := do
    let (name, rest) ← until? false '>' text
    if isGroupName name then some (.remembered (some name), rest) else none
  match skip loose text with
  | '?' :: 'P' :: '<' :: rest => named rest
  | '?' :: '<' :: rest => named rest
  | '?' :: rest => do
    let letters := rest.takeWhile fun c => c != ':' && c != ')'
    let f ← flags? letters
    match rest.drop letters.length with
    | ':' :: rest => some (.plain f, rest)
    | ')' :: rest => if letters.isEmpty then none else some (.flags f, rest)
    | _ => none
  | rest => some (.remembered none, rest)

/-! ## Counts -/

/-- The digits at the front, and the text behind them; blanks and comments between digits are left out of a loose
pattern. The first characters may belong to a comment. -/
def digitsFrom (loose : Bool) : Bool → List Char → List Char × List Char
  | _, [] => ([], [])
  | true, c :: rest => digitsFrom loose (c != '\n') rest
  | false, c :: rest =>
    if c.isDigit then
      let (digits, rest) := digitsFrom loose false rest
      (c :: digits, rest)
    else if loose && Text.isBlank c then digitsFrom loose false rest
    else if loose && c == '#' then digitsFrom loose true rest
    else ([], c :: rest)

/-- The number at the front, with blanks around it, and the text behind it. -/
def count? (loose : Bool) (text : List Char) : Option (Nat × List Char) :=
  let (digits, rest) := digitsFrom loose false (text.dropWhile Text.isBlank)
  let n := Digits.decimal digits
  if digits.isEmpty || n ≥ 0x100000000 then none else some (n, rest.dropWhile Text.isBlank)

/-- A repetition, which a question mark behind it makes a lazy one, and the text behind that. -/
def countBefore (least : Nat) (most : Option Nat) : List Char → PatternCount × List Char
  | '?' :: rest => (⟨least, most, true⟩, rest)
  | text => (⟨least, most, false⟩, text)

/-- The repetition behind its brace, and the text behind it. -/
def bracedCount? (loose : Bool) (text : List Char) : Option (PatternCount × List Char) := do
  let (least, rest) ← count? loose (skip loose text)
  let (most, rest) ← match rest with
    | ',' :: rest =>
      match skip loose rest with
      | '\x7d' :: rest => some (none, '\x7d' :: rest)
      | rest => (count? loose rest).map fun (most, rest) => (some most, rest)
    | rest => some (some least, rest)
  match rest with
  | '\x7d' :: rest =>
    if most.all fun m => least ≤ m then some (countBefore least most (skip loose rest)) else none
  | _ => none

/-! ## Patterns -/

/-- A group that is open, with what was read before it, the last part and branch first. -/
structure PatternFrame where
  parts : List TokenPattern
  branches : List TokenPattern
  loose : Bool
  head : PatternFlags
  isRemembered : Bool

/-- How far a pattern was read: the parts of the branch and the branches of the group being read, the last first,
the groups around it, and the names of groups. -/
structure PatternState where
  parts : List TokenPattern
  branches : List TokenPattern
  frames : List PatternFrame
  names : List (List Char)
  loose : Bool

namespace PatternState

def start : PatternState := ⟨[], [], [], [], false⟩

def push (s : PatternState) (p : TokenPattern) : PatternState := { s with parts := p :: s.parts }

def content (s : PatternState) : TokenPattern :=
  ofBranches (ofParts s.parts.reverse :: s.branches).reverse

/-- Repeats the last part, which must be more than flags; the text behind the repetition stays. -/
def repeated (s : PatternState) (counted : PatternCount × List Char) : Option (PatternState × List Char) :=
  match s.parts with
  | [] | .flags _ :: _ => none
  | p :: before => some ({ s with parts := .repetition counted.1 p :: before }, counted.2)

/-- Opens a group. No two groups may have the same name. -/
def enter (s : PatternState) (f : PatternFlags) (isRemembered : Bool) (name : Option (List Char)) :
    Option PatternState :=
  if name.any s.names.contains then none
  else
    some ⟨[], [], ⟨s.parts, s.branches, s.loose, f, isRemembered⟩ :: s.frames, name.toList ++ s.names,
      f.apply 'x' s.loose⟩

def leave (s : PatternState) : Option PatternState :=
  match s.frames with
  | [] => none
  | frame :: frames =>
    some ⟨.group frame.head frame.isRemembered s.content :: frame.parts, frame.branches, frames, s.names,
      frame.loose⟩

/-- Reads the next part of a pattern from the text, whose first character is given by itself. -/
def read (s : PatternState) (c : Char) (rest : List Char) : Option (PatternState × List Char) :=
  match c with
  | '(' => do
    match ← groupHead? s.loose rest with
    | (.flags f, rest) => some ({ s.push (.flags f) with loose := f.apply 'x' s.loose }, rest)
    | (.plain f, rest) => return (← s.enter f false none, rest)
    | (.remembered name, rest) => return (← s.enter ⟨[], []⟩ true name, rest)
  | ')' => s.leave.map fun s => (s, rest)
  | '|' => some ({ s with parts := [], branches := ofParts s.parts.reverse :: s.branches }, rest)
  | '[' => (class? s.loose rest).map fun (p, rest) => (s.push p, rest)
  | '?' => s.repeated (countBefore 0 (some 1) rest)
  | '*' => s.repeated (countBefore 0 none rest)
  | '+' => s.repeated (countBefore 1 none rest)
  | '\x7b' => (bracedCount? s.loose rest).bind s.repeated
  | '\\' => do
    match ← escape? s.loose rest with
    | (.letter l, rest) => some (s.push (.letter l), rest)
    | (.property isAscii, rest) => some (s.push (.property isAscii), rest)
    | (.assertion, rest) => some (s.push .assertion, rest)
  | '.' => some (s.push .dot, rest)
  | '^' | '$' => some (s.push .assertion, rest)
  | c => some (s.push (.letter ⟨c, false⟩), rest)

end PatternState

/-- Reads a pattern to its end. -/
def readFrom : Nat → PatternState → List Char → Option TokenPattern
  | 0, _, _ => none
  | fuel + 1, s, text =>
    match skip s.loose text with
    | [] => if s.frames.isEmpty then some s.content else none
    | c :: rest =>
      match s.read c rest with
      | some (s, rest) => readFrom fuel s rest
      | none => none

/-- The pattern that a text spells, if it is not too deep. -/
def ofText? (text : List Char) : Option TokenPattern :=
  (readFrom (text.length + 1) .start text).filter fun p => p.depth ≤ depthLimit

end TokenPattern

end DocComment
