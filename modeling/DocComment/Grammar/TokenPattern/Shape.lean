import DocComment.Source.Glyph
import DocComment.Grammar.TokenPattern.Basic

/-!
# Shapes of patterns

What decides whether a pattern can describe a token is its shape: where it has a text of its own, and where it asks
for a place. A pattern that is not about characters speaks of bytes, and texts side by side are one text; all texts
must be texts of characters in the end. Parts that match the empty text alone drop out.
-/

namespace DocComment

/-- The shape of a pattern. One of several bytes, or of several ASCII characters, is `narrow`, with a set of binary digits
if it is known; a `place` is a condition on the place. -/
inductive PatternShape where
  | nothing
  | text (bytes : List UInt8)
  | narrow (isUnicode : Bool) (members : Option Nat)
  | wide
  | place
  | repeated (count : PatternCount) (content : PatternShape)
  | remembered (content : PatternShape)
  | sequence (parts : List PatternShape)
  | alternation (branches : List PatternShape)

namespace PatternShape

mutual

/-- Only the empty text can match. -/
def isWeightless : PatternShape → Bool
  | .nothing | .place => true
  | .text _ | .narrow _ _ | .wide => false
  | .repeated _ content | .remembered content => isWeightless content
  | .sequence parts => areWeightless parts
  | .alternation branches => areWeightless branches

def areWeightless : List PatternShape → Bool
  | [] => true
  | s :: rest => isWeightless s && areWeightless rest

end

mutual

/-- All texts are texts of characters, and there is no condition on a place. -/
def isSound : PatternShape → Bool
  | .nothing | .narrow _ _ | .wide => true
  | .text bytes => (Glyph.text? (Glyph.decode bytes)).isSome
  | .place => false
  | .repeated _ content | .remembered content => isSound content
  | .sequence parts => areSound parts
  | .alternation branches => areSound branches

def areSound : List PatternShape → Bool
  | [] => true
  | s :: rest => isSound s && areSound rest

end

mutual

/-- Two shapes are known to be the same. No two groups that are remembered are. -/
def isSame : PatternShape → PatternShape → Bool
  | .text a, .text b => a == b
  | .narrow isUnicode (some m), .narrow isUnicode' (some n) => isUnicode == isUnicode' && m == n
  | .repeated m a, .repeated n b => m == n && isSame a b
  | .sequence as, .sequence bs | .alternation as, .alternation bs => areSame as bs
  | _, _ => false

def areSame : List PatternShape → List PatternShape → Bool
  | [], [] => true
  | a :: as, b :: bs => isSame a b && areSame as bs
  | _, _ => false

end

mutual

/-- How many shapes there are in a shape, itself included. -/
def size : PatternShape → Nat
  | .repeated _ content | .remembered content => size content + 1
  | .sequence parts => sizeOfAll parts + 1
  | .alternation branches => sizeOfAll branches + 1
  | _ => 1

def sizeOfAll : List PatternShape → Nat
  | [] => 0
  | s :: rest => size s + sizeOfAll rest

end

/-- A repetition. What matches the empty text alone need not be repeated, and what is not to match at all drops
out. -/
def times (count : PatternCount) (s : PatternShape) : PatternShape :=
  let count :=
    if s.isWeightless then
      { count with least := Nat.min count.least 1, most := some (Nat.min (count.most.getD 1) 1) }
    else count
  if count.least = 0 && count.most = some 0 then .nothing
  else if count.least = 1 && count.most = some 1 then s
  else .repeated count s

def parts : PatternShape → List PatternShape
  | .nothing => []
  | .sequence parts => parts
  | s => [s]

/-- Puts a part before others; two texts become one. -/
def before (s : PatternShape) (rest : List PatternShape) : List PatternShape :=
  match s, rest with
  | .text a, .text b :: rest => .text (a ++ b) :: rest
  | s, rest => s :: rest

/-- One shape after the other. -/
def inTurn (shapes : List PatternShape) : PatternShape :=
  match (shapes.flatMap parts).foldr before [] with
  | [] => .nothing
  | [s] => s
  | parts => .sequence parts

def branches : PatternShape → List PatternShape
  | .alternation branches => branches
  | s => [s]

/-- One byte, whichever. -/
def isByte : PatternShape → Bool
  | .narrow _ _ | .text [_] => true
  | _ => false

/-- One character, whichever. -/
def isCharacter : PatternShape → Bool
  | .narrow isUnicode members => isUnicode || members.any (· < 1 <<< 128)
  | .wide => true
  | .text bytes => (Glyph.decode bytes).length == 1 && (Glyph.text? (Glyph.decode bytes)).isSome
  | _ => false

/-- The bytes that a shape is one of, as a set of binary digits if it is known. -/
def members? : PatternShape → Option Nat
  | .narrow _ members => members
  | .text [b] => some (1 <<< b.toNat)
  | _ => none

/-- One of some bytes or ASCII characters. Just one is a text. -/
def ofMembers (isUnicode : Bool) (members : Option Nat) : PatternShape :=
  match members with
  | some m => if m != 0 && m == 1 <<< m.log2 then .text [UInt8.ofNat m.log2] else .narrow isUnicode members
  | none => .narrow isUnicode none

/-- How many shapes two lists have in common at the front. -/
def inCommon : List PatternShape → List PatternShape → Nat
  | a :: as, b :: bs => if isSame a b then inCommon as bs + 1 else 0
  | _, _ => 0

/-- How many parts some sequences have in common at the front. -/
def shared : List PatternShape → Nat
  | .sequence first :: rest =>
    rest.foldl
      (fun n s =>
        match s with
        | .sequence parts => inCommon (first.take n) parts
        | _ => 0)
      first.length
  | _ => 0

/-- One of some shapes, of a size. Several bytes make a class of bytes, and several characters one of characters;
what sequences have in common at the front comes before the choice. -/
def oneOfSize : Nat → List PatternShape → PatternShape
  | size, shapes =>
    match size, shapes.flatMap branches with
    | _, [] => .nothing
    | _, [s] => s
    | size, found =>
      let members := (found.mapM members?).map fun sets => sets.foldl (· ||| ·) 0
      if found.all isCharacter then if found.all isByte then .ofMembers true members else .wide
      else if found.all isByte then .ofMembers false members
      else
        match size, shared found with
        | 0, _ | _, 0 => .alternation found
        | size + 1, n =>
          inTurn (((found.head?.map parts).getD []).take n
            ++ [oneOfSize size (found.map fun s => inTurn (s.parts.drop n))])

def oneOf (shapes : List PatternShape) : PatternShape := oneOfSize (sizeOfAll shapes) shapes

end PatternShape

/-! ## Classes -/

namespace CharacterClass

/-- The numbers from one to another as a set of binary digits. -/
def span (low high : Nat) : Nat := (1 <<< (high + 1)) - (1 <<< low)

/-- All bytes as a set of binary digits. -/
def allBytes : Nat := span 0 255

/-- The ASCII characters of a class as a set of binary digits. -/
def asciiBytes (name : String) : Nat :=
  let lower := span 97 122
  let upper := span 65 90
  let digit := span 48 57
  let graph := span 33 126
  match name with
  | "alnum" => lower ||| upper ||| digit
  | "alpha" => lower ||| upper
  | "ascii" => span 0 127
  | "blank" => span 9 9 ||| span 32 32
  | "cntrl" => span 0 31 ||| span 127 127
  | "digit" => digit
  | "graph" => graph
  | "lower" => lower
  | "print" => span 32 126
  | "punct" => graph ^^^ (lower ||| upper ||| digit)
  | "space" => span 9 13 ||| span 32 32
  | "upper" => upper
  | "word" => lower ||| upper ||| digit ||| span 95 95
  | "xdigit" => digit ||| span 65 70 ||| span 97 102
  | _ => 0

/-- A set of bytes with each letter in both cases. -/
def foldCase (bytes : Nat) : Nat :=
  bytes ||| ((bytes &&& span 65 90) <<< 32) ||| ((bytes &&& span 97 122) >>> 32)

/-- The byte that a letter of a class stands for, if it stands for one. -/
def byteOf (l : PatternLetter) : Option Nat :=
  if l.isPair || l.char.toNat < 128 then some l.char.toNat else none

/-- A set of bytes in both cases if asked for, and turned round if asked for. -/
def finish (ignoresCase isNegated : Bool) (bytes : Nat) : Nat :=
  let bytes := if ignoresCase then foldCase bytes else bytes
  if isNegated then allBytes ^^^ bytes else bytes

mutual

/-- The bytes of a class. It must name no property and no other character. -/
def bytes (ignoresCase : Bool) : CharacterClass → Option Nat
  | .empty => some 0
  | .letter l => (byteOf l).map fun b => span b b
  | .range low high => do return span (← byteOf low) (← byteOf high)
  | .ascii name isNegated => some (finish ignoresCase isNegated (asciiBytes name))
  | .property _ => none
  | .bracketed isNegated content => (bytes ignoresCase content).map (finish ignoresCase isNegated)
  | .union members => bytesOfAll ignoresCase members
  | .operation o left right => do
    let l := finish ignoresCase false (← bytes ignoresCase left)
    let r := finish ignoresCase false (← bytes ignoresCase right)
    match o with
    | .intersection => some (l &&& r)
    | .difference => some (l &&& (allBytes ^^^ r))
    | .symmetricDifference => some (l ^^^ r)

def bytesOfAll (ignoresCase : Bool) : List CharacterClass → Option Nat
  | [] => some 0
  | c :: rest => do return (← bytes ignoresCase c) ||| (← bytesOfAll ignoresCase rest)

end

/-- Two letters have other characters than ASCII ones for their other case. -/
def hasWideCase (c : Char) : Bool := "kKsS".toList.contains c

mutual

/-- A class holds ASCII characters alone, as far as can be told from its form. -/
def isNarrow (ignoresCase : Bool) : CharacterClass → Bool
  | .empty => true
  | .letter l => l.char.toNat < 128 && !(ignoresCase && hasWideCase l.char)
  | .range low high =>
    high.char.toNat < 128
      && !(ignoresCase && "kKsS".toList.any fun c => low.char ≤ c && c ≤ high.char)
  | .ascii name isNegated => !isNegated && !(ignoresCase && (asciiBytes name).testBit 107)
  | .property isAscii => isAscii && !ignoresCase
  | .bracketed isNegated content => !isNegated && isNarrow ignoresCase content
  | .union members => areNarrow ignoresCase members
  | .operation .intersection left right => isNarrow ignoresCase left || isNarrow ignoresCase right
  | .operation .difference left _ => isNarrow ignoresCase left
  | .operation .symmetricDifference left right => isNarrow ignoresCase left && isNarrow ignoresCase right

def areNarrow (ignoresCase : Bool) : List CharacterClass → Bool
  | [] => true
  | c :: rest => isNarrow ignoresCase c && areNarrow ignoresCase rest

end

end CharacterClass

/-! ## The shape of a pattern -/

/-- How a pattern is to be taken: the flags that hold. -/
structure PatternMode where
  flags : List Char

namespace PatternMode

def ignoresCase (m : PatternMode) : Bool := m.flags.contains 'i'

def isUnicode (m : PatternMode) : Bool := m.flags.contains 'u'

/-- The mode that flags lead to. -/
def apply (m : PatternMode) (f : PatternFlags) : PatternMode :=
  ⟨f.set ++ m.flags.filter fun c => !f.unset.contains c⟩

def letter (m : PatternMode) (l : PatternLetter) : PatternShape :=
  if !m.isUnicode && l.isPair && 128 ≤ l.char.toNat then .text [UInt8.ofNat l.char.toNat]
  else if m.ignoresCase && l.char.isAlpha then
    if m.isUnicode && CharacterClass.hasWideCase l.char then .wide
    else .narrow m.isUnicode (some (CharacterClass.foldCase (1 <<< l.char.toNat)))
  else .text (String.utf8EncodeChar l.char)

/-- The shape of a dot: any byte or character, but the end of a line only if a flag says so. -/
def dot (m : PatternMode) : PatternShape :=
  let ends :=
    if m.flags.contains 's' then 0
    else CharacterClass.span 10 10 ||| if m.flags.contains 'R' then CharacterClass.span 13 13 else 0
  if m.isUnicode then .wide else .narrow false (some (CharacterClass.allBytes ^^^ ends))

def bracketed (m : PatternMode) (isNegated : Bool) (content : CharacterClass) : Option PatternShape :=
  let c := CharacterClass.bracketed isNegated content
  let bytes := c.bytes m.ignoresCase
  if m.isUnicode then some (if c.isNarrow m.ignoresCase then .ofMembers true bytes else .wide)
  else bytes.map fun b => .ofMembers false (some b)

/-- The repetition that a count asks for. A flag makes those lazy that are not, and the other way round. -/
def count (m : PatternMode) (c : PatternCount) : PatternCount :=
  { c with isLazy := c.isLazy != m.flags.contains 'U' }

end PatternMode

namespace TokenPattern

mutual

/-- The shape of a pattern in a mode, and the mode behind it. A property is about characters. -/
def shape (m : PatternMode) : TokenPattern → Option (PatternShape × PatternMode)
  | .empty => some (.nothing, m)
  | .flags f => some (.nothing, m.apply f)
  | .letter l => some (m.letter l, m)
  | .dot => some (m.dot, m)
  | .assertion => some (.place, m)
  | .property isAscii =>
    if m.isUnicode then some (if isAscii && !m.ignoresCase then .narrow true none else .wide, m) else none
  | .bracketed isNegated content => (m.bracketed isNegated content).map fun s => (s, m)
  | .repetition count content =>
    (shape m content).map fun (s, after) => (s.times (m.count count), after)
  | .group f isRemembered content =>
    (shape (m.apply f) content).map fun (s, _) => (if isRemembered then .remembered s else s, m)
  | .alternation branches => (shapes m branches).map fun (found, after) => (.oneOf found, after)
  | .sequence parts => (shapes m parts).map fun (found, after) => (.inTurn found, after)

def shapes (m : PatternMode) : List TokenPattern → Option (List PatternShape × PatternMode)
  | [] => some ([], m)
  | p :: rest => do
    let (s, m) ← shape m p
    let (more, m) ← shapes m rest
    return (s :: more, m)

end

end TokenPattern

end DocComment
