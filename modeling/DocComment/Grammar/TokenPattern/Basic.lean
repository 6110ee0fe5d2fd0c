/-!
# Patterns of tokens

A pattern is a regular expression, and a character class a set of characters in it. Neither may be nested too deep.
-/

namespace DocComment

/-- A character of a pattern. One written with two hexadecimal digits can stand for a byte. -/
structure PatternLetter where
  char : Char
  isPair : Bool
  deriving DecidableEq

/-- How two character classes make one. -/
inductive ClassOperation where
  | intersection
  | difference
  | symmetricDifference
  deriving DecidableEq

/-- A character class. A property may be one of ASCII characters alone. -/
inductive CharacterClass where
  | empty
  | letter (l : PatternLetter)
  | range (low high : PatternLetter)
  | ascii (name : String) (isNegated : Bool)
  | property (isAscii : Bool)
  | bracketed (isNegated : Bool) (content : CharacterClass)
  | union (members : List CharacterClass)
  | operation (o : ClassOperation) (left right : CharacterClass)

/-- Flags that are set and flags that are taken away. -/
structure PatternFlags where
  set : List Char
  unset : List Char
  deriving DecidableEq

/-- What a flag becomes. -/
def PatternFlags.apply (f : PatternFlags) (flag : Char) (old : Bool) : Bool :=
  if f.set.contains flag then true else if f.unset.contains flag then false else old

/-- How often something is repeated. A lazy repetition goes on no longer than it must. -/
structure PatternCount where
  least : Nat
  most : Option Nat
  isLazy : Bool
  deriving DecidableEq

/-- A pattern. Flags hold for what follows in the group, and an assertion is a condition on the place. -/
inductive TokenPattern where
  | empty
  | flags (f : PatternFlags)
  | letter (l : PatternLetter)
  | dot
  | assertion
  | property (isAscii : Bool)
  | bracketed (isNegated : Bool) (content : CharacterClass)
  | repetition (count : PatternCount) (content : TokenPattern)
  | group (f : PatternFlags) (isRemembered : Bool) (content : TokenPattern)
  | alternation (branches : List TokenPattern)
  | sequence (parts : List TokenPattern)

/-! ## Depth -/

namespace CharacterClass

mutual

/-- How deep brackets, unions and operations stand in each other. -/
def depth : CharacterClass → Nat
  | .bracketed _ content => depth content + 1
  | .union members => depthOfAll members + 1
  | .operation _ left right => Nat.max (depth left) (depth right) + 1
  | _ => 0

def depthOfAll : List CharacterClass → Nat
  | [] => 0
  | c :: rest => Nat.max (depth c) (depthOfAll rest)

end

/-- The union of some classes. One class alone is its own union. -/
def ofMembers : List CharacterClass → CharacterClass
  | [] => .empty
  | [c] => c
  | members => .union members

end CharacterClass

namespace TokenPattern

mutual

/-- How deep groups, repetitions, classes, alternations and sequences stand in each other. -/
def depth : TokenPattern → Nat
  | .bracketed _ content => content.depth + 1
  | .repetition _ content | .group _ _ content => depth content + 1
  | .alternation branches => depthOfAll branches + 1
  | .sequence parts => depthOfAll parts + 1
  | _ => 0

def depthOfAll : List TokenPattern → Nat
  | [] => 0
  | p :: rest => Nat.max (depth p) (depthOfAll rest)

end

/-- How deep a pattern may be. -/
def depthLimit : Nat := 250

/-- One part after the other. One part alone is its own sequence. -/
def ofParts : List TokenPattern → TokenPattern
  | [] => .empty
  | [p] => p
  | parts => .sequence parts

/-- One of some branches. One branch alone is its own alternation. -/
def ofBranches : List TokenPattern → TokenPattern
  | [] => .empty
  | [p] => p
  | branches => .alternation branches

end TokenPattern

end DocComment
