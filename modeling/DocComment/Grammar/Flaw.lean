import DocComment.Grammar.Basic

/-!
# Flaws of grammars

What can be wrong with the description of a grammar. Most flaws make a grammar refused; with a few the
generator gives up, and `Flaw.text?` is what it says then.
-/

namespace DocComment

/-- What is wrong with the description of a grammar. -/
inductive Flaw where
  | openToken (reference : String)
  | emptyExtra
  | contradictoryPrecedences
  | unknownPrecedence (name : String)
  | cycle
  | hiddenStart
  | unknownName (name : String)
  | emptyToken
  | externalNotToken
  | wordNotToken
  | reservedNotToken
  | unknownContext (name : String)
  | emptyRule (name : String)
  | badInline
  | badToken
  /-- A supertype stands for more than one symbol. -/
  | wideSupertype
  | supertypeCycle
  /-- An extra does not begin with a token. -/
  | improperExtra
  /-- An extra may end and go on before the same symbol. -/
  | openExtra
  | conflict
  | tooManyStates
  | outOfBounds (length index : Nat)
  | nonterminalReserved
  /-- Something is missing that is taken for granted. -/
  | missing
  deriving DecidableEq

/-- What the generator says when it gives up; nothing if the grammar is refused. -/
def Flaw.text? : Flaw → Option String
  | .outOfBounds length index =>
    some ("index out of bounds: the len is " ++ toString length ++ " but the index is " ++ toString index)
  | .nonterminalReserved => some "Cannot store non-terminals in a TokenSet"
  | .missing => some "called \x60Option::unwrap()\x60 on a \x60None\x60 value"
  | _ => none

end DocComment
