import DocComment.Grammar.Conflict
import DocComment.Grammar.TokenPattern

/-!
# Checking grammars

A parser can be generated from a grammar without flaws. `Grammar.check` looks for flaws in an order: in the names,
in the tokens, in the productions, in what is said about symbols, and last for an ambiguity.
-/

namespace DocComment

namespace Phrase

/-- A phrase describes characters: its patterns are well formed, and it refers to nothing. -/
def describesCharacters (p : Phrase String) : Bool :=
  (p.parts true).all fun q =>
    match q with
    | .pattern value flags => TokenPattern.isValid value (flags.toList.contains 'i')
    | .symbol _ | .reserved _ _ => false
    | _ => true

def isImmediate : Phrase String → Bool
  | .marked m _ => m.isImmediate
  | _ => false

end Phrase

/-- Tokens describe characters and not just the empty text. So does what may stand between tokens, if it may stand
before any. -/
def Vocabulary.checkTokens (v : Vocabulary) : Except Flaw Unit := do
  let phrases := v.tokens.map GrammarToken.phrase
  if phrases.any Phrase.isEmpty then .error .emptyToken
  if phrases.any fun p => !p.describesCharacters then .error .badToken
  if phrases.any fun p => !p.isImmediate then
    if v.separators.any fun p => !p.describesCharacters then .error .badToken

/-- Looks for the first flaw of a grammar. -/
def Grammar.check (g : Grammar) : Except Flaw Unit := do
  let o ← g.outline
  o.checkPrecedences
  o.checkCycles
  o.checkNames
  let v ← Vocabulary.ofOutline o
  v.checkUses
  let plan ← ParserPlan.ofVocabulary v
  plan.checkProductions
  v.checkReserved
  v.checkTokens
  let plan := plan.gatherAliases
  plan.checkInlined
  plan.checkWidth
  plan.checkSupertypes
  plan.checkConflicts

end DocComment
