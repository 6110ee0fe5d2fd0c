import DocComment.Grammar.Dialect
import DocComment.Grammar.TokenPattern
import DocComment.Proofs.GlyphPattern

/-!
# The patterns of the tokens

Every token has a pattern, and a word of that pattern is a lexeme of the token. The patterns are written down
here; the grammar spells them as texts, and the texts are read as these patterns (`glyphs?_rule?`).
-/

namespace DocComment

namespace GlyphPattern

/-- The names of tags, `@[a-zA-Z_]+`. -/
def tagName : GlyphPattern := .inTurn (.one (.only '@')) (.onceOrMore (.one .letter))

/-- Identifiers, `[a-zA-Z_$][a-zA-Z_$0-9]*`. -/
def identifier : GlyphPattern := .inTurn (.one .identifierStart) (.many (.one .identifierRest))

/-- A stretch of text that ends in stars, `[^*/{}\n][^*{}\n]*\*+`. -/
def starred : GlyphPattern :=
  .inTurn (.one .groupStart) (.inTurn (.many (.one .textRest)) (.onceOrMore (.one (.only '*'))))

/-- Text, `[^*{}@\s][^*{}\n]*([^*/{}\n][^*{}\n]*\*+)*`. -/
def text : GlyphPattern := .inTurn (.one .textStart) (.inTurn (.many (.one .textRest)) (.many starred))

/-- Braces, `\{[^@}]+\}?`. -/
def brace : GlyphPattern :=
  .inTurn (.one (.only '\x7b')) (.inTurn (.onceOrMore (.one .enclosed)) (.optional (.one (.only '\x7d'))))

end GlyphPattern

/-- The pattern of a token. A class that lists names takes these alone, any name is a plain one. -/
def Token.pattern : Token → GlyphPattern
  | .slash => .literal ['/']
  | .star => .literal ['*']
  | .tagName .plain => .tagName
  | .tagName c => .oneOf (c.names.map fun name => .literal name.toList)
  | .identifier => .identifier
  | .text => .text
  | .brace => .brace

/-! ## The patterns that the grammar spells -/

namespace CharacterClass

mutual

/-- The ranges of a class that is made of characters and ranges. -/
def ranges? : CharacterClass → Option (List (Char × Char))
  | .empty => some []
  | .letter l => some [(l.char, l.char)]
  | .range low high => some [(low.char, high.char)]
  | .bracketed false content => ranges? content
  | .union members => rangesOfAll? members
  | _ => none

/-- The ranges of some classes together. -/
def rangesOfAll? : List CharacterClass → Option (List (Char × Char))
  | [] => some []
  | k :: rest => do return (← ranges? k) ++ (← rangesOfAll? rest)

end

end CharacterClass

namespace TokenPattern

mutual

/-- The pattern over glyphs that a pattern without flags and conditions stands for. -/
def glyphs? : TokenPattern → Option GlyphPattern
  | .empty => some .nothing
  | .letter l => some (.one (.only l.char))
  | .bracketed negated content => do return .one ⟨negated, ← content.ranges?⟩
  | .repetition ⟨0, none, _⟩ content => do return .many (← glyphs? content)
  | .repetition ⟨1, none, _⟩ content => do return .onceOrMore (← glyphs? content)
  | .repetition ⟨0, some 1, _⟩ content => do return .optional (← glyphs? content)
  | .group ⟨[], []⟩ _ content => glyphs? content
  | .sequence parts => glyphsInTurn? parts
  | .alternation branches => do return .oneOf (← glyphsOfAll? branches)
  | _ => none

/-- The pattern of some patterns in turn. -/
def glyphsInTurn? : List TokenPattern → Option GlyphPattern
  | [] => some .nothing
  | [p] => glyphs? p
  | p :: rest => do return .inTurn (← glyphs? p) (← glyphsInTurn? rest)

/-- The patterns of some patterns. -/
def glyphsOfAll? : List TokenPattern → Option (List GlyphPattern)
  | [] => some []
  | p :: rest => do return (← glyphs? p) :: (← glyphsOfAll? rest)

end

end TokenPattern

namespace Rule

mutual

/-- The pattern over glyphs that the rule of a token spells. -/
def glyphs? : Rule → Option GlyphPattern
  | .string value => some (.literal value.toList)
  | .pattern value none =>
    (TokenPattern.ofText? (TokenPattern.expandShorthands value.toList)).bind TokenPattern.glyphs?
  | .choice members => do return .oneOf (← glyphsOfAll? members)
  | .token content | .binding _ _ content => glyphs? content
  | _ => none

/-- The patterns that some rules spell. -/
def glyphsOfAll? : List Rule → Option (List GlyphPattern)
  | [] => some []
  | r :: rest => do return (← glyphs? r) :: (← glyphsOfAll? rest)

end

end Rule

/-- The rule of the grammar that describes a token. -/
def Token.rule? : Token → Option Rule
  | .slash => Dialect.rules.lookup "_end"
  | .star => some (.string "*")
  | .tagName .single => Dialect.rules.lookup "tag_name_with_single_parameter"
  | .tagName .multiple => Dialect.rules.lookup "tag_name_with_multiple_parameters"
  | .tagName .block => Dialect.rules.lookup "tag_name_with_block_parameter"
  | .tagName .plain => Dialect.rules.lookup "tag_name"
  | .identifier => Dialect.rules.lookup "identifier"
  | .text => Dialect.rules.lookup "_text"
  | .brace => Dialect.rules.lookup "_inline_tag_false_positive"

/-- The rules of the grammar spell the patterns of the tokens. -/
theorem glyphs?_rule? (t : Token) : t.rule?.bind Rule.glyphs? = some t.pattern := by
  cases t with
  | tagName c => cases c <;> decide +kernel
  | _ => decide +kernel

/-- What the grammar lets stand between tokens is white space, one glyph at a time. -/
theorem glyphs?_extras : Dialect.grammar.extras.map Rule.glyphs? = [some (.one .blank)] := by decide +kernel

end DocComment
