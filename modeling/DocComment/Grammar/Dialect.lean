import DocComment.Grammar.Basic
import DocComment.Language
import DocComment.Token.TagClass

/-!
# The grammar of documentation comments

The grammar as data, and the text that describes it. The lists of tag names are those of the classes of
tags.
-/

namespace DocComment

namespace Dialect

def optional (r : Rule) : Rule := .choice [r, .blank]

/-- A tag name of a class, shown as any other tag name. -/
def tagNameAs (rule : String) : Rule := .renamed (.symbol rule) true "tag_name"

def listed (c : TagClass) : Rule := .token (.choice (c.names.map .string))

/-- The rules: what a comment is, what its parts are, and the tokens. -/
def rules : List (String × Rule) :=
  [("document",
    .sequence [.symbol "_begin", optional (.symbol "description"), .zeroOrMore (.symbol "tag"), .symbol "_end"]),
   ("description",
    .sequence [.symbol "_text",
      .zeroOrMore (.choice [.symbol "_text", .symbol "_inline_tag_false_positive"])]),
   ("tag",
    .choice
      [.sequence [tagNameAs "tag_name_with_single_parameter", optional (.symbol "identifier"),
        optional (.symbol "description")],
       .sequence [tagNameAs "tag_name_with_multiple_parameters", optional (.zeroOrMore (.symbol "identifier"))],
       .sequence [tagNameAs "tag_name_with_block_parameter", optional (.symbol "description")],
       .sequence [.symbol "tag_name", optional (.symbol "description")]]),
   ("tag_name_with_single_parameter", listed .single),
   ("tag_name_with_multiple_parameters", listed .multiple),
   ("tag_name_with_block_parameter", listed .block),
   ("tag_name", .pattern "@[a-zA-Z_]+" none),
   ("identifier", .pattern "[a-zA-Z_$][a-zA-Z_$0-9]*" none),
   ("_text",
    .token (.binding none (.level (-1))
      (.pattern "[^*\x7b\x7d@\\s][^*\x7b\x7d\\n]*([^*/\x7b\x7d\\n][^*\x7b\x7d\\n]*\\*+)*" none))),
   ("_inline_tag_false_positive",
    .token (.binding (some .left) (.level 1) (.pattern "\\\x7b[^@\x7d]+\\\x7d?" none))),
   ("_begin", .sequence [.string "/", .zeroOrMore (.string "*")]),
   ("_end", .string "/")]

/-- The grammar of documentation comments. -/
def grammar : Grammar where
  name := languageName
  word := some "identifier"
  rules := rules
  extras := [.pattern "\\s" none]
  conflicts := []
  precedences := []
  externals := []
  inlined := []
  supertypes := []
  reserved := []

def text : String := grammar.toJson.text

end Dialect

end DocComment
