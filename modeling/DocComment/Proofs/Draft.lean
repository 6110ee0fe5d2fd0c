import DocComment.Proofs.TokenPattern
import DocComment.Reading.Basic
import DocComment.Tree.Query

/-!
# Drafts: comments before they are written

A draft is a comment without places: how many stars it has, its description, and its tags. What a draft is made of
carries the proof that it can be written, so every draft can be rendered, item by item, each on a line of its own
(`CommentDraft.render`). A draft says which lexemes its rendering has (`CommentDraft.lexemes`) and which tree
(`CommentDraft.sketch`).
-/

namespace DocComment

/-! ## Items -/

/-- What stands on one line of a rendering: a token and its text. -/
structure DraftItem where
  token : Token
  text : String

/-- An item as it is read behind a line feed. -/
def DraftItem.lexeme (i : DraftItem) : Lexeme := ⟨i.token, Glyph.spell "\n", Glyph.spell i.text⟩

/-- Some texts, each behind a line feed. -/
def lines : List String → String
  | [] => ""
  | text :: rest => "\n" ++ text ++ lines rest

/-! ## What drafts are made of -/

/-- A piece of text that a slash does not start. -/
structure TextLine where
  text : String
  isText : GlyphPattern.text.Matches (Glyph.spell text)
  noSlash : text.toList.head? ≠ some '/'
  noNull : '\x00' ∉ text.toList

/-- What a pair of braces encloses. -/
structure Enclosed where
  text : String
  notEmpty : text ≠ ""
  enclosed : ∀ c ∈ text.toList, c ≠ '@' ∧ c ≠ '\x7d' ∧ c ≠ '\x00'

/-- A parameter of a tag. -/
structure Identifier where
  text : String
  isIdentifier : GlyphPattern.identifier.Matches (Glyph.spell text)

/-- A text is a name of a class: one that the class lists or, of the class that lists none, any name that is not
listed. -/
def TagClass.IsNameOf : TagClass → String → Prop
  | .plain, text => GlyphPattern.tagName.Matches (Glyph.spell text) ∧ ∀ c : TagClass, text ∉ c.names
  | c, text => text ∈ c.names

/-- A name of a class of tags. -/
structure TagName (c : TagClass) where
  text : String
  isName : c.IsNameOf text

/-- A piece of a description. -/
inductive Piece where
  | line (t : TextLine)
  | braces (e : Enclosed)

/-- A description: a line of text, and any number of pieces. -/
structure DescriptionDraft where
  first : TextLine
  rest : List Piece

/-- A tag. Where a tag could take a parameter but has none, its description does not start as an identifier does. -/
inductive TagDraft where
  | single (name : TagName .single) (parameter : Option Identifier) (description : Option DescriptionDraft)
      (apart : parameter = none → ∀ d ∈ description, ∀ c ∈ d.first.text.toList.head?,
        GlyphClass.identifierStart.contains (.scalar c) = false)
  | multiple (name : TagName .multiple) (parameters : List Identifier)
  | block (name : TagName .block) (description : Option DescriptionDraft)
  | plain (name : TagName .plain) (description : Option DescriptionDraft)

/-- A comment: how many stars follow its slash, its description, and its tags. -/
structure CommentDraft where
  stars : Nat
  description : Option DescriptionDraft
  tags : List TagDraft

/-! ## Rendering -/

/-- The item of a piece. -/
def Piece.item : Piece → DraftItem
  | .line t => ⟨.text, t.text⟩
  | .braces e => ⟨.brace, "\x7b" ++ e.text ++ "\x7d"⟩

/-- The item of a parameter. -/
def Identifier.item (p : Identifier) : DraftItem := ⟨.identifier, p.text⟩

/-- The items of a description that may be missing. -/
def DescriptionDraft.items : Option DescriptionDraft → List DraftItem
  | none => []
  | some d => ⟨.text, d.first.text⟩ :: d.rest.map Piece.item

namespace TagDraft

/-- The item of the name of a tag. -/
def name : TagDraft → DraftItem
  | .single name .. => ⟨.tagName .single, name.text⟩
  | .multiple name _ => ⟨.tagName .multiple, name.text⟩
  | .block name _ => ⟨.tagName .block, name.text⟩
  | .plain name _ => ⟨.tagName .plain, name.text⟩

/-- The parameters of a tag. -/
def parameters : TagDraft → List Identifier
  | .single _ parameter .. => parameter.toList
  | .multiple _ parameters => parameters
  | .block .. | .plain .. => []

/-- The description of a tag. -/
def description : TagDraft → Option DescriptionDraft
  | .single _ _ description _ | .block _ description | .plain _ description => description
  | .multiple .. => none

/-- The items of a tag in order. -/
def items (t : TagDraft) : List DraftItem :=
  t.name :: t.parameters.map Identifier.item ++ DescriptionDraft.items t.description

end TagDraft

namespace CommentDraft

/-- The items of a comment between its stars and its last slash. -/
def items (d : CommentDraft) : List DraftItem := DescriptionDraft.items d.description ++ d.tags.flatMap TagDraft.items

/-- The comment as text: a slash and the stars, every item on a line of its own, and a slash on the last line. -/
def render (d : CommentDraft) : String :=
  "/" ++ String.ofList (List.replicate d.stars '*') ++ lines (d.items.map DraftItem.text) ++ "\n/"

/-- The slash that opens a rendering. -/
def opening : Lexeme := ⟨.slash, [], Glyph.spell "/"⟩

/-- A star of a rendering. -/
def star : Lexeme := ⟨.star, [], Glyph.spell "*"⟩

/-- The slash that closes a rendering. -/
def closing : Lexeme := ⟨.slash, Glyph.spell "\n", Glyph.spell "/"⟩

/-- The lexemes of the rendering: every item is one. -/
def lexemes (d : CommentDraft) : List Lexeme :=
  opening :: List.replicate d.stars star ++ d.items.map DraftItem.lexeme ++ [closing]

end CommentDraft

/-! ## Trees without places -/

/-- A tree without places: the texts of its leaves, and the children of its other nodes. -/
inductive Sketch where
  | leaf (symbol : Symbol) (text : List UInt8)
  | branch (symbol : Symbol) (children : List Sketch)

namespace Node

mutual

/-- The tree without its places, with the texts that its leaves cover in a source. -/
def sketch (source : List UInt8) : Node → Sketch
  | .node s span [] => .leaf s (span.slice source)
  | .node s _ (child :: rest) => .branch s (sketch source child :: sketches source rest)

/-- Some trees without their places. -/
def sketches (source : List UInt8) : List Node → List Sketch
  | [] => []
  | n :: rest => sketch source n :: sketches source rest

end

end Node

/-- The sketch of a description that may be missing: all of its pieces, each but the first behind a line feed. -/
def DescriptionDraft.sketch : Option DescriptionDraft → List Sketch
  | none => []
  | some d => [.leaf .description (encode (d.first.text ++ lines (d.rest.map fun p => p.item.text)))]

/-- The sketch of a tag: its name, its parameters, and its description. -/
def TagDraft.sketch (t : TagDraft) : Sketch :=
  .branch .tag (.leaf (.ofToken t.name.token) (encode t.name.text) ::
    t.parameters.map (fun p => .leaf .identifier (encode p.text)) ++ DescriptionDraft.sketch t.description)

/-- The sketch of a comment: a slash, its stars, its description, its tags, and a slash. -/
def CommentDraft.sketch (d : CommentDraft) : Sketch :=
  .branch .document (.leaf .slash (encode "/") :: List.replicate d.stars (.leaf .star (encode "*")) ++
    DescriptionDraft.sketch d.description ++ d.tags.map TagDraft.sketch ++ [.leaf .slash (encode "/")])

end DocComment
