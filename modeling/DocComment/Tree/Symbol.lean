import DocComment.Token.Basic

/-!
# Symbols: the kinds of nodes

Every node of a tree has a symbol. Symbols are numbered; several may share a kind, as the four classes
of tag names do. A symbol is visible if its nodes are shown, and named if it also has a name of its own
and not just a spelling.
-/

namespace DocComment

/-- The symbols of the language. -/
inductive Symbol where
  | endOfInput
  | identifier
  | tagName (c : TagClass)
  | text
  | brace
  | slash
  | star
  | document
  | description
  | tag
  | opening
  | closing
  /-- A run of tags in a document. -/
  | tags
  /-- A run of text and braces in a description. -/
  | prose
  /-- A run of identifiers behind a tag name. -/
  | parameters
  /-- A run of stars in an opening. -/
  | stars
  /-- The inner part of an error. -/
  | errorPart
  | error
  deriving DecidableEq

namespace Symbol

def id : Symbol → Nat
  | .endOfInput => 0
  | .identifier => 1
  | .tagName .single => 2
  | .tagName .multiple => 3
  | .tagName .block => 4
  | .tagName .plain => 5
  | .text => 6
  | .brace => 7
  | .slash => 8
  | .star => 9
  | .document => 10
  | .description => 11
  | .tag => 12
  | .opening => 13
  | .closing => 14
  | .tags => 15
  | .prose => 16
  | .parameters => 17
  | .stars => 18
  | .errorPart => 65534
  | .error => 65535

/-- The kind of a symbol, as trees and queries write it. -/
def kind : Symbol → String
  | .endOfInput => "end"
  | .identifier => "identifier"
  | .tagName _ => "tag_name"
  | .text => "_text"
  | .brace => "_inline_tag_false_positive"
  | .slash => "/"
  | .star => "*"
  | .document => "document"
  | .description => "description"
  | .tag => "tag"
  | .opening => "_begin"
  | .closing => "_end"
  | .tags => "document_repeat1"
  | .prose => "description_repeat1"
  | .parameters => "tag_repeat1"
  | .stars => "_begin_repeat1"
  | .errorPart => "_ERROR"
  | .error => "ERROR"

/-- Nodes of these symbols are shown. -/
def isVisible : Symbol → Bool
  | .identifier | .tagName _ | .slash | .star | .document | .description | .tag | .error => true
  | _ => false

/-- Nodes of these symbols are shown and have a name. -/
def isNamed : Symbol → Bool
  | .slash | .star => false
  | s => s.isVisible

/-- The symbols of the grammar in the order of their numbers. -/
def ofGrammar : List Symbol :=
  [.endOfInput, .identifier, .tagName .single, .tagName .multiple, .tagName .block, .tagName .plain,
    .text, .brace, .slash, .star, .document, .description, .tag, .opening, .closing, .tags, .prose,
    .parameters, .stars]

/-- The symbol with a number. -/
def ofId? (n : Nat) : Option Symbol :=
  (ofGrammar ++ [Symbol.errorPart, Symbol.error]).find? fun s => s.id == n

/-- The number that stands for all symbols of a kind: the greatest among them. -/
def publicId (s : Symbol) : Nat :=
  match s with
  | .tagName _ => (Symbol.tagName .plain).id
  | s => s.id

/-- The number for a kind: that of the error symbol for what its kind begins with, the public number of
the first visible symbol of the grammar with that kind and namedness otherwise, and 0 if there is none. -/
def idOfKind (kind : String) (named : Bool) : Nat :=
  if named && kind.toList.isPrefixOf error.kind.toList then error.id
  else
    match ofGrammar.find? fun s => s.isVisible && s.kind == kind && s.isNamed == named with
    | some s => s.publicId
    | none => 0

/-- The symbol of the leaf that a token becomes. -/
def ofToken : Token → Symbol
  | .slash => .slash
  | .star => .star
  | .tagName c => .tagName c
  | .identifier => .identifier
  | .text => .text
  | .brace => .brace

/-- The symbol of what stands at the front of the rest of a source. -/
def ofLookahead : Lookahead → Symbol
  | .token t => ofToken t
  | .endOfInput => .endOfInput
  | .unrecognised => .error

end Symbol

end DocComment
