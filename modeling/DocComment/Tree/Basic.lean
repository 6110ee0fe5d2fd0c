import DocComment.Comment
import DocComment.Tree.Symbol

/-!
# Trees

The tree of a comment shows its parts with their spans. Text and braces are hidden: a description has
no children. Blanks before a part belong to no node; blanks behind the closing slash belong to the
document.
-/

namespace DocComment

/-! ## Lexemes in their places -/

/-- A lexeme and the span of its body. -/
structure Placed where
  lexeme : Lexeme
  span : Span

namespace Placed

/-- The token of a lexeme in its place. -/
def token (p : Placed) : Token := p.lexeme.token

/-- Puts lexemes one after another from a place on. -/
def inTurn (p : Place) : List Lexeme → List Placed
  | [] => []
  | l :: rest =>
    let start := p.afterAll l.padding
    let stop := start.afterAll l.body
    ⟨l, ⟨start, stop⟩⟩ :: inTurn stop rest

end Placed

/-! ## Nodes -/

/-- A node of a tree with its visible children. -/
inductive Node where
  | node (symbol : Symbol) (span : Span) (children : List Node)

namespace Node

def symbol : Node → Symbol
  | .node s _ _ => s

def span : Node → Span
  | .node _ s _ => s

def children : Node → List Node
  | .node _ _ c => c

/-! ## From comments to trees -/

/-- The leaf of a part. -/
def leaf (p : Placed) : Node := .node (.ofToken p.token) p.span []

/-- The span from the first of some parts to the last. -/
def cover (first : Placed) (rest : List Placed) : Span :=
  ⟨first.span.start, ((first :: rest).getLast (List.cons_ne_nil _ _)).span.stop⟩

/-- The description node of a run, which there is if the run is not empty. -/
def ofDescription : List Placed → List Node
  | [] => []
  | first :: rest => [.node .description (cover first rest) []]

def ofTag (t : Tag Placed) : Node :=
  .node .tag (cover t.name (t.parameters ++ t.description))
    (leaf t.name :: t.parameters.map leaf ++ ofDescription t.description)

/-- The node of a comment in a source that ends at a place. -/
def ofComment (c : Comment Placed) (stop : Place) : Node :=
  .node .document ⟨c.opening.span.start, stop⟩
    (leaf c.opening :: c.stars.map leaf ++ ofDescription c.description ++ c.tags.map ofTag
      ++ [leaf c.closing])

/-- The tree of an accepted reading. -/
def ofReading? (r : Reading) : Option Node :=
  match r.ending with
  | .accepted trailing =>
    (Comment.ofParts? Placed.token (Placed.inTurn .origin r.lexemes)).map fun c =>
      ofComment c (r.reached.afterAll trailing)
  | .rejected _ => none

/-- The tree of a source, if it is a valid comment. -/
def ofSource? (source : List UInt8) : Option Node := ofReading? (Reading.ofSource source)

/-! ## S-expressions -/

mutual

/-- A named node in parentheses: its kind and its named children. Other nodes are left out. -/
def expression : Node → String
  | .node s _ children =>
    if s.isNamed then "(" ++ s.kind ++ expressions children ++ ")" else ""

/-- The named nodes among some siblings, each after a space. -/
def expressions : List Node → String
  | [] => ""
  | n :: rest => (if n.symbol.isNamed then " " ++ expression n else "") ++ expressions rest

end

end Node

end DocComment
