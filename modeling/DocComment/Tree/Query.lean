import DocComment.Tree.Basic

/-!
# Queries: capturing nodes of a tree

A query is a text of patterns. A pattern is a chain of kinds, each inside the one before, with a name for
the nodes of the last: `(tag (identifier) @parameter)` captures every identifier whose parent is a tag.
Captures are listed in the order of the source.
-/

namespace DocComment

/-- A pattern of a query and its byte range in the text of the query. -/
structure Pattern where
  start : Nat
  stop : Nat
  /-- The kinds around a captured node, the innermost first. -/
  enclosing : List String
  kind : String
  name : String
  deriving DecidableEq

namespace Pattern

/-- The pattern captures nodes of a symbol inside nodes of the given kinds, innermost first. -/
def admits (p : Pattern) (enclosing : List String) (s : Symbol) : Bool :=
  s.isNamed && p.kind == s.kind && p.enclosing.isPrefixOf enclosing

end Pattern

/-- The patterns of a query, in order. -/
abbrev Query := List Pattern

namespace Query

/-! ## Reading a query -/

/-- The words of a query text with their offsets. A parenthesis is a word of its own. -/
def words (offset : Nat) : List Char → List (Nat × List Char)
  | [] => []
  | c :: rest =>
    let behind := offset + c.utf8Size
    let later := words behind rest
    if c == ' ' || c == '\n' then later
    else if c == '(' || c == ')' then (offset, [c]) :: later
    else
      match later with
      | (next, d :: word) :: more =>
        if next == behind && d != '(' && d != ')' then (offset, c :: d :: word) :: more
        else (offset, [c]) :: later
      | _ => (offset, [c]) :: later

/-- How far the reading of a pattern has come. -/
inductive Progress where
  /-- The name was given, and so many nodes are still open; none between patterns. -/
  | between (pending : Nat)
  /-- A node was opened and its kind comes next. -/
  | opened (start : Nat) (enclosing : List String)
  /-- A node is open and its kind is known. -/
  | inside (start : Nat) (kind : String) (enclosing : List String)
  /-- The last node of the chain was closed and its name comes next. -/
  | finished (start : Nat) (kind : String) (enclosing : List String)

/-- Takes in the next word, with the patterns read so far in reverse. -/
def takeWord : Progress × List Pattern → Nat × List Char → Option (Progress × List Pattern)
  | (.between 0, done), (offset, ['(']) => some (.opened offset [], done)
  | (.between (n + 1), done), (_, [')']) => some (.between n, done)
  | (.inside start kind outer, done), (_, ['(']) => some (.opened start (kind :: outer), done)
  | (.inside start kind outer, done), (_, [')']) => some (.finished start kind outer, done)
  | (.finished start kind outer, done), (_, '@' :: name) =>
    some (.between outer.length, ⟨start, start, outer, kind, String.ofList name⟩ :: done)
  | (.opened start outer, done), (_, word) =>
    let kind := String.ofList word
    if Symbol.ofGrammar.any fun s => s.isNamed && s.kind == kind then some (.inside start kind outer, done)
    else none
  | _, _ => none

/-- Lets every pattern reach to the start of the next, and the last to the end of the text. -/
def close (stop : Nat) : List Pattern → Query
  | [] => []
  | p :: rest => { p with stop := ((rest.head?.map Pattern.start).getD stop) } :: close stop rest

/-- The query that a text spells. -/
def ofText? (text : String) : Option Query :=
  match (words 0 text.toList).foldlM takeWord (.between 0, []) with
  | some (.between 0, done) => some (close text.utf8ByteSize done.reverse)
  | _ => none

/-- The names of a query in the order in which they first appear. -/
def names (q : Query) : List String := (q.map Pattern.name).eraseDups

/-! ## Capturing -/

end Query

/-- A captured node: the pattern by its index, the name it gives, and the stretch of the source. -/
structure Capture where
  pattern : Nat
  name : String
  span : Span
  deriving DecidableEq

namespace Query

/-- The captures of a node alone, inside nodes of the given kinds. -/
def capturesAt (q : Query) (enclosing : List String) (s : Symbol) (span : Span) : List Capture :=
  q.zipIdx.filterMap fun (p, index) =>
    if p.admits enclosing s then some ⟨index, p.name, span⟩ else none

mutual

/-- The captures in a node, its own first. -/
def capturesIn (q : Query) (enclosing : List String) : Node → List Capture
  | .node s span children =>
    q.capturesAt enclosing s span ++ q.capturesAmong (s.kind :: enclosing) children

/-- The captures in some siblings, in order. -/
def capturesAmong (q : Query) (enclosing : List String) : List Node → List Capture
  | [] => []
  | n :: rest => q.capturesIn enclosing n ++ q.capturesAmong enclosing rest

end

/-- The captures in a tree. -/
def captures (q : Query) (tree : Node) : List Capture := q.capturesIn [] tree

end Query

/-! ## Highlighting -/

namespace Highlight

/-- The query for highlighting: tag names, parameters of tags, and descriptions. -/
def text : String :=
  "(tag_name) @keyword\n\n(tag\n  (identifier) @variable.parameter)\n\n(description) @comment\n"

/-- The patterns of the highlighting query. -/
def query : Query := (Query.ofText? text).getD []

/-- There is nothing of another language to find in a comment. -/
def injectionsText : String := ""

/-- There are no local names in a comment. -/
def localsText : String := ""

end Highlight

/-- The bytes of a source within a span. -/
def Span.slice (s : Span) (source : List UInt8) : List UInt8 :=
  (source.drop s.start.offset).take (s.stop.offset - s.start.offset)

/-- The highlights of a source with the bytes captured, if it is a valid comment. -/
def highlights? (source : List UInt8) : Option (List (Capture × List UInt8)) :=
  (Node.ofSource? source).map fun tree =>
    (Highlight.query.captures tree).map fun c => (c, c.span.slice source)

end DocComment
