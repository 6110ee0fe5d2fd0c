import DocComment.Tree.Query

/-!
# Sessions: a comment that is edited

A session holds a source and the tree that a parsing runtime made of it. It takes commands and gives an answer to
each. An edit replaces a stretch of bytes and has the runtime parse again with the tree from before; it is refused if
the source has no such stretch, and then nothing changes.
-/

namespace DocComment

/-- Where a source was edited: what reached from `start` to `stop` reaches to `newStop` now. -/
structure Change where
  start : Nat
  stop : Nat
  newStop : Nat

/-- A parsing runtime as a session uses it: the trees it makes, with all that it keeps in them, parsing from nothing and
again after a change, and what can be seen of a tree of a valid comment. -/
structure Runtime where
  Tree : Type
  parse : List UInt8 → Tree
  reparse : Tree → Change → List UInt8 → Tree
  shown : Tree → Option Node

/-- The runtime that makes no use of the tree from before. -/
def Runtime.fromNothing : Runtime where
  Tree := Option Node
  parse := Node.ofSource?
  reparse := fun _ _ => Node.ofSource?
  shown := id

/-- A source under edit, and its tree. -/
structure Session (r : Runtime) where
  source : List UInt8
  tree : r.Tree

namespace Session

/-- The source with the bytes from `start` to `stop` replaced, if it has such. -/
def splice? (source : List UInt8) (start stop : Nat) (insertion : List UInt8) : Option (List UInt8) :=
  if start ≤ stop ∧ stop ≤ source.length then some (source.take start ++ insertion ++ source.drop stop)
  else none

/-- What a session can be asked. -/
inductive Command where
  | set (source : List UInt8)
  | edit (start stop : Nat) (insertion : List UInt8)
  | tree
  | highlights
  | length

/-- What a session answers; a tree and highlights are there if the source is a valid comment. -/
inductive Answer where
  | tree (found : Option Node)
  | highlights (found : Option (List (Capture × List UInt8)))
  | length (bytes : Nat)
  | badEdit

variable {r : Runtime}

/-- The session on a source. -/
def on (source : List UInt8) : Session r := ⟨source, r.parse source⟩

/-- A session starts on an empty source. -/
def start : Session r := on []

/-- The session with the bytes from `start` to `stop` replaced, if its source has such. -/
def edit? (s : Session r) (start stop : Nat) (insertion : List UInt8) : Option (Session r) :=
  (splice? s.source start stop insertion).map fun edited =>
    ⟨edited, r.reparse s.tree ⟨start, stop, start + insertion.length⟩ edited⟩

def shown (s : Session r) : Option Node := r.shown s.tree

/-- The highlights in the tree of a session. -/
def highlights? (s : Session r) : Option (List (Capture × List UInt8)) :=
  s.shown.map fun tree => (Highlight.query.captures tree).map fun c => (c, c.span.slice s.source)

/-- Carries out a command: the session behind it and the answer. -/
def obey (s : Session r) : Command → Session r × Answer
  | .set source => (on source, .tree (on source : Session r).shown)
  | .edit start stop insertion =>
    match s.edit? start stop insertion with
    | some edited => (edited, .tree edited.shown)
    | none => (s, .badEdit)
  | .tree => (s, .tree s.shown)
  | .highlights => (s, .highlights s.highlights?)
  | .length => (s, .length s.source.length)

/-- Carries out commands in order. -/
def obeyAll (s : Session r) : List Command → Session r × List Answer
  | [] => (s, [])
  | c :: rest =>
    let (behind, answer) := s.obey c
    let (last, answers) := behind.obeyAll rest
    (last, answer :: answers)

end Session

end DocComment
