import DocComment.Token.Basic

/-!
# Stages: which token may come next

Reading a comment is at a stage, which the tokens read so far decide. The stage tells which tokens fit
there (`Stage.next`) and whether identifiers are looked for (`Stage.identifiers`).
-/

namespace DocComment

/-- How far the reading of a comment has come. -/
inductive Stage where
  /-- Before the opening slash. -/
  | start
  /-- Behind the opening slash or a star that follows it. -/
  | opening
  /-- Inside a description. -/
  | description
  /-- Behind the name of a tag that takes one parameter. -/
  | oneParameter
  /-- Behind a tag name or its only parameter, where a description may follow. -/
  | describable
  /-- Behind the name of a tag that takes a list of parameters, or behind one of them. -/
  | parameters
  /-- Behind the closing slash. -/
  | closed
  deriving DecidableEq

namespace Stage

/-- Identifiers are looked for only before and after the comment and where a tag takes parameters. -/
def identifiers : Stage → Bool
  | .start | .oneParameter | .parameters | .closed => true
  | .opening | .description | .describable => false

/-- The stage behind the name of a tag. -/
def behindName : TagClass → Stage
  | .single => .oneParameter
  | .multiple => .parameters
  | .block | .plain => .describable

/-- The stage behind a token that fits; none for one that does not. -/
def next : Stage → Token → Option Stage
  | .start, .slash => some .opening
  | .start, _ => none
  | .closed, _ => none
  | .opening, .star => some .opening
  | _, .star => none
  | _, .slash => some .closed
  | _, .tagName c => some (behindName c)
  | .oneParameter, .identifier => some .describable
  | .parameters, .identifier => some .parameters
  | _, .identifier => none
  | .parameters, .text => none
  | _, .text => some .description
  | .description, .brace => some .description
  | _, .brace => none

end Stage

end DocComment
