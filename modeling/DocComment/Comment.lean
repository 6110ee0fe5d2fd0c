import DocComment.Reading.Basic

/-!
# Comments: how lexemes belong together

The lexemes of an accepted reading make up a comment: the opening slash and its stars, a description,
tags, and the closing slash. A tag owns the parameters and the description up to the next tag. A
description is the run of its text and braces; an empty run is no description.
-/

namespace DocComment

/-- A tag: its name, its parameters, and the run of text behind them. -/
structure Tag (α : Type) where
  name : α
  parameters : List α
  description : List α

/-- A comment, from its opening to its closing slash. -/
structure Comment (α : Type) where
  opening : α
  stars : List α
  description : List α
  tags : List (Tag α)
  closing : α

namespace Tag
variable {α β : Type}

/-- The parts of a tag in order. -/
def parts (t : Tag α) : List α := t.name :: t.parameters ++ t.description

def map (f : α → β) (t : Tag α) : Tag β :=
  ⟨f t.name, t.parameters.map f, t.description.map f⟩

end Tag

namespace Comment
variable {α β : Type}

/-- The parts of a comment in order. -/
def parts (c : Comment α) : List α :=
  c.opening :: c.stars ++ c.description ++ c.tags.flatMap Tag.parts ++ [c.closing]

def map (f : α → β) (c : Comment α) : Comment β :=
  ⟨f c.opening, c.stars.map f, c.description.map f, c.tags.map (Tag.map f), f c.closing⟩

/-! ## Grouping -/

/-- A stretch of a body: the parameters and the text before its first tag, and its tags. -/
structure Stretch (α : Type) where
  parameters : List α
  description : List α
  tags : List (Tag α)

/-- The stretch with one more part before it. A tag name takes what stands before the first tag. -/
def Stretch.push (token : α → Token) (part : α) (s : Stretch α) : Stretch α :=
  match token part with
  | .tagName _ => ⟨[], [], ⟨part, s.parameters, s.description⟩ :: s.tags⟩
  | .identifier => { s with parameters := part :: s.parameters }
  | _ => { s with description := part :: s.description }

/-- Groups the parts of a body. -/
def Stretch.ofParts (token : α → Token) (parts : List α) : Stretch α :=
  parts.foldr (Stretch.push token) ⟨[], [], []⟩

/-- Groups the parts of a whole comment. -/
def ofParts? (token : α → Token) (parts : List α) : Option (Comment α) :=
  match parts with
  | [] => none
  | opening :: rest =>
    let isStar part := token part == .star
    match (rest.dropWhile isStar).reverse with
    | [] => none
    | closing :: body =>
      let stretch := Stretch.ofParts token body.reverse
      some ⟨opening, rest.takeWhile isStar, stretch.description, stretch.tags, closing⟩

/-- The comment of an accepted reading. -/
def ofReading? (r : Reading) : Option (Comment Lexeme) :=
  match r.ending with
  | .accepted _ => ofParts? Lexeme.token r.lexemes
  | .rejected _ => none

end Comment

end DocComment
