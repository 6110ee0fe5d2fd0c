import DocComment.Proofs.RenderedTree

/-!
# Outlines: trees up to their places and their prose

The outline of a tree is its sketch without the texts of descriptions: the symbols, the children, and the texts of all
other leaves. It is told by the tokens of the source and by the bodies of those that are no prose, whatever stands
between them (`outline_eq_of_bare`).
-/

namespace DocComment

namespace Sketch

mutual

/-- The sketch without the texts of descriptions. -/
def outline : Sketch → Sketch
  | .leaf s text => .leaf s (if s = .description then [] else text)
  | .branch s children => .branch s (outlines children)

/-- Some sketches without the texts of descriptions. -/
def outlines : List Sketch → List Sketch
  | [] => []
  | first :: rest => outline first :: outlines rest

end

theorem outlines_eq_map (sketches : List Sketch) : outlines sketches = sketches.map outline := by
  induction sketches with
  | nil => rfl
  | cons first rest ih => rw [outlines, ih, List.map_cons]

end Sketch

/-- The lexeme without what its outline does not tell: its padding and, if it is prose, its body. -/
def Lexeme.bare (l : Lexeme) : Lexeme := ⟨l.token, [], if l.token.isProse then [] else l.body⟩

namespace Lexeme

private theorem outline_bare {l : Lexeme} (alone : l.token.isProse = false) :
    l.bare.sketch.outline = l.sketch.outline := by
  simp [Lexeme.bare, Lexeme.sketch, alone]

private theorem outlines_bare {ls : List Lexeme} (alone : ∀ l ∈ ls, l.token.isProse = false) :
    ((ls.map Lexeme.bare).map Lexeme.sketch).map Sketch.outline = (ls.map Lexeme.sketch).map Sketch.outline := by
  rw [List.map_map, List.map_map, List.map_map]
  exact List.map_congr_left fun l member => outline_bare (alone l member)

private theorem outline_sketchAll (ls : List Lexeme) :
    (Lexeme.sketchAll (ls.map Lexeme.bare)).map Sketch.outline = (Lexeme.sketchAll ls).map Sketch.outline := by
  cases ls with
  | nil => rfl
  | cons first rest => simp [Lexeme.sketchAll, Sketch.outline]

end Lexeme

namespace Comment

private theorem outline_tag {t : Tag Lexeme} (derivation : t.IsDerivation Lexeme.token) :
    (t.map Lexeme.bare).sketch.outline = t.sketch.outline := by
  obtain ⟨name, identifiers, _⟩ := Stretch.kinds_of_isDerivation derivation
  have alone : ∀ l ∈ t.name :: t.parameters, l.token.isProse = false := by
    intro l member
    rcases List.mem_cons.mp member with rfl | member
    · cases kind : t.name.token <;> simp [kind, Token.isTagName] at name
      rfl
    · rw [identifiers l member]
      rfl
  have front := Lexeme.outlines_bare alone
  have back := Lexeme.outline_sketchAll t.description
  simp only [List.map_cons] at front
  simp only [Tag.sketch, Tag.map, Sketch.outline, Sketch.outlines_eq_map, List.map_cons, List.map_append, front, back]

/-- The outline of a derivation is told by its lexemes without their padding and their prose. -/
theorem outline_bare {c : Comment Lexeme} (derivation : c.IsDerivation Lexeme.token) :
    (c.map Lexeme.bare).sketch.outline = c.sketch.outline := by
  have marks : ∀ l ∈ c.opening :: c.stars, l.token.isProse = false := by
    intro l member
    rcases List.mem_cons.mp member with rfl | member
    · rw [derivation.opening]
      rfl
    · rw [derivation.stars l member]
      rfl
  have front := Lexeme.outlines_bare marks
  have described := Lexeme.outline_sketchAll c.description
  have tags : ((c.tags.map (Tag.map Lexeme.bare)).map Tag.sketch).map Sketch.outline =
      (c.tags.map Tag.sketch).map Sketch.outline := by
    rw [List.map_map, List.map_map, List.map_map]
    exact List.map_congr_left fun t member => outline_tag (derivation.tags t member)
  have closing : c.closing.bare.sketch.outline = c.closing.sketch.outline :=
    Lexeme.outline_bare (by rw [derivation.closing]; rfl)
  simp only [List.map_cons] at front
  simp only [Comment.sketch, Comment.map, Sketch.outline, Sketch.outlines_eq_map, List.map_cons, List.map_append,
    List.map_nil, front, described, tags, closing]

/-- Derivations with the same tokens, and the same bodies of those that are no prose, have one outline. -/
theorem outline_eq_of_bare {c d : Comment Lexeme} (left : c.IsDerivation Lexeme.token)
    (right : d.IsDerivation Lexeme.token) (same : c.parts.map Lexeme.bare = d.parts.map Lexeme.bare) :
    c.sketch.outline = d.sketch.outline := by
  have bareLeft : (c.map Lexeme.bare).IsDerivation Lexeme.token := IsDerivation.map (f := Lexeme.bare) left
  have bareRight : (d.map Lexeme.bare).IsDerivation Lexeme.token := IsDerivation.map (f := Lexeme.bare) right
  have grouped : c.map Lexeme.bare = d.map Lexeme.bare :=
    bareLeft.eq_of_parts bareRight (by rw [parts_map, parts_map, same])
  rw [← outline_bare left, grouped, outline_bare right]

end Comment

namespace Node

/-- The sketch of a tree is that of the comment that the lexemes of its source make up. -/
theorem exists_sketch_of_ofSource? {source : List UInt8} {root : Node} (valid : ofSource? source = some root) :
    ∃ c : Comment Lexeme, c.IsDerivation Lexeme.token ∧ c.parts = (Reading.ofSource source).lexemes ∧
      root.sketch source = c.sketch := by
  obtain ⟨c, trailing, derivation, parts, read, rfl⟩ := exists_of_ofSource? valid
  refine ⟨c.map Placed.lexeme, derivation.map, ?_, sketch_ofComment (covers_of_read read parts) _⟩
  rw [Comment.parts_map, parts, Placed.map_lexeme_inTurn]

/-- Valid sources with the same tokens, and the same bodies of those that are no prose, have one outline. -/
theorem outline_eq_of_bare {source other : List UInt8} {root second : Node} (valid : ofSource? source = some root)
    (validOther : ofSource? other = some second)
    (same : (Reading.ofSource source).lexemes.map Lexeme.bare = (Reading.ofSource other).lexemes.map Lexeme.bare) :
    (root.sketch source).outline = (second.sketch other).outline := by
  obtain ⟨c, left, partsLeft, sketchLeft⟩ := exists_sketch_of_ofSource? valid
  obtain ⟨d, right, partsRight, sketchRight⟩ := exists_sketch_of_ofSource? validOther
  rw [sketchLeft, sketchRight]
  exact Comment.outline_eq_of_bare left right (by rw [partsLeft, partsRight, same])

end Node

end DocComment
