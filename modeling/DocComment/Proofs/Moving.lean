import DocComment.Proofs.RenderedTree

/-!
# Trees that are moved

Lexemes that stand elsewhere make up the tree that stands there, wherever that is (`ofComment_relocated`). What stands
behind a line feed is placed as by itself, only so many bytes and rows further on (`ofTag_moved`).
-/

namespace DocComment

/-! ## Moving -/

/-- The place so many bytes and rows further on, in the same column. -/
def Place.moved (bytes rows : Nat) (p : Place) : Place := ⟨p.offset + bytes, p.row + rows, p.column⟩

/-- The span between the places further on. -/
def Span.moved (bytes rows : Nat) (s : Span) : Span := ⟨s.start.moved bytes rows, s.stop.moved bytes rows⟩

/-- The lexeme further on. -/
def Placed.moved (bytes rows : Nat) (p : Placed) : Placed := ⟨p.lexeme, p.span.moved bytes rows⟩

/-- The span between the places that its ends are taken to. -/
def Span.relocated (f : Place → Place) (s : Span) : Span := ⟨f s.start, f s.stop⟩

/-- The lexeme in the place that it is taken to. -/
def Placed.relocated (f : Place → Place) (p : Placed) : Placed := ⟨p.lexeme, p.span.relocated f⟩

namespace Node

mutual

/-- The tree with all its spans further on. -/
def moved (bytes rows : Nat) : Node → Node
  | .node s span children => .node s (span.moved bytes rows) (movedAll bytes rows children)

/-- Some trees with all their spans further on. -/
def movedAll (bytes rows : Nat) : List Node → List Node
  | [] => []
  | first :: rest => moved bytes rows first :: movedAll bytes rows rest

end

mutual

/-- The tree with all its places taken elsewhere. -/
def relocated (f : Place → Place) : Node → Node
  | .node s span children => .node s (span.relocated f) (relocatedAll f children)

/-- Some trees with all their places taken elsewhere. -/
def relocatedAll (f : Place → Place) : List Node → List Node
  | [] => []
  | first :: rest => relocated f first :: relocatedAll f rest

end

theorem relocatedAll_eq_map (f : Place → Place) (nodes : List Node) :
    relocatedAll f nodes = nodes.map (relocated f) := by
  induction nodes with
  | nil => rfl
  | cons first rest ih => rw [relocatedAll, ih, List.map_cons]

mutual

/-- To be moved is to be taken to the places further on. -/
theorem moved_eq_relocated (bytes rows : Nat) : ∀ n : Node, n.moved bytes rows = n.relocated (Place.moved bytes rows)
  | .node s span children => by
    rw [moved, relocated, movedAll_eq_relocatedAll]
    rfl

theorem movedAll_eq_relocatedAll (bytes rows : Nat) :
    ∀ nodes : List Node, movedAll bytes rows nodes = relocatedAll (Place.moved bytes rows) nodes
  | [] => rfl
  | first :: rest => by rw [movedAll, relocatedAll, moved_eq_relocated, movedAll_eq_relocatedAll]

end

end Node

/-! ## Places -/

namespace Place

/-- Where a place is taken to, glyphs lead to where the place behind them is taken to. -/
theorem afterAll_along {f : Place → Place} (along : ∀ p g, (f p).after g = f (p.after g)) (p : Place)
    (glyphs : List Glyph) : (f p).afterAll glyphs = f (p.afterAll glyphs) := by
  induction glyphs generalizing p with
  | nil => rfl
  | cons g rest ih =>
    have step (q : Place) : q.afterAll (g :: rest) = (q.after g).afterAll rest := rfl
    rw [step, step, along, ih]

variable (bytes rows : Nat) (p : Place)

theorem after_moved (g : Glyph) : (p.moved bytes rows).after g = (p.after g).moved bytes rows := by
  by_cases lineFeed : g = .scalar '\n'
  · simp [after, moved, lineFeed]
    omega
  · simp [after, moved, lineFeed]
    omega

theorem afterAll_moved (glyphs : List Glyph) :
    (p.moved bytes rows).afterAll glyphs = (p.afterAll glyphs).moved bytes rows :=
  afterAll_along (after_moved bytes rows) p glyphs

theorem row_afterAll (glyphs : List Glyph) : (p.afterAll glyphs).row = p.row + glyphs.count (.scalar '\n') := by
  induction glyphs generalizing p with
  | nil => rfl
  | cons g rest ih =>
    have step : p.afterAll (g :: rest) = (p.after g).afterAll rest := rfl
    rw [step, ih, List.count_cons]
    unfold after
    by_cases lineFeed : g = .scalar '\n'
    · simp only [lineFeed, if_true, beq_self_eq_true]
      omega
    · simp only [lineFeed, if_false, beq_iff_eq]
      omega

/-- A line feed leads to the front of the next row, wherever it stands. -/
theorem afterAll_lineFeed (glyphs : List Glyph) :
    p.afterAll (glyphs ++ [.scalar '\n']) =
      ⟨p.offset + (glyphs.flatMap Glyph.bytes).length + 1, p.row + glyphs.count (.scalar '\n') + 1, 0⟩ := by
  have lineFeed (q : Place) : q.afterAll [.scalar '\n'] = ⟨q.offset + 1, q.row + 1, 0⟩ := rfl
  rw [afterAll_append, lineFeed, offset_afterAll, row_afterAll]

end Place

/-! ## Lexemes in turn -/

namespace Placed

theorem inTurn_append (p : Place) (front back : List Lexeme) :
    inTurn p (front ++ back) = inTurn p front ++ inTurn (p.afterAll (front.flatMap Lexeme.glyphs)) back := by
  induction front generalizing p with
  | nil => rfl
  | cons l front ih =>
    rw [List.cons_append, inTurn, inTurn, ih, List.flatMap_cons, Lexeme.glyphs, Place.afterAll_append,
      Place.afterAll_append]
    rfl

/-- From where a place is taken to, lexemes stand where their places are taken to, if that goes along with glyphs. -/
theorem inTurn_relocated {f : Place → Place} (along : ∀ p g, (f p).after g = f (p.after g)) (p : Place)
    (lexemes : List Lexeme) : inTurn (f p) lexemes = (inTurn p lexemes).map (relocated f) := by
  induction lexemes generalizing p with
  | nil => rfl
  | cons l rest ih =>
    simp only [inTurn, Place.afterAll_along along, ih, List.map_cons]
    rfl

end Placed

/-! ## Nodes -/

namespace Node
variable (f : Place → Place)

theorem cover_relocated (first : Placed) (rest : List Placed) :
    cover (first.relocated f) (rest.map (Placed.relocated f)) = (cover first rest).relocated f := by
  have last : ((first :: rest).map (Placed.relocated f)).getLast (by simp) =
      ((first :: rest).getLast (by simp)).relocated f := List.getLast_map ..
  rw [cover, Span.relocated, cover]
  exact congrArg (fun p : Placed => Span.mk (f first.span.start) p.span.stop) last

theorem leaves_relocated (ps : List Placed) :
    (ps.map (Placed.relocated f)).map leaf = (ps.map leaf).map (relocated f) := by
  rw [List.map_map, List.map_map]
  rfl

theorem ofDescription_relocated (description : List Placed) :
    ofDescription (description.map (Placed.relocated f)) = (ofDescription description).map (relocated f) := by
  cases description with
  | nil => rfl
  | cons first rest =>
    rw [List.map_cons, ofDescription, cover_relocated]
    rfl

theorem ofTag_relocated (t : Tag Placed) : ofTag (t.map (Placed.relocated f)) = (ofTag t).relocated f := by
  rw [ofTag, Tag.map, ← List.map_append, cover_relocated, leaves_relocated, ofDescription_relocated, ofTag, relocated,
    relocatedAll_eq_map, List.map_append, List.map_cons]
  rfl

/-- The tree of a comment taken elsewhere is the tree of the comment, taken there. -/
theorem ofComment_relocated (c : Comment Placed) (stop : Place) :
    ofComment (c.map (Placed.relocated f)) (f stop) = (ofComment c stop).relocated f := by
  have tags : (c.tags.map (Tag.map (Placed.relocated f))).map ofTag = (c.tags.map ofTag).map (relocated f) := by
    rw [List.map_map, List.map_map]
    exact List.map_congr_left fun t _ => ofTag_relocated f t
  rw [ofComment, Comment.map, leaves_relocated, ofDescription_relocated, tags, ofComment, relocated,
    relocatedAll_eq_map, List.map_append, List.map_append, List.map_append, List.map_cons]
  rfl

/-- The node of a tag further on is the node of the tag, further on. -/
theorem ofTag_moved (bytes rows : Nat) (t : Tag Placed) :
    ofTag (t.map (Placed.moved bytes rows)) = (ofTag t).moved bytes rows := by
  rw [moved_eq_relocated]
  exact ofTag_relocated (Place.moved bytes rows) t

end Node

end DocComment
