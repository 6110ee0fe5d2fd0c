import DocComment.Source.Glyph

/-!
# Places: where something stands in a source

A place is a byte offset together with its row and column. Rows are ended by line feeds alone, and
columns count bytes.
-/

namespace DocComment

/-- A place in a source: the bytes before it, the line feeds before it, and the bytes since the last. -/
structure Place where
  offset : Nat
  row : Nat
  column : Nat
  deriving DecidableEq

namespace Place

/-- The front of a source. -/
def origin : Place := ⟨0, 0, 0⟩

/-- The place behind a glyph. -/
def after (p : Place) (g : Glyph) : Place :=
  if g = .scalar '\n' then ⟨p.offset + g.width, p.row + 1, 0⟩
  else ⟨p.offset + g.width, p.row, p.column + g.width⟩

/-- The place behind a run of glyphs. -/
def afterAll (p : Place) (glyphs : List Glyph) : Place := glyphs.foldl after p

/-- Two runs of glyphs lead where the one after the other leads. -/
theorem afterAll_append (p : Place) (front back : List Glyph) :
    p.afterAll (front ++ back) = (p.afterAll front).afterAll back := List.foldl_append

/-- A run of glyphs moves the offset by its bytes. -/
theorem offset_afterAll (p : Place) (glyphs : List Glyph) :
    (p.afterAll glyphs).offset = p.offset + (glyphs.flatMap Glyph.bytes).length := by
  induction glyphs generalizing p with
  | nil => simp [afterAll]
  | cons g rest ih =>
    have step : (p.after g).offset = p.offset + g.width := by unfold after; split <;> rfl
    rw [show p.afterAll (g :: rest) = (p.after g).afterAll rest from rfl, ih, step]
    simp [Glyph.width, Nat.add_assoc]

end Place

/-- A stretch of a source, from a place to a place. -/
structure Span where
  start : Place
  stop : Place
  deriving DecidableEq

end DocComment
