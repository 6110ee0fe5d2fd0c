import DocComment.Tree.Query

/-!
# Lexemes in their places

Lexemes put in turn keep their order, and each of them stands behind the bytes of those before it and of its own
padding. Of a source that is read, these bytes are the front.
-/

namespace DocComment

namespace Placed

/-- The sizes of some lexemes together. -/
def width (ps : List Placed) : Nat := ps.foldr (fun p n => p.lexeme.size + n) 0

theorem width_eq (ps : List Placed) :
    width ps = ((ps.flatMap fun p => p.lexeme.glyphs).flatMap Glyph.bytes).length := by
  induction ps with
  | nil => rfl
  | cons p rest ih =>
    rw [List.flatMap_cons, List.flatMap_append, List.length_append, ← ih]
    rfl

theorem map_lexeme_inTurn (p : Place) (lexemes : List Lexeme) : (inTurn p lexemes).map lexeme = lexemes := by
  induction lexemes generalizing p with
  | nil => rfl
  | cons l rest ih => simp [inTurn, ih]

/-- The tokens of lexemes stay when they are put in their places. -/
theorem map_token_inTurn (p : Place) (lexemes : List Lexeme) :
    (inTurn p lexemes).map token = lexemes.map Lexeme.token := by
  rw [← congrArg (List.map Lexeme.token) (map_lexeme_inTurn p lexemes), List.map_map]
  rfl

/-- A lexeme stands behind the lexemes before it and its own padding. -/
theorem span_of_inTurn {p : Place} {lexemes : List Lexeme} {before after : List Placed} {q : Placed}
    (cut : inTurn p lexemes = before ++ q :: after) :
    q.span.start = p.afterAll ((before.flatMap fun b => b.lexeme.glyphs) ++ q.lexeme.padding) ∧
      q.span.stop = q.span.start.afterAll q.lexeme.body := by
  induction before generalizing p lexemes with
  | nil =>
    cases lexemes with
    | nil => cases cut
    | cons l rest =>
      obtain ⟨rfl, _⟩ := List.cons.inj cut
      exact ⟨rfl, rfl⟩
  | cons first before ih =>
    cases lexemes with
    | nil => cases cut
    | cons l rest =>
      obtain ⟨rfl, later⟩ := List.cons.inj cut
      obtain ⟨start, stop⟩ := ih later
      refine ⟨?_, stop⟩
      rw [start, List.flatMap_cons, Lexeme.glyphs, List.append_assoc, List.append_assoc, Place.afterAll_append p,
        Place.afterAll_append (p.afterAll l.padding)]

/-- Behind others, a lexeme starts where their sizes and its padding lead, and stops where its size leads; up to
there the source holds their bytes and those of the lexeme. -/
structure StandsIn (source : List UInt8) (before : List Placed) (p : Placed) : Prop where
  start : p.span.start.offset = width before + (p.lexeme.padding.flatMap Glyph.bytes).length
  stop : p.span.stop.offset = width before + p.lexeme.size
  bytes : source.take p.span.stop.offset =
    source.take p.span.start.offset ++ p.lexeme.body.flatMap Glyph.bytes

private theorem exists_tail {source : List UInt8} {lexemes : List Lexeme} {trailing : List Glyph}
    (read : Glyph.decode source = lexemes.flatMap Lexeme.glyphs ++ trailing) {before rest after : List Placed}
    {first : Placed} (cut : inTurn .origin lexemes = before ++ (first :: rest) ++ after) :
    ∃ tail, source = ((before.flatMap fun p => p.lexeme.glyphs) ++ first.lexeme.padding).flatMap Glyph.bytes ++
      ((first.lexeme.body ++ rest.flatMap fun p => p.lexeme.glyphs).flatMap Glyph.bytes ++ tail) := by
  refine ⟨((after.map lexeme).flatMap Lexeme.glyphs ++ trailing).flatMap Glyph.bytes, ?_⟩
  rw [← map_lexeme_inTurn .origin lexemes, cut] at read
  rw [← Glyph.bytes_decode source, read]
  simp [Lexeme.glyphs, List.flatMap_map]

/-- Lexemes in turn stand behind the place that they start from, none of them before the end of another that it comes
after. -/
theorem ordered_inTurn (p : Place) (lexemes : List Lexeme) :
    (∀ q ∈ inTurn p lexemes, p.offset ≤ q.span.start.offset) ∧
      (inTurn p lexemes).Pairwise fun q r => q.span.stop.offset ≤ r.span.start.offset := by
  induction lexemes generalizing p with
  | nil => exact ⟨by simp [inTurn], .nil⟩
  | cons l rest ih =>
    obtain ⟨behind, ordered⟩ := ih ((p.afterAll l.padding).afterAll l.body)
    refine ⟨?_, .cons behind ordered⟩
    intro q member
    rcases List.mem_cons.mp member with rfl | member
    · simp only [Place.offset_afterAll]
      omega
    · have later := behind q member
      simp only [Place.offset_afterAll] at later
      omega

/-- A lexeme starts behind the bytes of those before it and of its own padding. -/
theorem start_of_inTurn {lexemes : List Lexeme} {before after : List Placed} {p : Placed}
    (cut : inTurn .origin lexemes = before ++ p :: after) :
    p.span.start.offset =
      (((before.map lexeme).flatMap Lexeme.glyphs ++ p.lexeme.padding).flatMap Glyph.bytes).length := by
  rw [(span_of_inTurn cut).1, Place.offset_afterAll, List.flatMap_map]
  exact Nat.zero_add _

/-- A lexeme stops behind the bytes of those before it and of its own. -/
theorem stop_of_inTurn {lexemes : List Lexeme} {before after : List Placed} {p : Placed}
    (cut : inTurn .origin lexemes = before ++ p :: after) :
    p.span.stop.offset = (((before ++ [p]).flatMap fun q => q.lexeme.glyphs).flatMap Glyph.bytes).length := by
  obtain ⟨start, stop⟩ := span_of_inTurn cut
  rw [stop, start, ← Place.afterAll_append, Place.offset_afterAll, Place.origin]
  simp [Lexeme.glyphs]

theorem stop_le_of_read {source : List UInt8} {lexemes : List Lexeme} {trailing : List Glyph}
    (read : Glyph.decode source = lexemes.flatMap Lexeme.glyphs ++ trailing) {before after : List Placed} {p : Placed}
    (cut : inTurn .origin lexemes = before ++ p :: after) : p.span.stop.offset ≤ source.length := by
  have whole : source = (((before ++ [p]).flatMap fun q => q.lexeme.glyphs).flatMap Glyph.bytes) ++
      ((after.flatMap fun q => q.lexeme.glyphs) ++ trailing).flatMap Glyph.bytes := by
    rw [← List.flatMap_map lexeme, ← List.flatMap_map lexeme, ← List.flatMap_append, ← List.append_assoc,
      ← List.flatMap_append, ← List.map_append, ← List.append_cons, ← cut, map_lexeme_inTurn, ← read,
      Glyph.bytes_decode]
  rw [stop_of_inTurn cut, congrArg List.length whole, List.length_append]
  exact Nat.le_add_right _ _

theorem standsIn_of_read {source : List UInt8} {lexemes : List Lexeme} {trailing : List Glyph}
    (read : Glyph.decode source = lexemes.flatMap Lexeme.glyphs ++ trailing) {before after : List Placed} {p : Placed}
    (cut : inTurn .origin lexemes = before ++ p :: after) : p.StandsIn source before := by
  obtain ⟨start, stop⟩ := span_of_inTurn cut
  have startOffset : p.span.start.offset = width before + (p.lexeme.padding.flatMap Glyph.bytes).length := by
    rw [start, Place.offset_afterAll, List.flatMap_append, List.length_append, ← width_eq, Place.origin]
    exact Nat.zero_add _
  have stopOffset : p.span.stop.offset = width before + p.lexeme.size := by
    rw [stop, Place.offset_afterAll, startOffset, Lexeme.size, Lexeme.glyphs, List.flatMap_append, List.length_append]
    omega
  have alone : inTurn .origin lexemes = before ++ [p] ++ after := by simp [cut]
  obtain ⟨tail, whole⟩ := exists_tail read alone
  rw [List.flatMap_nil, List.append_nil] at whole
  have front : (((before.flatMap fun b => b.lexeme.glyphs) ++ p.lexeme.padding).flatMap Glyph.bytes).length =
      p.span.start.offset := by
    rw [startOffset, List.flatMap_append, List.length_append, width_eq]
  have body : p.span.stop.offset = p.span.start.offset + (p.lexeme.body.flatMap Glyph.bytes).length := by
    rw [stop, Place.offset_afterAll]
  refine ⟨startOffset, stopOffset, ?_⟩
  rw [whole, body, ← front, List.take_length_add_append, List.take_left, List.take_left]

theorem width_append (front back : List Placed) : width (front ++ back) = width front + width back := by
  rw [width_eq, width_eq, width_eq, List.flatMap_append, List.flatMap_append, List.length_append]

/-- What some lexemes in turn cover of their source is the first without its padding, and the others. -/
theorem slice_cover {source : List UInt8} {lexemes : List Lexeme} {trailing : List Glyph}
    (read : Glyph.decode source = lexemes.flatMap Lexeme.glyphs ++ trailing) {before rest after : List Placed}
    {first : Placed} (cut : inTurn .origin lexemes = before ++ (first :: rest) ++ after) :
    (Node.cover first rest).slice source =
      (first.lexeme.body ++ rest.flatMap fun p => p.lexeme.glyphs).flatMap Glyph.bytes := by
  have nonempty := List.cons_ne_nil first rest
  obtain ⟨front, last, run⟩ : ∃ front last, first :: rest = front ++ [last] :=
    ⟨_, _, (List.dropLast_concat_getLast nonempty).symm⟩
  have isLast : (first :: rest).getLast nonempty = last := by simp [run]
  have startCut : inTurn .origin lexemes = before ++ first :: (rest ++ after) := by simp [cut]
  have stopCut : inTurn .origin lexemes = (before ++ front) ++ last :: after := by
    rw [cut, run]
    simp
  have start : first.span.start.offset =
      (((before.flatMap fun p => p.lexeme.glyphs) ++ first.lexeme.padding).flatMap Glyph.bytes).length := by
    rw [(standsIn_of_read read startCut).start, width_eq, List.flatMap_append, List.length_append]
  have stop : last.span.stop.offset = first.span.start.offset +
      ((first.lexeme.body ++ rest.flatMap fun p => p.lexeme.glyphs).flatMap Glyph.bytes).length := by
    have size : width (before ++ front) + last.lexeme.size = width (before ++ first :: rest) := by
      rw [run, ← List.append_assoc, width_append _ [last]]
      rfl
    rw [(standsIn_of_read read stopCut).stop, size, start, width_eq]
    simp only [List.flatMap_append, List.flatMap_cons, Lexeme.glyphs, List.length_append]
    omega
  obtain ⟨tail, whole⟩ := exists_tail read cut
  have distance : last.span.stop.offset - first.span.start.offset =
      ((first.lexeme.body ++ rest.flatMap fun p => p.lexeme.glyphs).flatMap Glyph.bytes).length := by omega
  rw [Span.slice, Node.cover, isLast, distance, start, whole, List.drop_left, List.take_left]

end Placed

end DocComment
