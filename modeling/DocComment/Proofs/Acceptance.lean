import DocComment.Proofs.Decoding
import DocComment.Proofs.Placing
import DocComment.Proofs.Sentence

/-!
# Acceptance

Reading accepts the sentences of the grammar behind which only blanks are left, and refuses every other source at
the first token that no sentence goes on with. The tokens read so far lead to a stage, and the step that ends the
reading is taken there; what it says of the stage is what the grammar says of those tokens.
-/

namespace DocComment

namespace Reading

/-! ## The end of a reading -/

theorem step_of_reads {atFront : Bool} {stage : Stage} {input : List Glyph} {e : Ending}
    (reads : Reads atFront stage input ⟨[], e⟩) : step atFront stage input = .ending e := by
  cases reads with
  | ending read => exact read

/-- A reading ends at the stage behind its tokens, where what its lexemes leave of the source is read. -/
theorem step_behind (source : List UInt8) :
    ∃ stage, Stage.start.behindAll (ofSource source).tokens = some stage ∧
      Glyph.decode source = (ofSource source).lexemes.flatMap Lexeme.glyphs ++
        Glyph.decode (source.drop (ofSource source).reached.offset) ∧
      step (ofSource source).lexemes.isEmpty stage (Glyph.decode (source.drop (ofSource source).reached.offset)) =
        .ending (ofSource source).ending := by
  have reads : Reads true .start (Glyph.decode source) (ofSource source) := reads_readFrom ..
  obtain ⟨stage, left, run, split, reads⟩ := reads.behind (List.append_nil _).symm
  have offset : (ofSource source).reached.offset =
      (((ofSource source).lexemes.flatMap Lexeme.glyphs).flatMap Glyph.bytes).length := by
    rw [reached, Place.offset_afterAll, Place.origin, Nat.zero_add]
  rw [offset, Glyph.decode_drop split]
  exact ⟨stage, run, split, step_of_reads reads⟩

private theorem endingAt_eq_accepted_iff (stage : Stage) (padding trailing : List Glyph) :
    endingAt stage padding = .accepted trailing ↔ stage = .closed ∧ padding = trailing := by
  unfold endingAt
  split <;> simp_all

/-- A step accepts exactly at the last stage, if nothing but padding is left. -/
theorem step_eq_accepted_iff (atFront : Bool) (stage : Stage) (input trailing : List Glyph) :
    step atFront stage input = .ending (.accepted trailing) ↔ stage = .closed ∧ pad atFront input = (trailing, []) := by
  constructor
  · intro read
    rcases step_ending read with ⟨t, _, found⟩ | ⟨padding, padded, found⟩ | ⟨_, found⟩
    · cases found
    · obtain ⟨closed, rfl⟩ := (endingAt_eq_accepted_iff ..).mp found.symm
      exact ⟨closed, padded⟩
    · cases found
  · rintro ⟨rfl, padded⟩
    exact step_of_pad .closed padded

/-- Away from the front, all of the input is padding exactly if it is blank. -/
theorem pad_eq_all_iff (input : List Glyph) :
    (∃ trailing, pad false input = (trailing, [])) ↔ ∀ g ∈ input, g.isBlank = true := by
  rw [pad_noMark (by simp)]
  simp [List.dropWhile_eq_nil_iff]

private theorem not_fits_of_step {atFront : Bool} {stage : Stage} {input : List Glyph} {t : Token}
    (read : step atFront stage input = .ending (.rejected (.token t))) : stage.next t = none := by
  rcases step_ending read with ⟨t', notFitting, found⟩ | ⟨padding, _, found⟩ | ⟨_, found⟩
  · cases found
    exact notFitting
  · unfold endingAt at found
    split at found <;> cases found
  · cases found

private theorem not_closed_of_step {atFront : Bool} {stage : Stage} {input : List Glyph}
    (read : step atFront stage input = .ending (.rejected .endOfInput)) : stage ≠ .closed := by
  rintro rfl
  rcases step_ending read with ⟨t, _, found⟩ | ⟨padding, _, found⟩ | ⟨_, found⟩ <;> cases found

/-- Reading accepts exactly at the last stage, if what is left is blank. -/
theorem ending_eq_accepted_iff (source : List UInt8) :
    (∃ trailing, (ofSource source).ending = .accepted trailing) ↔
      Stage.start.behindAll (ofSource source).tokens = some .closed ∧
        ∀ g ∈ Glyph.decode (source.drop (ofSource source).reached.offset), g.isBlank = true := by
  obtain ⟨stage, run, _, read⟩ := step_behind source
  have accepted (trailing : List Glyph) : (ofSource source).ending = .accepted trailing ↔
      stage = .closed ∧ pad (ofSource source).lexemes.isEmpty
        (Glyph.decode (source.drop (ofSource source).reached.offset)) = (trailing, []) := by
    rw [← step_eq_accepted_iff, read]
    exact ⟨congrArg _, Step.ending.inj⟩
  simp only [accepted, run, Option.some.injEq, exists_and_left]
  refine and_congr_right ?_
  rintro rfl
  have behindLexeme : (ofSource source).lexemes.isEmpty = false := by
    cases lexemes : (ofSource source).lexemes with
    | nil => simp [tokens, lexemes] at run
    | cons l rest => rfl
  rw [behindLexeme]
  exact pad_eq_all_iff _

/-- Of an accepted source, the lexemes lead to the last stage and leave what trails them. -/
theorem behindAll_of_accepted {source : List UInt8} {trailing : List Glyph}
    (accepted : (ofSource source).ending = .accepted trailing) :
    Stage.start.behindAll (ofSource source).tokens = some .closed ∧
      Glyph.decode source = (ofSource source).lexemes.flatMap Lexeme.glyphs ++ trailing := by
  obtain ⟨stage, run, split, read⟩ := step_behind source
  rw [accepted] at read
  obtain ⟨rfl, padded⟩ := (step_eq_accepted_iff ..).mp read
  have whole := pad_append (ofSource source).lexemes.isEmpty
    (Glyph.decode (source.drop (ofSource source).reached.offset))
  rw [padded, List.append_nil] at whole
  exact ⟨run, by rw [split, ← whole]⟩

/-- No lexeme is empty. -/
theorem body_ne_nil {source : List UInt8} {l : Lexeme} (member : l ∈ (ofSource source).lexemes) : l.body ≠ [] := by
  obtain ⟨before, after, cut⟩ := List.append_of_mem member
  obtain ⟨_, _, _, _, _, lexed, _⟩ := (reads_ofSource cut).lexed
  exact List.ne_nil_of_length_pos lexed.found.positive

end Reading

/-- A lexeme of a source takes up a stretch of it. -/
theorem Placed.start_lt_stop_of_mem {source : List UInt8} {p : Placed}
    (member : p ∈ inTurn .origin (Reading.ofSource source).lexemes) : p.span.start.offset < p.span.stop.offset := by
  obtain ⟨before, after, cut⟩ := List.append_of_mem member
  have isLexeme : p.lexeme ∈ (Reading.ofSource source).lexemes := by
    rw [← map_lexeme_inTurn .origin (Reading.ofSource source).lexemes]
    exact List.mem_map_of_mem member
  obtain ⟨g, rest, body⟩ := List.exists_cons_of_ne_nil (Reading.body_ne_nil isLexeme)
  have positive := g.width_pos
  rw [(span_of_inTurn cut).2, Place.offset_afterAll, body, List.flatMap_cons, List.length_append]
  exact Nat.lt_add_of_pos_right (Nat.add_pos_left positive _)

/-! ## Trees of accepted readings -/

/-- An accepted source has the tree of a derivation from its lexemes, in their places. -/
theorem Node.ofSource?_of_accepted {source : List UInt8} {trailing : List Glyph}
    (accepted : (Reading.ofSource source).ending = .accepted trailing) :
    ∃ c, c.IsDerivation Placed.token ∧ c.parts = Placed.inTurn .origin (Reading.ofSource source).lexemes ∧
      ofSource? source = some (ofComment c ((Reading.ofSource source).reached.afterAll trailing)) := by
  have run := (Reading.behindAll_of_accepted accepted).1
  rw [Reading.tokens, ← Placed.map_token_inTurn .origin] at run
  obtain ⟨c, grouped, derivation, parts⟩ := Comment.exists_of_behindAll run
  exact ⟨c, derivation, parts, by simp [ofSource?, ofReading?, accepted, grouped]⟩

/-- The tree of a source is that of a derivation, and what trails its lexemes is part of it. -/
theorem Node.exists_of_ofSource? {source : List UInt8} {root : Node} (valid : ofSource? source = some root) :
    ∃ c trailing, c.IsDerivation Placed.token ∧ c.parts = Placed.inTurn .origin (Reading.ofSource source).lexemes ∧
      Glyph.decode source = (Reading.ofSource source).lexemes.flatMap Lexeme.glyphs ++ trailing ∧
      root = ofComment c ((Reading.ofSource source).reached.afterAll trailing) := by
  cases ending : (Reading.ofSource source).ending with
  | rejected found => simp [ofSource?, ofReading?, ending] at valid
  | accepted trailing =>
    obtain ⟨c, derivation, parts, tree⟩ := ofSource?_of_accepted ending
    rw [tree] at valid
    exact ⟨c, trailing, derivation, parts, (Reading.behindAll_of_accepted ending).2, (Option.some.inj valid).symm⟩

/-- A source has a tree exactly if reading accepts it. -/
theorem Node.isSome_ofSource?_iff (source : List UInt8) :
    (Node.ofSource? source).isSome = true ↔ ∃ trailing, (Reading.ofSource source).ending = .accepted trailing := by
  constructor
  · intro tree
    cases ending : (Reading.ofSource source).ending with
    | accepted trailing => exact ⟨trailing, rfl⟩
    | rejected found => simp [ofSource?, ofReading?, ending] at tree
  · rintro ⟨trailing, accepted⟩
    obtain ⟨c, _, _, tree⟩ := ofSource?_of_accepted accepted
    simp [tree]

/-! ## Acceptance and the grammar -/

/-- The tokens read from a source always start a sentence. Reading accepts the source, and shows its tree, exactly
if they are a sentence and only blanks are left behind them. Otherwise the token that was found does not go on with
them in any sentence, and where the source ended instead, they are no sentence. -/
theorem accepts_exactly_sentences (source : List UInt8) :
    IsSentencePrefix (Reading.ofSource source).tokens ∧
      ((∃ trailing, (Reading.ofSource source).ending = .accepted trailing) ↔
        IsSentence (Reading.ofSource source).tokens ∧
          ∀ g ∈ Glyph.decode (source.drop (Reading.ofSource source).reached.offset), g.isBlank = true) ∧
      ((Node.ofSource? source).isSome = true ↔ ∃ trailing, (Reading.ofSource source).ending = .accepted trailing) ∧
      (∀ t, (Reading.ofSource source).ending = .rejected (.token t) →
        ¬ IsSentencePrefix ((Reading.ofSource source).tokens ++ [t])) ∧
      ((Reading.ofSource source).ending = .rejected .endOfInput → ¬ IsSentence (Reading.ofSource source).tokens) := by
  obtain ⟨stage, run, _, read⟩ := Reading.step_behind source
  refine ⟨(isSentencePrefix_iff _).mpr ⟨stage, run⟩, ?_, Node.isSome_ofSource?_iff source, ?_, ?_⟩
  · rw [isSentence_iff]
    exact Reading.ending_eq_accepted_iff source
  · intro t ending more
    rw [ending] at read
    obtain ⟨behind, further⟩ := (isSentencePrefix_iff _).mp more
    simp [Stage.behindAll_append, run, Reading.not_fits_of_step read] at further
  · intro ending sentence
    rw [ending] at read
    have closed := run.symm.trans ((isSentence_iff _).mp sentence)
    exact Reading.not_closed_of_step read (Option.some.inj closed)

end DocComment
