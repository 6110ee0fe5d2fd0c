import Mathlib.Data.List.Induction
import DocComment.Proofs.Decoding
import DocComment.Proofs.Reads

/-!
# Lexemes: told by the first character, and as long as can be

The first character of a lexeme and the tokens before it tell its token, and the lexeme is the longest match of
the pattern of that token. Of the tokens before, only the last tag matters: the stage where identifiers are looked
for is the one behind a tag name that asks for them (`stage_eq_parameters_iff`).
-/

namespace DocComment

/-! ## Where identifiers are looked for -/

/-- The last tokens are the name of a tag that takes one parameter, or the name of a tag that takes a list and
identifiers behind it. -/
def ExpectsIdentifier (before : List Token) : Prop :=
  (∃ front, before = front ++ [.tagName .single]) ∨
    ∃ front parameters, before = front ++ .tagName .multiple :: parameters ∧ ∀ t ∈ parameters, t = .identifier

namespace Stage

private theorem next_eq_oneParameter_iff {stage behind : Stage} {t : Token} (next : stage.next t = some behind) :
    behind = .oneParameter ↔ t = .tagName .single := by
  cases t with
  | tagName c => cases c <;> cases stage <;> simp [Stage.next, behindName] at next <;> simp [← next]
  | _ => cases stage <;> simp [Stage.next] at next <;> simp [← next]

private theorem next_eq_parameters_iff {stage behind : Stage} {t : Token} (next : stage.next t = some behind) :
    behind = .parameters ↔ t = .tagName .multiple ∨ (t = .identifier ∧ stage = .parameters) := by
  cases t with
  | tagName c => cases c <;> cases stage <;> simp [Stage.next, behindName] at next <;> simp [← next]
  | _ => cases stage <;> simp [Stage.next] at next <;> simp [← next]

theorem eq_slash_of_next_start {behind : Stage} {t : Token} (next : start.next t = some behind) : t = .slash := by
  cases t <;> simp [Stage.next] at next
  rfl

private theorem behindAll_snoc {before : List Token} {t : Token} {stage : Stage}
    (run : start.behindAll (before ++ [t]) = some stage) :
    ∃ earlier, start.behindAll before = some earlier ∧ earlier.next t = some stage := by
  rw [behindAll_append] at run
  obtain ⟨earlier, first, last⟩ := Option.bind_eq_some_iff.mp run
  exact ⟨earlier, first, by simpa using last⟩

theorem stage_eq_oneParameter_iff {before : List Token} {stage : Stage} (run : start.behindAll before = some stage) :
    stage = .oneParameter ↔ ∃ front, before = front ++ [.tagName .single] := by
  rcases List.eq_nil_or_concat before with rfl | ⟨before, t, rfl⟩
  · obtain rfl : start = stage := by simpa using run
    simp
  · rw [List.concat_eq_append] at run ⊢
    obtain ⟨earlier, _, next⟩ := behindAll_snoc run
    rw [next_eq_oneParameter_iff next]
    constructor
    · rintro rfl
      exact ⟨before, rfl⟩
    · rintro ⟨front, same⟩
      exact List.singleton_inj.mp (List.append_inj_right' same rfl)

theorem stage_eq_parameters_iff {before : List Token} {stage : Stage} (run : start.behindAll before = some stage) :
    stage = .parameters ↔
      ∃ front parameters, before = front ++ .tagName .multiple :: parameters ∧ ∀ t ∈ parameters, t = .identifier := by
  induction before using List.reverseRecOn generalizing stage with
  | nil =>
    obtain rfl : start = stage := by simpa using run
    simp
  | append_singleton before t ih =>
    obtain ⟨earlier, run, next⟩ := behindAll_snoc run
    rw [next_eq_parameters_iff next, ih run]
    constructor
    · rintro (rfl | ⟨rfl, front, parameters, rfl, identifiers⟩)
      · exact ⟨before, [], rfl, by simp⟩
      · refine ⟨front, parameters ++ [.identifier], by simp, ?_⟩
        intro t member
        rcases List.mem_append.mp member with member | member
        · exact identifiers t member
        · exact List.mem_singleton.mp member
    · rintro ⟨front, parameters, same, identifiers⟩
      rcases List.eq_nil_or_concat parameters with rfl | ⟨parameters, last, rfl⟩
      · exact Or.inl (List.singleton_inj.mp (List.append_inj_right' same rfl))
      · rw [List.concat_eq_append, ← List.cons_append, ← List.append_assoc] at same
        obtain rfl := List.append_inj_left' same rfl
        obtain rfl : t = last := List.singleton_inj.mp (List.append_inj_right' same rfl)
        exact Or.inr ⟨identifiers t (by simp), front, parameters, rfl, fun t member => identifiers t (by simp [member])⟩

/-- Behind some tokens, identifiers are looked for inside a comment exactly if these tokens ask for one. -/
theorem identifiers_iff {before : List Token} {stage : Stage} (run : start.behindAll before = some stage)
    (inside : stage ≠ .start ∧ stage ≠ .closed) : stage.identifiers = true ↔ ExpectsIdentifier before := by
  rw [ExpectsIdentifier, ← stage_eq_oneParameter_iff run, ← stage_eq_parameters_iff run]
  obtain ⟨notStart, notClosed⟩ := inside
  cases stage <;> simp [identifiers] at notStart notClosed ⊢

end Stage

/-! ## The token and the length of a lexeme -/

/-- What a lexeme behind some tokens, with the rest of its source behind it, owes to its first character: the token,
and being the longest match of the pattern of that token. -/
structure Lexeme.IsLongestFrom (before : List Token) (c : Char) (rest : List Glyph) (l : Lexeme) : Prop where
  first : l.body.head? = some (.scalar c)
  notBlank : (Glyph.scalar c).isBlank = false
  slash : l.token = .slash ↔ c = '/'
  star : l.token = .star ↔ c = '*'
  tagName : (∃ k, l.token = .tagName k) ↔ c = '@'
  brace : l.token = .brace ↔ c = '\x7b'
  identifier : l.token = .identifier ↔ GlyphClass.identifierStart.contains (.scalar c) = true ∧ ExpectsIdentifier before
  text : l.token = .text ↔
    c ≠ '/' ∧ c ≠ '*' ∧ c ≠ '@' ∧ c ≠ '\x7b' ∧
      ¬ (GlyphClass.identifierStart.contains (.scalar c) = true ∧ ExpectsIdentifier before)
  longest : l.token.pattern.IsLongest (l.body ++ rest) l.body

private theorem isTagName_iff (t : Token) : t.isTagName = true ↔ ∃ k, t = .tagName k := by
  cases t <;> simp [Token.isTagName]

private theorem text_iff (t : Token) :
    t = .text ↔ t ≠ .slash ∧ t ≠ .star ∧ (¬ ∃ k, t = .tagName k) ∧ t ≠ .brace ∧ t ≠ .identifier := by
  cases t <;> simp

/-- A lexeme that is read where the tokens before it have led is told by its first character. -/
theorem Reading.isLongestFrom_of_step {atFront : Bool} {before : List Token} {stage behind : Stage} {l : Lexeme}
    {rest : List Glyph} (run : Stage.start.behindAll before = some stage)
    (read : step atFront stage (l.glyphs ++ rest) = .lexeme l behind)
    (characters : ∀ g ∈ l.body ++ rest, ∃ c, g = .scalar c ∧ c ≠ '\x00') :
    ∃ c, l.IsLongestFrom before c rest := by
  obtain ⟨fits, input, n, padded, found, body⟩ := (step_eq_lexeme_iff ..).mp read
  have input_eq : input = l.body ++ rest := by
    have whole := pad_append atFront (l.glyphs ++ rest)
    rw [padded, Lexeme.glyphs, List.append_assoc] at whole
    exact List.append_cancel_left whole
  obtain ⟨g, more, cons, slash, star, tagName, brace, identifier⟩ := found.first
  obtain ⟨c, rfl, _⟩ := characters g (by rw [← input_eq, cons]; simp)
  have notNull : ∀ g ∈ input, g.isNull = false := by
    intro g member
    obtain ⟨c, rfl, notNull⟩ := characters g (input_eq ▸ member)
    simpa [Glyph.isNull] using notNull
  rw [isTagName_iff] at tagName
  simp only [Glyph.scalar.injEq] at slash star tagName brace
  have looked : l.token = .identifier ↔
      GlyphClass.identifierStart.contains (.scalar c) = true ∧ ExpectsIdentifier before := by
    rw [GlyphClass.contains_identifierStart]
    -- Identifiers are looked for before the comment as well, but only its slash fits there.
    by_cases first : stage = .start
    · subst first
      have token : l.token = .slash := Stage.eq_slash_of_next_start fits
      obtain rfl := slash.mp token
      have notLetter : (Glyph.scalar '/').startsIdentifier = false := by decide
      simp [token, notLetter]
    · have notClosed : stage ≠ .closed := by
        rintro rfl
        simp [Stage.next] at fits
      rw [← Stage.identifiers_iff run ⟨first, notClosed⟩, identifier, and_comm]
  refine ⟨c, ?_, ?_, slash, star, tagName, brace, looked, ?_, ?_⟩
  · have positive := found.positive
    obtain ⟨k, rfl⟩ : ∃ k, n = k + 1 := ⟨n - 1, by omega⟩
    rw [body, cons]
    rfl
  · have notBlank := notBlank_of_pad atFront (l.glyphs ++ rest)
    rw [padded, cons] at notBlank
    exact notBlank _ rfl
  · simp only [text_iff, ne_eq, slash, star, tagName, brace, looked]
  · rw [← input_eq]
    have := found.longest notNull
    rwa [← body] at this

/-- Every lexeme of a text without U+0000 stands behind blanks, and a byte order mark if it is the first, and is told
by its first character: by that and the tokens before it is its token, and it is the longest match of the pattern of
its token. -/
theorem lexeme_isLongestFrom (text : String) (noNull : '\x00' ∉ text.toList) {before after : List Lexeme} {l : Lexeme}
    (read : (Reading.ofSource (encode text)).lexemes = before ++ l :: after) :
    ∃ c rest, Glyph.spell text = before.flatMap Lexeme.glyphs ++ l.padding ++ l.body ++ rest ∧
      Reading.IsPadding before.isEmpty l.padding ∧
      (before = [] → l.padding = [] → Glyph.scalar c ≠ Glyph.byteOrderMark) ∧
      l.IsLongestFrom (before.map Lexeme.token) c rest := by
  have reads : Reading.Reads true .start (Glyph.spell text) (Reading.ofSource (encode text)) := by
    rw [← Glyph.decode_encode]
    exact Reading.reads_readFrom ..
  obtain ⟨stage, left, run, split, reads⟩ := reads.behind read
  obtain ⟨behind, rest, rfl, step, _⟩ := reads.first
  have characters : ∀ g ∈ l.body ++ rest, ∃ c, g = .scalar c ∧ c ≠ '\x00' := by
    intro g member
    have member : g ∈ Glyph.spell text := by
      rw [split, Lexeme.glyphs, List.append_assoc]
      exact List.mem_append_right _ (List.mem_append_right _ member)
    obtain ⟨c, inText, rfl⟩ := List.mem_map.mp member
    exact ⟨c, rfl, fun null => noNull (null ▸ inText)⟩
  obtain ⟨c, longest⟩ := Reading.isLongestFrom_of_step run step characters
  obtain ⟨_, input, _, padded, _⟩ := (Reading.step_eq_lexeme_iff ..).mp step
  refine ⟨c, rest, by simp [split, Lexeme.glyphs], ?_, ?_, longest⟩
  · have padding := Reading.isPadding_pad (true && before.isEmpty) (l.glyphs ++ rest)
    rwa [padded, Bool.true_and] at padding
  · rintro rfl none mark
    obtain ⟨body, starts⟩ := List.head?_eq_some_iff.mp longest.first
    have marked := Reading.pad_mark (body ++ rest)
    rw [Lexeme.glyphs, none, starts, mark] at padded
    simp [marked] at padded

/-- In `/ ab*c* d/` the text behind the slash goes on over its stars, but not over what no stars end. -/
theorem lexeme_isLongestFrom_stars :
    '\x00' ∉ "/ ab*c* d/".toList ∧
      (Reading.ofSource (encode "/ ab*c* d/")).lexemes =
        [⟨.slash, [], Glyph.spell "/"⟩] ++ ⟨.text, Glyph.spell " ", Glyph.spell "ab*c*"⟩ ::
          [⟨.text, Glyph.spell " ", Glyph.spell "d/"⟩] ∧
      ∃ c rest, Glyph.spell "/ ab*c* d/" = Glyph.spell "/" ++ Glyph.spell " " ++ Glyph.spell "ab*c*" ++ rest ∧
        Reading.IsPadding false (Glyph.spell " ") ∧
        ([⟨.slash, [], Glyph.spell "/"⟩] = ([] : List Lexeme) → Glyph.spell " " = [] →
          Glyph.scalar c ≠ Glyph.byteOrderMark) ∧
        Lexeme.IsLongestFrom [.slash] c rest ⟨.text, Glyph.spell " ", Glyph.spell "ab*c*"⟩ := by
  have noNull : '\x00' ∉ "/ ab*c* d/".toList := by decide +kernel
  have read : (Reading.ofSource (encode "/ ab*c* d/")).lexemes =
      [⟨.slash, [], Glyph.spell "/"⟩] ++ ⟨.text, Glyph.spell " ", Glyph.spell "ab*c*"⟩ ::
        [⟨.text, Glyph.spell " ", Glyph.spell "d/"⟩] := by decide +kernel
  exact ⟨noNull, read, lexeme_isLongestFrom _ noNull read⟩

end DocComment
