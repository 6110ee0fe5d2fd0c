import DocComment.Proofs.Terminator

/-!
# Braces

In a valid source every brace, opening or closing, is in a lexeme that starts with an opening one and stands behind a
text of its description (`braces_owned`). What the lexeme encloses is told by its pattern. Where it is not closed, it is
the longest only before an at sign, and that starts the name of a tag.
-/

namespace DocComment

/-! ## What a brace encloses -/

namespace GlyphPattern

/-- Braces are an opening mark, what that encloses, and a closing mark at the end or none at all. -/
theorem matches_brace_iff (word : List Glyph) :
    brace.Matches word ↔ ∃ inner, inner ≠ [] ∧ (∀ g ∈ inner, g ≠ .scalar '@' ∧ g ≠ .scalar '\x7d') ∧
      (word = .scalar '\x7b' :: inner ∨ word = .scalar '\x7b' :: (inner ++ [.scalar '\x7d'])) := by
  have isInner (inner : List Glyph) : (onceOrMore (one .enclosed)).Matches inner ↔
      inner ≠ [] ∧ ∀ g ∈ inner, g ≠ .scalar '@' ∧ g ≠ .scalar '\x7d' := by
    simp only [matches_onceOrMoreOne_iff, GlyphClass.contains_enclosed_iff]
  have isClosing (closing : List Glyph) : (optional (one (.only '\x7d'))).Matches closing ↔
      closing = [] ∨ closing = [.scalar '\x7d'] := by
    simp [optional, Matches, GlyphClass.contains_only, or_comm]
  cases word with
  | nil => simp [brace]
  | cons opening word =>
    rw [brace, matches_one_inTurn_cons, GlyphClass.contains_only, beq_iff_eq]
    constructor
    · rintro ⟨rfl, inner, closing, rfl, held, last⟩
      obtain ⟨nonempty, enclosed⟩ := (isInner inner).mp held
      rcases (isClosing closing).mp last with rfl | rfl
      · exact ⟨inner, nonempty, enclosed, Or.inl (by rw [List.append_nil])⟩
      · exact ⟨inner, nonempty, enclosed, Or.inr rfl⟩
    · rintro ⟨inner, nonempty, enclosed, whole | whole⟩
      · obtain ⟨rfl, rfl⟩ := List.cons.inj whole
        exact ⟨rfl, word, [], (List.append_nil _).symm, (isInner _).mpr ⟨nonempty, enclosed⟩,
          (isClosing _).mpr (Or.inl rfl)⟩
      · obtain ⟨rfl, rfl⟩ := List.cons.inj whole
        exact ⟨rfl, inner, _, rfl, (isInner _).mpr ⟨nonempty, enclosed⟩, (isClosing _).mpr (Or.inr rfl)⟩

/-- A brace that is not closed is the longest only before an at sign. -/
theorem IsLongest.sign_of_open {word rest : List Glyph} {g : Glyph} (longest : brace.IsLongest (word ++ g :: rest) word)
    (notClosed : word.getLast? ≠ some (.scalar '\x7d')) : g = .scalar '@' := by
  obtain ⟨inner, nonempty, enclosed, rfl | rfl⟩ := (matches_brace_iff word).mp longest.isMatch
  · by_contra other
    -- Anything else would close the brace or be enclosed, so a longer one would be there.
    have longer : brace.Matches (.scalar '\x7b' :: (inner ++ [g])) := by
      refine (matches_brace_iff _).mpr ?_
      by_cases closes : g = .scalar '\x7d'
      · exact ⟨inner, nonempty, enclosed, Or.inr (by rw [closes])⟩
      · refine ⟨inner ++ [g], by simp, ?_, Or.inl rfl⟩
        intro a member
        rcases List.mem_append.mp member with inside | last
        · exact enclosed a inside
        · rw [List.mem_singleton.mp last]
          exact ⟨other, closes⟩
    have bound := longest.noLonger _ ⟨rest, by simp⟩ longer
    simp only [List.length_cons, List.length_append, List.length_nil] at bound
    omega
  · exact absurd (by rw [← List.cons_append, List.getLast?_concat]) notClosed

end GlyphPattern

theorem Recognised.eq_brace {identifiers : Bool} {t : Token} {word rest : List Glyph} {c : Char}
    (isMark : c = '\x7b' ∨ c = '\x7d') (found : Recognised identifiers (word ++ rest) t word.length)
    (member : Glyph.scalar c ∈ word) : t = .brace := by
  have noName (q : Automaton.tagName.State) : Automaton.tagName.next q (.scalar c) = none := by
    rcases isMark with rfl | rfl <;> cases q <;> rfl
  have noIdentifier (q : Automaton.identifier.State) : Automaton.identifier.next q (.scalar c) = none := by
    rcases isMark with rfl | rfl <;> cases q <;> rfl
  have breaks : Automaton.breaksText (.scalar c) = true := by
    rcases isMark with rfl | rfl <;> rfl
  rcases found.of_mem noName noIdentifier member with ⟨-, slash⟩ | ⟨-, rfl⟩ | ⟨-, longest⟩ | brace
  · rcases isMark with rfl | rfl <;> cases slash
  · rcases isMark with rfl | rfl <;> cases List.mem_singleton.mp member
  · exact absurd member (Automaton.not_mem_of_stop (Automaton.breaks_stops_text breaks) longest)
  · exact brace

/-! ## Where braces fit -/

namespace Stage

theorem eq_description_of_brace {reached behind : Stage} (fits : reached.next .brace = some behind) :
    reached = .description ∧ behind = .description := by
  cases reached <;> cases fits
  exact ⟨rfl, rfl⟩

/-- Inside a description, the tokens so far end in a text and what else belongs to the description. -/
theorem exists_text {tokens : List Token} (run : start.behindAll tokens = some .description) :
    ∃ front prose, tokens = front ++ .text :: prose ∧ ∀ t ∈ prose, t.isProse = true := by
  -- A brace does not leave the description, so the token that entered it was a text.
  induction tokens using List.reverseRecOn with
  | nil => cases run
  | append_singleton tokens t ih =>
    obtain ⟨reached, before, fits⟩ := Option.bind_eq_some_iff.mp ((behindAll_append ..).symm.trans run)
    have fits : reached.next t = some .description := by simpa using fits
    by_cases text : t = .text
    · exact ⟨tokens, [], by rw [text], by simp⟩
    · obtain ⟨rfl, rfl⟩ : reached = .description ∧ t = .brace := by
        cases t with
        | text => contradiction
        | brace => exact ⟨(eq_description_of_brace fits).1, rfl⟩
        | tagName c => cases reached <;> cases c <;> cases fits
        | _ => cases reached <;> cases fits
      obtain ⟨front, prose, rfl, isProse⟩ := ih before
      refine ⟨front, prose ++ [.brace], by simp, ?_⟩
      intro t member
      rcases List.mem_append.mp member with inside | last
      · exact isProse t inside
      · rw [List.mem_singleton.mp last]
        rfl

end Stage

namespace Reading

theorem Reads.next_name {stage : Stage} {rest : List Glyph} {lexemes : List Lexeme} {trailing : List Glyph}
    (reads : Reads false stage (.scalar '@' :: rest) ⟨lexemes, .accepted trailing⟩) :
    ∃ name more, lexemes = name :: more ∧ name.token.isTagName = true ∧ name.padding = [] := by
  obtain ⟨name, more, _, _, rfl, noPadding, body, lexed, -⟩ := reads.unpadded (by decide)
  obtain ⟨g, _, starts, -, -, isName, -⟩ := lexed.found.first
  rw [body] at starts
  exact ⟨name, more, rfl, isName.mpr (List.cons.inj starts).1.symm, noPadding⟩

/-- What a brace is among the lexemes before and behind it. -/
structure Braced (before : List Lexeme) (l : Lexeme) (after : List Lexeme) : Prop where
  /-- It belongs to a description, in which a text is before it. -/
  behindText : ∃ front text prose, before = front ++ text :: prose ∧ text.token = .text ∧
    ∀ p ∈ prose, p.token.isProse = true
  encloses : ∃ inner, inner ≠ [] ∧ (∀ g ∈ inner, g ≠ .scalar '@' ∧ g ≠ .scalar '\x7d') ∧
    (l.body = .scalar '\x7b' :: inner ∨ l.body = .scalar '\x7b' :: (inner ++ [.scalar '\x7d']))
  /-- Where it is not closed, a tag follows at once. -/
  runsOn : l.isOpen = true → ∃ name more, after = name :: more ∧ name.token.isTagName = true ∧ name.padding = []

/-- A closing mark is the last of its brace. -/
theorem Braced.closes {before after : List Lexeme} {l : Lexeme} (braced : Braced before l after)
    {inner outer : List Glyph} (body : l.body = inner ++ .scalar '\x7d' :: outer) : outer = [] := by
  obtain ⟨held, -, enclosed, isOpen | closed⟩ := braced.encloses
  all_goals
    have notHeld : Glyph.scalar '\x7d' ∉ Glyph.scalar '\x7b' :: held := by
      intro member
      rcases List.mem_cons.mp member with opening | inside
      · cases opening
      · exact (enclosed _ inside).2 rfl
  · exact absurd (by simp [← isOpen, body]) notHeld
  · rcases cut_of_append ((List.cons_append ..).trans (closed.symm.trans body)) with ⟨mid, -, last⟩ | ⟨mid, inside, -⟩
    · obtain ⟨-, last⟩ | ⟨-, nothing⟩ := List.singleton_eq_append_iff.mp last
      · exact (List.cons.inj last).2
      · cases nothing
    · exact absurd (by simp [inside]) notHeld

theorem Reads.braced {input : List Glyph} {before after : List Lexeme} {l : Lexeme} {trailing : List Glyph}
    (reads : Reads true .start input ⟨before ++ l :: after, .accepted trailing⟩)
    (notNull : ∀ g ∈ input, g.isNull = false) (isBrace : l.token = .brace) : Braced before l after := by
  obtain ⟨reached, behind, rest, run, split, ⟨fits, -, found⟩, later⟩ := reads.lexed
  rw [isBrace] at fits found
  obtain ⟨rfl, rfl⟩ := Stage.eq_description_of_brace fits
  have longest : GlyphPattern.brace.IsLongest (l.body ++ rest) l.body := by
    have notNull : ∀ g ∈ l.body ++ rest, g.isNull = false := by
      intro g member
      refine notNull g ?_
      rw [split, Lexeme.glyphs, List.append_assoc]
      exact List.mem_append_right _ (List.mem_append_right _ member)
    have longest := found.longest notNull
    rwa [List.take_left] at longest
  refine ⟨?_, (GlyphPattern.matches_brace_iff _).mp longest.isMatch, ?_⟩
  · obtain ⟨_, _, tokens, isProse⟩ := Stage.exists_text run
    obtain ⟨front, more, rfl, -, more'⟩ := List.map_eq_append_iff.mp tokens
    obtain ⟨text, prose, rfl, isText, rfl⟩ := List.map_eq_cons_iff.mp more'
    exact ⟨front, text, prose, rfl, isText, fun p member => isProse _ (List.mem_map_of_mem member)⟩
  · intro isOpen
    have notClosed : l.body.getLast? ≠ some (.scalar '\x7d') := by simpa [Lexeme.isOpen, isBrace] using isOpen
    obtain ⟨_, member, -⟩ := later.exists_not_blank (by decide)
    obtain ⟨g, rest, rfl⟩ := List.exists_cons_of_ne_nil (List.ne_nil_of_mem member)
    obtain rfl := longest.sign_of_open notClosed
    exact later.next_name

end Reading

/-! ## Braces in a valid source -/

/-- In a valid text without U+0000, every opening and every closing mark is in a brace, and a closing one is its last
character. A brace stands behind a text of its description; its first mark encloses something, but no at sign, up to the
mark that closes it or to the name of a tag, which follows at once. So none is open behind the last name of a tag. -/
theorem braces_owned {text : String} (noNull : '\x00' ∉ text.toList)
    (valid : (Node.ofSource? (encode text)).isSome = true) :
    (∀ front c back, text.toList = front ++ c :: back → c = '\x7b' ∨ c = '\x7d' →
      ∃ before l after inner outer, (Reading.ofSource (encode text)).lexemes = before ++ l :: after ∧ l.token = .brace ∧
        front.map Glyph.scalar = before.flatMap Lexeme.glyphs ++ (l.padding ++ inner) ∧
        l.body = inner ++ .scalar c :: outer ∧ (c = '\x7d' → outer = [])) ∧
    (∀ before l after, (Reading.ofSource (encode text)).lexemes = before ++ l :: after → l.token = .brace →
      Reading.Braced before l after) ∧
    (∀ before after, (Reading.ofSource (encode text)).lexemes = before ++ after →
      (∀ l ∈ after, l.token.isTagName = false) → ∀ l ∈ after, l.isOpen = false) := by
  obtain ⟨trailing, accepted⟩ := (Node.isSome_ofSource?_iff (encode text)).mp valid
  have notNull : ∀ g ∈ Glyph.spell text, g.isNull = false := by
    intro g member
    obtain ⟨c, inText, rfl⟩ := List.mem_map.mp member
    have notNull : c ≠ '\x00' := fun null => noNull (null ▸ inText)
    simpa [Glyph.isNull] using notNull
  have braced : ∀ before l after, (Reading.ofSource (encode text)).lexemes = before ++ l :: after → l.token = .brace →
      Reading.Braced before l after := by
    intro before l after cut isBrace
    have reads := Reading.reads_ofSource cut
    rw [accepted, Glyph.decode_encode] at reads
    exact reads.braced notNull isBrace
  refine ⟨?_, braced, ?_⟩
  · intro front c back split isMark
    have reads : Reading.Reads true .start (Glyph.spell text) (Reading.ofSource (encode text)) := by
      rw [← Glyph.decode_encode]
      exact Reading.reads_readFrom ..
    have spelled : Glyph.spell text = front.map Glyph.scalar ++ .scalar c :: back.map Glyph.scalar := by
      rw [Glyph.spell, split, List.map_append, List.map_cons]
    obtain ⟨before, l, after, inner, outer, _, _, _, cut, place, body, -, lexed, -⟩ :=
      reads.exists_owner accepted spelled (by rcases isMark with rfl | rfl <;> rfl)
        (by rcases isMark with rfl | rfl <;> decide)
    have isBrace : l.token = .brace := lexed.found.eq_brace isMark (by simp [body])
    refine ⟨before, l, after, inner, outer, cut, isBrace, place, body, ?_⟩
    rintro rfl
    exact (braced before l after cut isBrace).closes body
  · intro before after cut noName l member
    by_contra isOpen
    rw [Bool.not_eq_false] at isOpen
    obtain ⟨front, back, rfl⟩ := List.append_of_mem member
    have isBrace : l.token = .brace := by
      simp only [Lexeme.isOpen, Bool.and_eq_true, beq_iff_eq] at isOpen
      exact isOpen.1
    rw [← List.append_assoc] at cut
    obtain ⟨name, more, rfl, isName, -⟩ := (braced _ l back cut isBrace).runsOn isOpen
    rw [noName name (by simp)] at isName
    cases isName

/-- The first brace of this text is closed by its last mark; the second runs over a star and a slash up to the tag. -/
theorem braces_owned_twice :
    '\x00' ∉ "/* a \x7bb \x7bc\x7d \x7b*/\n@e/".toList ∧
      (Node.ofSource? (encode "/* a \x7bb \x7bc\x7d \x7b*/\n@e/")).isSome = true ∧
      "/* a \x7bb \x7bc\x7d \x7b*/\n@e/".toList = "/* a \x7bb \x7bc".toList ++ '\x7d' :: " \x7b*/\n@e/".toList ∧
      (∃ before l after inner outer,
        (Reading.ofSource (encode "/* a \x7bb \x7bc\x7d \x7b*/\n@e/")).lexemes = before ++ l :: after ∧
          l.token = .brace ∧
          "/* a \x7bb \x7bc".toList.map Glyph.scalar = before.flatMap Lexeme.glyphs ++ (l.padding ++ inner) ∧
          l.body = inner ++ .scalar '\x7d' :: outer ∧ ('\x7d' = '\x7d' → outer = [])) ∧
      Reading.Braced
        [⟨.slash, [], Glyph.spell "/"⟩, ⟨.star, [], Glyph.spell "*"⟩, ⟨.text, Glyph.spell " ", Glyph.spell "a "⟩,
          ⟨.brace, [], Glyph.spell "\x7bb \x7bc\x7d"⟩]
        ⟨.brace, Glyph.spell " ", Glyph.spell "\x7b*/\n"⟩
        [⟨.tagName .plain, [], Glyph.spell "@e"⟩, ⟨.slash, [], Glyph.spell "/"⟩] := by
  have noNull : '\x00' ∉ "/* a \x7bb \x7bc\x7d \x7b*/\n@e/".toList := by decide +kernel
  have valid : (Node.ofSource? (encode "/* a \x7bb \x7bc\x7d \x7b*/\n@e/")).isSome = true := by decide +kernel
  have place : "/* a \x7bb \x7bc\x7d \x7b*/\n@e/".toList =
      "/* a \x7bb \x7bc".toList ++ '\x7d' :: " \x7b*/\n@e/".toList := by decide +kernel
  have read : (Reading.ofSource (encode "/* a \x7bb \x7bc\x7d \x7b*/\n@e/")).lexemes =
      [⟨.slash, [], Glyph.spell "/"⟩, ⟨.star, [], Glyph.spell "*"⟩, ⟨.text, Glyph.spell " ", Glyph.spell "a "⟩,
        ⟨.brace, [], Glyph.spell "\x7bb \x7bc\x7d"⟩] ++ ⟨.brace, Glyph.spell " ", Glyph.spell "\x7b*/\n"⟩ ::
        [⟨.tagName .plain, [], Glyph.spell "@e"⟩, ⟨.slash, [], Glyph.spell "/"⟩] := by decide +kernel
  obtain ⟨owned, braced, -⟩ := braces_owned noNull valid
  exact ⟨noNull, valid, place, owned _ _ _ place (Or.inr rfl), braced _ _ _ read rfl⟩

end DocComment
