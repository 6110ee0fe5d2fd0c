import DocComment.Proofs.Composition
import DocComment.Proofs.Moving

/-!
# The end of a comment

A star and a slash in a valid source are its end, or lie inside a brace (`terminator_owned`). A piece of text never
takes in a slash behind a star, no lexeme but a slash starts with one, and a slash behind the opening one closes the
comment. So the star at the end is one of the opening stars or the last character of a description.
-/

namespace DocComment

theorem Glyph.decode_terminator (front back : List UInt8) :
    decode (front ++ encode "*/" ++ back) = decode front ++ .scalar '*' :: .scalar '/' :: decode back := by
  have bytes : encode "*/" = [0x2a, 0x2f] := by decide +kernel
  have slash : decode (0x2f :: back) = .scalar '/' :: decode back := decode_utf8EncodeChar_append '/' back
  rw [bytes, List.append_assoc, List.cons_append, List.singleton_append, ← slash]
  exact decode_around (by decide) (by decide) front _

namespace Automaton

theorem star_stops_identifier (q : IdentifierState) : identifier.next q (.scalar '*') = none := by
  cases q <;> rfl

theorem star_stops_tagName (q : TagNameState) : tagName.next q (.scalar '*') = none := by
  cases q <;> rfl

/-- A piece of text takes in no slash right behind a star. -/
theorem text_star_slash (q : TextState) (rest : List Glyph) :
    text.reach? q (.scalar '*' :: .scalar '/' :: rest) = none := by
  cases q <;> rfl

end Automaton

theorem Stage.next_ne_start {stage : Stage} {t : Token} : stage.next t ≠ some .start := by
  cases stage <;> cases t <;> simp [Stage.next, Stage.behindName] <;> split <;> simp

namespace Recognised
variable {identifiers : Bool} {t : Token}

/-- A star before a slash ends a star or a text, or both lie inside a brace. -/
theorem of_star_slash {inner outer rest back : List Glyph}
    (found : Recognised identifiers (inner ++ .scalar '*' :: outer ++ rest) t (inner ++ .scalar '*' :: outer).length)
    (slash : outer ++ rest = .scalar '/' :: back) :
    ((t = .star ∨ t = .text) ∧ outer = []) ∨ (t = .brace ∧ ∃ more, outer = .scalar '/' :: more) := by
  have holds := found.of_mem Automaton.star_stops_tagName Automaton.star_stops_identifier (by simp)
  rcases List.append_eq_cons_iff.mp slash with ⟨rfl, rfl⟩ | ⟨more, rfl, -⟩
  · rcases holds with ⟨-, other⟩ | ⟨star, -⟩ | ⟨text, -⟩ | rfl
    · cases other
    · exact Or.inl ⟨Or.inl star, rfl⟩
    · exact Or.inl ⟨Or.inr text, rfl⟩
    · have closed : (inner ++ [Glyph.scalar '*']).getLast? = some (.scalar '\x7d') := found.isClosed (by decide)
      simp at closed
  · rcases holds with ⟨-, other⟩ | ⟨-, alone⟩ | ⟨-, longest⟩ | brace
    · cases other
    · simp [List.append_eq_singleton_iff] at alone
    · obtain ⟨_, reached, _⟩ := (Automaton.longest_append_iff ..).mp longest
      rw [Automaton.reach?_append] at reached
      obtain ⟨before, -, stuck⟩ := Option.bind_eq_some_iff.mp reached
      cases stuck.symm.trans (Automaton.text_star_slash before more)
    · exact Or.inr ⟨brace, more, rfl⟩

end Recognised

namespace Reading

/-! ## The lexeme that a glyph belongs to -/

theorem IsPadding.not_mem {atFront : Bool} {padding : List Glyph} (isPadding : IsPadding atFront padding) {g : Glyph}
    (notBlank : g.isBlank = false) (noMark : g ≠ Glyph.byteOrderMark) : g ∉ padding := by
  obtain ⟨mark, blanks, rfl, isMark, blank⟩ := isPadding
  intro member
  rcases List.mem_append.mp member with inMark | inBlanks
  · rcases isMark with rfl | ⟨-, rfl⟩
    · cases inMark
    · exact noMark (List.mem_singleton.mp inMark)
  · rw [blank g inBlanks] at notBlank
    cases notBlank

/-- In an accepted input, a glyph that is no padding belongs to the body of a lexeme. -/
theorem Reads.exists_owner {atFront : Bool} {stage : Stage} {input front back : List Glyph} {r : Reading}
    {trailing : List Glyph} {g : Glyph} (reads : Reads atFront stage input r) (accepted : r.ending = .accepted trailing)
    (split : input = front ++ g :: back) (notBlank : g.isBlank = false) (noMark : g ≠ Glyph.byteOrderMark) :
    ∃ before l after inner outer reached behind rest,
      r.lexemes = before ++ l :: after ∧ front = before.flatMap Lexeme.glyphs ++ (l.padding ++ inner) ∧
        l.body = inner ++ g :: outer ∧ back = outer ++ rest ∧
        Lexed (atFront && before.isEmpty) reached behind l rest ∧ Reads false behind rest ⟨after, r.ending⟩ := by
  -- The glyph is in the first lexeme, or in what is read behind it.
  induction reads generalizing front with
  | @ending atFront stage input e read =>
    obtain rfl : e = .accepted trailing := accepted
    have padded := ((step_eq_accepted_iff ..).mp read).2
    have whole := pad_append atFront input
    have isPadding := isPadding_pad atFront input
    rw [padded] at whole isPadding
    rw [List.append_nil] at whole
    rw [whole, split] at isPadding
    exact absurd (by simp) (isPadding.not_mem notBlank noMark)
  | @lexeme atFront stage l behind rest r read later ih =>
    obtain ⟨fits, padded, found⟩ := (step_glyphs_iff ..).mp read
    have noPadding : g ∉ l.padding := by
      have isPadding := isPadding_pad atFront (l.glyphs ++ rest)
      rw [padded] at isPadding
      exact isPadding.not_mem notBlank noMark
    rcases cut_of_append split with ⟨mid, rfl, more⟩ | ⟨outer, whole, tail⟩
    · obtain ⟨before, owner, after, inner, outer, reached, behind, left, lexemes, rfl, body, tail, lexed, onward⟩ :=
        ih accepted more
      refine ⟨l :: before, owner, after, inner, outer, reached, behind, left, ?_, ?_, body, tail, ?_, onward⟩
      · rw [push, lexemes, List.cons_append]
      · rw [List.flatMap_cons, List.append_assoc]
      · simpa using lexed
    · rcases cut_of_append whole with ⟨inner, rfl, body⟩ | ⟨_, padding, -⟩
      · have lexed : Lexed atFront stage behind l rest := ⟨fits, padded, found⟩
        exact ⟨[], l, r.lexemes, inner, outer, stage, behind, rest, rfl, rfl, body, tail, by simpa using lexed, later⟩
      · exact absurd (by simp [padding]) noPadding

/-! ## What follows a lexeme -/

/-- Before the last stage, something that is no blank has to follow. -/
theorem Reads.exists_not_blank {stage : Stage} {rest : List Glyph} {lexemes : List Lexeme} {trailing : List Glyph}
    (reads : Reads false stage rest ⟨lexemes, .accepted trailing⟩) (goesOn : stage ≠ .closed) :
    ∃ g ∈ rest, g.isBlank = false := by
  cases lexemes with
  | nil => exact absurd ((step_eq_accepted_iff ..).mp (step_of_reads reads)).1 goesOn
  | cons l more =>
    by_contra none
    obtain ⟨_, padded⟩ := (pad_eq_all_iff rest).mpr (by simpa using none)
    obtain ⟨behind, left, rfl, read, -⟩ := reads.first
    rw [step_of_pad stage padded] at read
    cases read

/-- A glyph that is no blank starts the next lexeme, which has no padding. -/
theorem Reads.unpadded {stage : Stage} {g : Glyph} {rest : List Glyph} {lexemes : List Lexeme} {trailing : List Glyph}
    (reads : Reads false stage (g :: rest) ⟨lexemes, .accepted trailing⟩) (notBlank : g.isBlank = false) :
    ∃ l more behind left, lexemes = l :: more ∧ l.padding = [] ∧ l.body ++ left = g :: rest ∧
      Lexed false stage behind l left ∧ Reads false behind left ⟨more, .accepted trailing⟩ := by
  have unpadded : pad false (g :: rest) = ([], g :: rest) := by
    rw [pad_noMark (by simp)]
    simp [notBlank]
  cases lexemes with
  | nil =>
    have padded := ((step_eq_accepted_iff ..).mp (step_of_reads reads)).2
    rw [unpadded] at padded
    cases padded
  | cons l more =>
    obtain ⟨behind, left, split, read, later⟩ := reads.first
    obtain ⟨fits, padded, found⟩ := (step_glyphs_iff ..).mp read
    obtain ⟨noPadding, body⟩ := Prod.mk.inj (unpadded.symm.trans (split ▸ padded))
    exact ⟨l, more, behind, left, rfl, noPadding.symm, body.symm, ⟨fits, padded, found⟩, later⟩

/-- Behind the opening slash, a slash that no blank precedes closes the comment, and only blanks follow it. -/
theorem Reads.closes {stage : Stage} {rest : List Glyph} {lexemes : List Lexeme} {trailing : List Glyph}
    (reads : Reads false stage (.scalar '/' :: rest) ⟨lexemes, .accepted trailing⟩) (started : stage ≠ .start) :
    ∃ closing, lexemes = [closing] ∧ ∀ g ∈ rest, g.isBlank = true := by
  obtain ⟨closing, more, behind, left, rfl, -, body, ⟨fits, -, found⟩, later⟩ := reads.unpadded (by decide)
  have slash : closing.token = .slash := by
    obtain ⟨g, _, starts, isSlash, _⟩ := found.first
    rw [body] at starts
    exact isSlash.mpr (List.cons.inj starts).1.symm
  rw [slash] at found fits
  rw [found.eq_slash] at body
  obtain ⟨-, rfl⟩ := List.cons.inj body
  have closed : behind = .closed := by
    cases stage <;> simp [Stage.next] at fits started <;> exact fits.symm
  subst closed
  cases more with
  | nil =>
    have trails := ((step_eq_accepted_iff ..).mp (step_of_reads later)).2
    exact ⟨closing, rfl, (pad_eq_all_iff _).mp ⟨trailing, trails⟩⟩
  | cons l more =>
    obtain ⟨_, _, rfl, next, -⟩ := later.first
    cases ((step_glyphs_iff ..).mp next).1

/-! ## A star and a slash -/

/-- What a star and a slash behind some glyphs of a source are to its lexemes: both lie inside a brace, or the star ends
the last lexeme before the closing slash. -/
inductive Owned (lexemes : List Lexeme) (front back : List Glyph) : Prop
  | enclosed {before after l inner more} : lexemes = before ++ l :: after → l.token = .brace →
      front = before.flatMap Lexeme.glyphs ++ (l.padding ++ inner) →
      l.body = inner ++ .scalar '*' :: .scalar '/' :: more → (∃ g ∈ back, g.isBlank = false) →
      Owned lexemes front back
  | closing {before l closing inner} : lexemes = before ++ [l, closing] → l.token = .star ∨ l.token = .text →
      front = before.flatMap Lexeme.glyphs ++ (l.padding ++ inner) → l.body = inner ++ [.scalar '*'] →
      (∀ g ∈ back, g.isBlank = true) → Owned lexemes front back

theorem owned_of_accepted {source : List UInt8} {trailing front back : List Glyph}
    (accepted : (ofSource source).ending = .accepted trailing)
    (split : Glyph.decode source = front ++ .scalar '*' :: .scalar '/' :: back) :
    Owned (ofSource source).lexemes front back := by
  have reads : Reads true .start (Glyph.decode source) (ofSource source) := reads_readFrom ..
  obtain ⟨before, l, after, inner, outer, reached, behind, rest, lexemes, place, body, tail, lexed, onward⟩ :=
    reads.exists_owner accepted split (by decide) (by decide)
  have found := lexed.found
  rw [body] at found
  rw [accepted] at onward
  -- Where the star ends its lexeme, the slash starts what follows; no brace ends the comment.
  rcases found.of_star_slash tail.symm with ⟨isLast, rfl⟩ | ⟨brace, more, rfl⟩
  · have started : behind ≠ .start := by
      rintro rfl
      exact Stage.next_ne_start lexed.fits
    rw [List.nil_append] at tail
    rw [← tail] at onward
    obtain ⟨closing, rfl, blank⟩ := onward.closes started
    exact .closing lexemes isLast place body blank
  · have goesOn : behind ≠ .closed := by
      rintro rfl
      have fits := lexed.fits
      rw [brace] at fits
      cases reached <;> cases fits
    obtain ⟨g, member, notBlank⟩ := onward.exists_not_blank goesOn
    obtain ⟨-, rfl⟩ := List.cons.inj tail
    exact .enclosed lexemes brace place body ⟨g, by simp [member], notBlank⟩

end Reading

/-! ## The places of the star and the slash -/

namespace Placed

theorem exists_of_owner {lexemes before after : List Lexeme} {l : Lexeme} {front inner outer : List Glyph}
    (cut : lexemes = before ++ l :: after) (place : front = before.flatMap Lexeme.glyphs ++ (l.padding ++ inner))
    (body : l.body = inner ++ outer) :
    ∃ front' p back', inTurn .origin lexemes = front' ++ p :: back' ∧ p.lexeme = l ∧
      back'.map lexeme = after ∧ p.span.start.offset ≤ (front.flatMap Glyph.bytes).length ∧
      p.span.stop.offset = (front.flatMap Glyph.bytes).length + (outer.flatMap Glyph.bytes).length := by
  have turns := inTurn_append .origin before (l :: after)
  rw [← cut, inTurn] at turns
  obtain ⟨start, stop⟩ := span_of_inTurn turns
  have glyphs : (inTurn .origin before).flatMap (fun b => b.lexeme.glyphs) = before.flatMap Lexeme.glyphs := by
    rw [← List.flatMap_map lexeme, map_lexeme_inTurn]
  refine ⟨_, _, _, turns, rfl, map_lexeme_inTurn _ _, ?_, ?_⟩
  · rw [start, glyphs, Place.offset_afterAll, Place.origin, place]
    simp only [List.flatMap_append, List.length_append]
    omega
  · rw [stop, start, glyphs, body, Place.offset_afterAll, Place.offset_afterAll, Place.origin, place]
    simp only [List.flatMap_append, List.length_append]
    omega

/-- Both lie inside a brace of the source, or the star ends the last lexeme before the closing slash. -/
theorem owned_inTurn {source front back : List UInt8} {trailing : List Glyph}
    (accepted : (Reading.ofSource source).ending = .accepted trailing) (split : source = front ++ encode "*/" ++ back) :
    (∃ p ∈ inTurn .origin (Reading.ofSource source).lexemes, p.token = .brace ∧
        p.span.start.offset ≤ front.length ∧ front.length + 2 ≤ p.span.stop.offset ∧
        ∃ g ∈ Glyph.decode back, g.isBlank = false) ∨
      ∃ before p closing inner, inTurn .origin (Reading.ofSource source).lexemes = before ++ [p, closing] ∧
        (p.token = .star ∨ p.token = .text) ∧ p.lexeme.body = inner ++ [.scalar '*'] ∧
        p.span.stop.offset = front.length + 1 ∧ ∀ g ∈ Glyph.decode back, g.isBlank = true := by
  have bytes : (Glyph.decode front).flatMap Glyph.bytes = front := Glyph.bytes_decode front
  have decoded : Glyph.decode source = Glyph.decode front ++ .scalar '*' :: .scalar '/' :: Glyph.decode back := by
    rw [split, Glyph.decode_terminator]
  cases Reading.owned_of_accepted accepted decoded with
  | enclosed cut brace place body notBlank =>
    obtain ⟨_, p, _, turns, rfl, -, start, stop⟩ := exists_of_owner cut place body
    rw [bytes] at start stop
    refine Or.inl ⟨p, by simp [turns], brace, start, ?_, notBlank⟩
    have star : Glyph.bytes (.scalar '*') = [0x2a] := by decide
    have slash : Glyph.bytes (.scalar '/') = [0x2f] := by decide
    rw [stop, List.flatMap_cons, List.flatMap_cons, star, slash]
    simp only [List.length_append, List.length_singleton]
    omega
  | closing cut kind place body blank =>
    obtain ⟨before, p, later, turns, rfl, last, -, stop⟩ := exists_of_owner cut place body
    obtain ⟨closing, rfl, -⟩ := List.map_eq_singleton_iff.mp last
    rw [bytes] at stop
    exact Or.inr ⟨before, p, closing, _, turns, kind, body, stop, blank⟩

theorem exists_last_run (ps : List Placed) (p : Placed) :
    ∃ others run, runs (ps ++ [p]) = others ++ [run ++ [p]] ∧ ps = others.flatten ++ run := by
  have flat : (runs (ps ++ [p])).flatten = ps ++ [p] := List.flatten_splitBy ..
  rcases List.eq_nil_or_concat (runs (ps ++ [p])) with nothing | ⟨others, run, split⟩
  · simp [nothing] at flat
  · rw [split, List.concat_eq_append] at flat ⊢
    have nonempty : run ≠ [] := List.ne_nil_of_mem_splitBy (by rw [← runs, split]; simp)
    rcases List.eq_nil_or_concat run with rfl | ⟨run, q, rfl⟩
    · contradiction
    · rw [List.flatten_append, List.flatten_singleton, List.concat_eq_append, ← List.append_assoc] at flat
      obtain ⟨whole, rfl⟩ := List.append_singleton_inj.mp flat
      exact ⟨others, run, by rw [List.concat_eq_append], whole.symm⟩

end Placed

namespace Node

theorem Shows.of_prose {run : List Placed} {p : Placed} {n : Node} (shown : Shows (run ++ [p]) n)
    (prose : p.token.isProse = true) : n.symbol = .description := by
  generalize whole : run ++ [p] = ps at shown
  cases shown with
  | @leaf q other =>
    obtain ⟨rfl, rfl⟩ : run = [] ∧ p = q := by simpa [List.append_eq_singleton_iff] using whole
    rw [prose] at other
    cases other
  | description _ _ => rfl

/-- What ends some nodes that show some lexemes shows the last of these. -/
theorem exists_last_shown {ps : List Placed} {p : Placed} {nodes : List Node}
    (shown : List.Forall₂ Shows (Placed.runs (ps ++ [p])) nodes) :
    ∃ others n front run, nodes = others ++ [n] ∧ ps = front ++ run ∧ Shows (run ++ [p]) n := by
  obtain ⟨others, run, split, whole⟩ := Placed.exists_last_run ps p
  rw [split, ← List.forall₂_reverse_iff, List.reverse_append, List.reverse_singleton, List.singleton_append,
    List.forall₂_cons_left_iff] at shown
  obtain ⟨n, before, shows, -, same⟩ := shown
  exact ⟨before.reverse, n, others.flatten, run, by simpa using congrArg List.reverse same, whole, shows⟩

end Node

/-! ## The end of a valid source -/

namespace Comment
variable {c : Comment Placed} {before : List Placed} {l closing : Placed}

private theorem ends_of_parts (cut : c.parts = before ++ [l, closing]) :
    c.opening :: (c.stars ++ c.stretch.parts) = before ++ [l] ∧ c.closing = closing := by
  rw [parts_eq, ← List.cons_append, List.append_cons before] at cut
  exact List.append_singleton_inj.mp cut

private theorem last_of_parts (cut : c.parts = before ++ [l, closing]) :
    (c.stretch.parts = [] ∧ l ∈ c.opening :: c.stars) ∨ ∃ body, c.stretch.parts = body ++ [l] := by
  have last := (ends_of_parts cut).1
  rcases List.eq_nil_or_concat c.stretch.parts with none | ⟨body, p, split⟩
  · rw [none, List.append_nil] at last
    exact Or.inl ⟨none, by simp [last]⟩
  · rw [List.concat_eq_append] at split
    rw [split, ← List.append_assoc, ← List.cons_append] at last
    obtain ⟨-, rfl⟩ := List.append_singleton_inj.mp last
    exact Or.inr ⟨body, split⟩

/-- Where a star stands before the closing slash, there are only stars between the slashes. -/
private theorem bare_of_star (derivation : c.IsDerivation Placed.token) (cut : c.parts = before ++ [l, closing])
    (star : l.token = .star) : c.description = [] ∧ c.tags = [] := by
  rcases last_of_parts cut with ⟨none, -⟩ | ⟨body, split⟩
  · simp only [stretch, Stretch.parts, List.nil_append, List.append_eq_nil_iff, List.flatMap_eq_nil_iff] at none
    refine ⟨none.1, List.eq_nil_iff_forall_not_mem.mpr ?_⟩
    intro t member
    have parts := none.2 t member
    simp [Tag.parts] at parts
  · exact absurd star (Stretch.noStar_of_fits (fits_stretch derivation) l (by simp [split]))

private theorem exists_of_text (derivation : c.IsDerivation Placed.token) (cut : c.parts = before ++ [l, closing])
    (text : l.token = .text) : ∃ body, c.stretch.parts = body ++ [l] := by
  rcases last_of_parts cut with ⟨-, member⟩ | split
  · rcases Node.front_kinds derivation l member with slash | star
    · simp [text] at slash
    · simp [text] at star
  · exact split

end Comment

namespace Node

/-- What the star before the closing slash is in a valid source, where that slash follows it at once. -/
inductive EndsInStar (root : Node) (ps : List Placed) (stop : Nat) : Prop
  /-- The last of the opening stars; the comment has neither description nor tags. -/
  | bare {before star closing} : ps = before ++ [star, closing] → star.token = .star → star.span.stop.offset = stop →
      (∀ p ∈ ps, p.token = .slash ∨ p.token = .star) → root.children = ps.map leaf → EndsInStar root ps stop
  /-- The last character of the last text of a description, which ends the body. -/
  | described {before run text closing nodes description} : ps = before ++ run ++ [text, closing] →
      text.token = .text → text.lexeme.body.getLast? = some (.scalar '*') → text.span.stop.offset = stop →
      root.frontier = nodes ++ [description, leaf closing] → description.symbol = .description →
      Shows (run ++ [text]) description → EndsInStar root ps stop

theorem endsInStar_ofComment {c : Comment Placed} (derivation : c.IsDerivation Placed.token) (stop : Place)
    {before : List Placed} {l closing : Placed} (cut : c.parts = before ++ [l, closing])
    (kind : l.token = .star ∨ l.token = .text) {inner : List Glyph} (body : l.lexeme.body = inner ++ [.scalar '*']) :
    EndsInStar (ofComment c stop) c.parts l.span.stop.offset := by
  rcases kind with star | text
  · obtain ⟨noDescription, noTags⟩ := Comment.bare_of_star derivation cut star
    have parts : c.parts = c.opening :: c.stars ++ [c.closing] := by
      simp [Comment.parts, noDescription, noTags]
    refine .bare cut star rfl ?_ ?_
    · rw [parts]
      intro p member
      rcases List.mem_append.mp member with front | last
      · exact front_kinds derivation p front
      · rw [List.mem_singleton.mp last]
        exact Or.inl derivation.closing
    · rw [parts, ofComment, noDescription, noTags]
      simp [children, ofDescription]
  · obtain ⟨_, stretch⟩ := Comment.exists_of_text derivation cut text
    have closes := (Comment.ends_of_parts cut).2
    have shown := shows_stretch derivation
    rw [stretch] at shown
    -- The text ends the last run of the body, so the last node before the closing slash is its description.
    obtain ⟨nodes, n, front, run, split, rfl, shows⟩ := exists_last_shown shown
    have whole : c.parts = (c.opening :: c.stars ++ front) ++ run ++ [l, closing] := by
      rw [Comment.parts_eq, stretch, closes]
      simp
    have frontier : (ofComment c stop).frontier =
        ((c.opening :: c.stars).map leaf ++ nodes) ++ [n, leaf closing] := by
      rw [frontier_ofComment, ← List.append_assoc (ofDescription _), split, closes]
      simp
    exact .described whole text (by simp [body]) rfl frontier (shows.of_prose (by rw [text]; rfl)) shows

/-- A star and a slash in a valid source are its end, or lie inside one brace. At the end, the star is one of the opening
stars of a bare comment, or it is the last character of the last description. So a comment whose last part before the
closing slash is a tag name, an identifier or a brace does not end in a star and a slash. -/
theorem terminator_owned {source : List UInt8} {root : Node} (valid : ofSource? source = some root) :
    (∀ front back, source = front ++ encode "*/" ++ back →
      (∀ g ∈ Glyph.decode back, g.isBlank = true) ∨
        ∃ p ∈ Placed.inTurn .origin (Reading.ofSource source).lexemes, p.token = .brace ∧
          p.span.start.offset ≤ front.length ∧ front.length + 2 ≤ p.span.stop.offset) ∧
    (∀ front back, source = front ++ encode "*/" ++ back → (∀ g ∈ Glyph.decode back, g.isBlank = true) →
      EndsInStar root (Placed.inTurn .origin (Reading.ofSource source).lexemes) (front.length + 1)) ∧
    (∀ before p closing, Placed.inTurn .origin (Reading.ofSource source).lexemes = before ++ [p, closing] →
      p.token.isTagName = true ∨ p.token = .identifier ∨ p.token = .brace →
      ∀ front back, source = front ++ encode "*/" ++ back → ∃ g ∈ Glyph.decode back, g.isBlank = false) := by
  obtain ⟨trailing, accepted⟩ := (isSome_ofSource?_iff source).mp (by rw [valid]; rfl)
  obtain ⟨c, _, derivation, parts, -, rfl⟩ := exists_of_ofSource? valid
  refine ⟨fun front back split => ?_, fun front back split blank => ?_, ?_⟩
  · rcases Placed.owned_inTurn accepted split with ⟨p, member, brace, start, stop, -⟩ | ⟨_, _, _, _, _, _, _, _, blank⟩
    · exact Or.inr ⟨p, member, brace, start, stop⟩
    · exact Or.inl blank
  · rcases Placed.owned_inTurn accepted split with
      ⟨_, _, _, _, _, g, member, notBlank⟩ | ⟨_, p, _, _, cut, kind, body, stop, -⟩
    · rw [blank g member] at notBlank
      cases notBlank
    · rw [← parts] at cut ⊢
      rw [← stop]
      exact endsInStar_ofComment derivation _ cut kind body
  · intro before p closing cut kind front back split
    rcases Placed.owned_inTurn accepted split with ⟨_, _, _, _, _, notBlank⟩ | ⟨_, _, _, _, other, isLast, -⟩
    · exact notBlank
    · obtain ⟨-, same⟩ := List.append_inj' (cut.symm.trans other) rfl
      obtain ⟨rfl, -⟩ := List.cons.inj same
      rcases isLast with star | text
      · simp [star, Token.isTagName] at kind
      · simp [text, Token.isTagName] at kind

/-- The first star and slash of this source lie inside its brace, and the others end its description. -/
theorem terminator_owned_twice :
    ∃ root, ofSource? (encode "/** a \x7b*/\x7d cb*/ ") = some root ∧
      (∃ p ∈ Placed.inTurn .origin (Reading.ofSource (encode "/** a \x7b*/\x7d cb*/ ")).lexemes, p.token = .brace ∧
        p.span.start.offset ≤ 7 ∧ 9 ≤ p.span.stop.offset) ∧
      EndsInStar root (Placed.inTurn .origin (Reading.ofSource (encode "/** a \x7b*/\x7d cb*/ ")).lexemes) 14 := by
  have valid : (ofSource? (encode "/** a \x7b*/\x7d cb*/ ")).isSome = true := by decide +kernel
  obtain ⟨root, found⟩ := Option.isSome_iff_exists.mp valid
  obtain ⟨owned, ends, -⟩ := terminator_owned found
  refine ⟨root, found, ?_, ?_⟩
  · rcases owned (encode "/** a \x7b") (encode "\x7d cb*/ ") (by decide +kernel) with blank | inBrace
    · exact absurd blank (by decide +kernel)
    · exact inBrace
  · exact ends (encode "/** a \x7b*/\x7d cb") (encode " ") (by decide +kernel) (by decide +kernel)

end Node

end DocComment
