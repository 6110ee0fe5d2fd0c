import DocComment.Proofs.LineBreaks

/-!
# Comments one behind the other

A body stands on lines of its own between an opening line and a closing line. Two bodies of which the second starts
with a tag make up one comment: it is read as the first comment up to its closing slash and then as the second behind
its opening line (`ofSource_composed`).
-/

namespace DocComment

/-- The source of a comment with a body on lines of its own. -/
def onLines (body : List UInt8) : List UInt8 := encode "/**\n" ++ body ++ encode "\n/"

namespace Glyph

theorem decode_onLines (body : List UInt8) :
    decode (onLines body) = spell "/**\n" ++ (decode body ++ [.scalar '\n', .scalar '/']) := by
  have closes : encode "\n/" = encode "\n" ++ encode "/" := by decide +kernel
  have slash : decode (encode "/") = [.scalar '/'] := by decide +kernel
  rw [onLines, List.append_assoc, decode_encode_append, closes, ← List.append_assoc, decode_lines, slash]

end Glyph

namespace Reading

/-! ## Opening lines -/

/-- The lexemes of an opening line. -/
def openingLine : List Lexeme :=
  [⟨.slash, [], [.scalar '/']⟩, ⟨.star, [], [.scalar '*']⟩, ⟨.star, [], [.scalar '*']⟩]

/-- Behind the lexemes of an opening line, what follows its stars is read. -/
theorem reads_openingLine {input : List Glyph} {r : Reading} (later : Reads false .opening input r) :
    Reads true .start (Glyph.spell "/**" ++ input) ⟨openingLine ++ r.lexemes, r.ending⟩ := by
  have star {rest : List Glyph} {r : Reading} (later : Reads false .opening rest r) :
      Reads false .opening (Lexeme.glyphs ⟨.star, [], [.scalar '*']⟩ ++ rest) (push ⟨.star, [], [.scalar '*']⟩ r) :=
    .lexeme (step_of_recognised (by simp) (by simp) rfl .star) later
  have noMark (rest : List Glyph) :
      (Lexeme.glyphs ⟨.slash, [], [.scalar '/']⟩ ++ rest).head? ≠ some Glyph.byteOrderMark := by
    simp [Lexeme.glyphs, Glyph.byteOrderMark]
  exact .lexeme (step_of_recognised (by simp) (fun _ => noMark _) rfl .slash) (star (star later))

/-! ## Closing lines -/

/-- The lexeme of a closing slash behind blanks and a line feed. -/
def closingLine (blanks : List Glyph) : Lexeme := ⟨.slash, blanks ++ [.scalar '\n'], [.scalar '/']⟩

theorem trailing_blank {source : List UInt8} {trailing : List Glyph}
    (accepted : (ofSource source).ending = .accepted trailing) : ∀ g ∈ trailing, g.isBlank = true := by
  obtain ⟨_, _, split, _⟩ := step_behind source
  have same := (behindAll_of_accepted accepted).2
  rw [split] at same
  rw [← List.append_cancel_left same]
  exact ((ending_eq_accepted_iff source).mp ⟨trailing, accepted⟩).2

/-- A closing slash behind other lexemes stands alone behind blanks. -/
theorem Reads.slash {atFront : Bool} {stage : Stage} {input : List Glyph} {before after : List Lexeme}
    {l : Lexeme} {e : Ending} (reads : Reads atFront stage input ⟨before ++ l :: after, e⟩) (nonempty : before ≠ [])
    (slash : l.token = .slash) : l.body = [.scalar '/'] ∧ ∀ g ∈ l.padding, g.isBlank = true := by
  obtain ⟨_, _, _, _, _, lexed, _⟩ := reads.lexed
  have away : (atFront && before.isEmpty) = false := by simp [nonempty]
  rw [away] at lexed
  have found := lexed.found
  rw [slash] at found
  exact ⟨found.eq_slash, lexed.blank⟩

/-- The last lexeme of an accepted source is a slash, and not the only one. -/
theorem exists_last {source : List UInt8} {trailing : List Glyph}
    (accepted : (ofSource source).ending = .accepted trailing) :
    ∃ before l closing, (ofSource source).lexemes = (before ++ [l]) ++ [closing] ∧ closing.token = .slash := by
  have run : Stage.start.behindAll ((ofSource source).lexemes.map Lexeme.token) = some .closed :=
    (behindAll_of_accepted accepted).1
  obtain ⟨c, _, derivation, parts⟩ := Comment.exists_of_behindAll run
  rw [Comment.parts] at parts
  rcases List.eq_nil_or_concat (c.opening :: c.stars ++ c.description ++ c.tags.flatMap Tag.parts) with
    nothing | ⟨before, l, split⟩
  · simp at nothing
  · rw [split, List.concat_eq_append] at parts
    exact ⟨before, l, c.closing, parts.symm, derivation.closing⟩

private theorem nothing_trails {source : List UInt8} {glyphs trailing : List Glyph}
    (decoded : Glyph.decode source = glyphs ++ [.scalar '/'])
    (accepted : (ofSource source).ending = .accepted trailing) : trailing = [] := by
  have split := (behindAll_of_accepted accepted).2
  rw [decoded] at split
  rcases List.eq_nil_or_concat trailing with nothing | ⟨front, g, rfl⟩
  · exact nothing
  · have last := congrArg List.getLast? split
    have blank := trailing_blank accepted g (by simp)
    simp at last
    subst last
    cases blank

/-- An open brace would take in what a closing slash begins with. -/
private theorem isEnclosed_of_mem_head? {padding : List Glyph} (blank : ∀ g ∈ padding, g.isBlank = true) :
    ∀ g ∈ (Lexeme.glyphs ⟨.slash, padding, [.scalar '/']⟩).head?, Automaton.isEnclosed g = true := by
  intro g head
  cases padding with
  | nil =>
    obtain rfl : Glyph.scalar '/' = g := Option.some.inj head
    decide
  | cons first more =>
    obtain rfl : first = g := Option.some.inj head
    exact Automaton.isEnclosed_of_isBlank (blank _ (by simp))

/-- What is accepted up to a closing line ends with its slash. The lexemes before it and the blanks behind them take up
the rest. -/
theorem exists_closingLine {source : List UInt8} {glyphs trailing : List Glyph}
    (decoded : Glyph.decode source = glyphs ++ [.scalar '\n', .scalar '/'])
    (accepted : (ofSource source).ending = .accepted trailing) :
    ∃ before blanks, ofSource source = ⟨before ++ [closingLine blanks], .accepted []⟩ ∧
      before.flatMap Lexeme.glyphs ++ blanks = glyphs ∧ (∀ g ∈ blanks, g.isBlank = true) ∧
      ∀ l ∈ before.getLast?, l.isOpen = false := by
  rw [List.append_cons] at decoded
  obtain rfl := nothing_trails decoded accepted
  obtain ⟨before, l, ⟨t, padding, body⟩, lexemes, slash⟩ := exists_last accepted
  obtain rfl : t = .slash := slash
  have reads : Reads true .start (Glyph.decode source) ⟨(before ++ [l]) ++ [⟨.slash, padding, body⟩], .accepted []⟩ := by
    rw [← lexemes, ← accepted]
    exact reads_readFrom ..
  obtain ⟨alone, blank⟩ := reads.slash (by simp) rfl
  obtain rfl : body = [.scalar '/'] := alone
  have split := (behindAll_of_accepted accepted).2
  rw [decoded, lexemes, List.append_nil, List.flatMap_append, List.flatMap_singleton, Lexeme.glyphs,
    ← List.append_assoc] at split
  have whole := List.append_cancel_right split
  rw [← List.append_cons] at reads
  obtain ⟨notOpen, more, last, ends, noLineFeed⟩ := reads.before_enclosed (isEnclosed_of_mem_head? blank)
  -- No lexeme ends with the line feed of the closing line, so that is padding.
  rcases List.eq_nil_or_concat padding with rfl | ⟨blanks, g, rfl⟩
  · rw [List.append_nil, List.flatMap_append, List.flatMap_singleton, ends, ← List.append_assoc] at whole
    exact absurd (List.append_singleton_inj.mp whole).2.symm noLineFeed
  · rw [List.concat_eq_append, ← List.append_assoc] at whole
    obtain ⟨rfl, rfl⟩ := List.append_singleton_inj.mp whole
    rw [List.concat_eq_append] at lexemes
    refine ⟨before ++ [l], blanks, ?_, rfl, fun b member => blank b (by simp [member]), ?_⟩
    · rw [closingLine, ← lexemes, ← accepted]
    · intro other isLast
      rw [List.getLast?_concat] at isLast
      obtain rfl := Option.some.inj isLast
      exact notOpen

/-! ## Bodies -/

/-- Between its opening line and its closing line, a body is read with the line feed before it. -/
theorem exists_body {body : List UInt8} {trailing : List Glyph}
    (accepted : (ofSource (onLines body)).ending = .accepted trailing) :
    ∃ ls blanks, ofSource (onLines body) = ⟨openingLine ++ (ls ++ [closingLine blanks]), .accepted []⟩ ∧
      (∀ g ∈ blanks, g.isBlank = true) ∧ ls.flatMap Lexeme.glyphs ++ blanks = .scalar '\n' :: Glyph.decode body ∧
      Reads false .opening (.scalar '\n' :: (Glyph.decode body ++ [.scalar '\n', .scalar '/']))
        ⟨ls ++ [closingLine blanks], .accepted []⟩ := by
  have decoded := Glyph.decode_onLines body
  have later := reads_readFrom false .opening (.scalar '\n' :: (Glyph.decode body ++ [.scalar '\n', .scalar '/']))
  generalize readFrom false .opening 0 (.scalar '\n' :: (Glyph.decode body ++ [.scalar '\n', .scalar '/'])) = r at later
  have whole : ofSource (onLines body) = ⟨openingLine ++ r.lexemes, r.ending⟩ := by
    rw [ofSource, ofGlyphs, decoded]
    exact (reads_iff ..).mp (reads_openingLine later)
  rw [← List.append_assoc] at decoded
  obtain ⟨before, blanks, closed, taken, blank, -⟩ := exists_closingLine decoded accepted
  obtain ⟨lexemes, e⟩ := r
  obtain ⟨split, rfl⟩ := Reading.mk.inj (whole.symm.trans closed)
  rcases List.eq_nil_or_concat lexemes with rfl | ⟨ls, last, rfl⟩
  · -- The last lexeme of an opening line is no slash.
    have ends := congrArg List.getLast? split
    rw [List.getLast?_concat] at ends
    cases ends
  · rw [List.concat_eq_append] at split later whole
    rw [← List.append_assoc] at split
    obtain ⟨rfl, rfl⟩ := List.append_singleton_inj.mp split
    rw [List.flatMap_append, List.append_assoc] at taken
    have opened : openingLine.flatMap Lexeme.glyphs ++ (ls.flatMap Lexeme.glyphs ++ blanks) =
        openingLine.flatMap Lexeme.glyphs ++ .scalar '\n' :: Glyph.decode body := taken
    exact ⟨ls, blanks, whole, blank, List.append_cancel_left opened, later⟩

/-! ## Readings from another stage -/

/-- A tag name is read the same at all stages but the first and the last. -/
theorem step_restaged {atFront : Bool} {stage other behind : Stage} {l : Lexeme} {rest : List Glyph}
    (name : l.token.isTagName = true) (goesOn : other ≠ .start ∧ other ≠ .closed)
    (read : step atFront stage (l.glyphs ++ rest) = .lexeme l behind) :
    step atFront other (l.glyphs ++ rest) = .lexeme l behind := by
  obtain ⟨fits, padded, found⟩ := (step_glyphs_iff ..).mp read
  obtain ⟨t, padding, body⟩ := l
  cases t with
  | tagName c =>
    refine (step_glyphs_iff ..).mpr ⟨?_, padded, ?_⟩
    · have behindName : behind = .behindName c := by
        cases stage <;> simp [Stage.next] at fits <;> exact fits.symm
      rw [behindName]
      cases other <;> simp [Stage.next] at goesOn ⊢
    · dsimp only at found ⊢
      generalize body ++ rest = input, body.length = n, named : Token.tagName c = t at found ⊢
      cases found with
      | tagName longest => exact .tagName longest
      | _ => cases named
  | _ => cases name

theorem Reads.restaged {atFront : Bool} {stage other : Stage} {input : List Glyph} {l : Lexeme} {more : List Lexeme}
    {e : Ending} (reads : Reads atFront stage input ⟨l :: more, e⟩) (name : l.token.isTagName = true)
    (goesOn : other ≠ .start ∧ other ≠ .closed) : Reads atFront other input ⟨l :: more, e⟩ := by
  obtain ⟨behind, rest, rfl, read, later⟩ := reads.first
  exact .lexeme (step_restaged name goesOn read) later

/-! ## Two bodies -/

/-- What starts with a tag behind a line feed is read as the name of that, and behind it. -/
theorem exists_name {white : List Glyph} (blank : ∀ g ∈ white, g.isBlank = true) (rest : List Glyph) {r : Reading}
    (reads : Reads false .opening (.scalar '\n' :: (white ++ .scalar '@' :: rest)) r)
    (accepted : ∃ trailing, r.ending = .accepted trailing) :
    ∃ name more, r.lexemes = name :: more ∧ name.token.isTagName = true ∧ name.padding = .scalar '\n' :: white := by
  obtain ⟨lexemes, e⟩ := r
  cases lexemes with
  | nil =>
    obtain ⟨trailing, rfl⟩ := accepted
    cases ((step_eq_accepted_iff ..).mp (step_of_reads reads)).1
  | cons name more =>
    obtain ⟨_, left, split, read, _⟩ := reads.first
    obtain ⟨_, padded, found⟩ := (step_glyphs_iff ..).mp read
    have sign : ∀ g ∈ (Glyph.scalar '@' :: rest).head?, g.isBlank = false := by
      intro g head
      obtain rfl := Option.some.inj head
      decide
    have blanks : pad false ((.scalar '\n' :: white) ++ .scalar '@' :: rest) = (_, _) :=
      pad_blanks (by simp) (isBlank_of_mem_line blank) sign
    rw [← split] at padded
    obtain ⟨padding, body⟩ := Prod.mk.inj (blanks.symm.trans padded)
    rw [← body] at found
    obtain ⟨g, _, starts, _, _, isName, _⟩ := found.first
    obtain ⟨rfl, _⟩ := List.cons.inj starts
    exact ⟨name, more, rfl, isName.mpr rfl, padding.symm⟩

/-- Before the closing slash of a comment, a tag may come. -/
private theorem goesOn_of_accepted {source : List UInt8} {before : List Lexeme} {blanks trailing : List Glyph}
    (read : ofSource source = ⟨before ++ [closingLine blanks], .accepted trailing⟩) :
    ∃ reached, Stage.start.behindAll (before.map Lexeme.token) = some reached ∧ before.isEmpty = false ∧
      reached ≠ .start ∧ reached ≠ .closed := by
  have run := (behindAll_of_accepted (congrArg Reading.ending read)).1
  rw [tokens, read, List.map_append, Stage.behindAll_append] at run
  obtain ⟨reached, run, last⟩ := Option.bind_eq_some_iff.mp run
  have closes : reached.next .slash = some .closed := by simpa [closingLine] using last
  have goesOn : reached ≠ .start ∧ reached ≠ .closed := by
    constructor <;> rintro rfl <;> cases closes
  refine ⟨reached, run, ?_, goesOn⟩
  cases before with
  | nil => exact absurd (Option.some.inj run).symm goesOn.1
  | cons l more => rfl

/-- A body that starts with a tag is read behind its opening line from the name of that tag on. -/
theorem ofSource_onLines {body rest : List UInt8} {white : String} (sign : body = encode (white ++ "@") ++ rest)
    (blank : ∀ c ∈ white.toList, (Glyph.scalar c).isBlank = true)
    (accepted : ∃ trailing, (ofSource (onLines body)).ending = .accepted trailing) :
    ∃ name more, ofSource (onLines body) = ⟨openingLine ++ name :: more, .accepted []⟩ ∧
      name.token.isTagName = true ∧ name.padding = .scalar '\n' :: Glyph.spell white ∧
      Reads false .opening (.scalar '\n' :: (Glyph.decode body ++ [.scalar '\n', .scalar '/']))
        ⟨name :: more, .accepted []⟩ := by
  obtain ⟨trailing, accepted⟩ := accepted
  obtain ⟨ls, blanks, whole, -, -, reads⟩ := exists_body accepted
  have starts : Glyph.decode body ++ [.scalar '\n', .scalar '/'] =
      Glyph.spell white ++ .scalar '@' :: (Glyph.decode rest ++ [.scalar '\n', .scalar '/']) := by
    rw [sign, Glyph.decode_encode_append, Glyph.spell_append, List.append_assoc, List.append_assoc]
    rfl
  have named := reads
  rw [starts] at named
  obtain ⟨name, more, lexemes, isName, padding⟩ := exists_name (Glyph.isBlank_of_mem_spell blank) _ named ⟨[], rfl⟩
  have cut : ls ++ [closingLine blanks] = name :: more := lexemes
  rw [cut] at whole reads
  exact ⟨name, more, whole, isName, padding, reads⟩

/-- The second of two bodies that starts with a tag is read behind the first as it is read by itself. Blanks before
what was the closing slash of the first come before the name of that tag. -/
theorem ofSource_composed {first second rest : List UInt8} {white : String}
    (sign : second = encode (white ++ "@") ++ rest) (blank : ∀ c ∈ white.toList, (Glyph.scalar c).isBlank = true)
    (acceptedFirst : ∃ trailing, (ofSource (onLines first)).ending = .accepted trailing)
    (acceptedSecond : ∃ trailing, (ofSource (onLines second)).ending = .accepted trailing) :
    ∃ before blanks name more,
      ofSource (onLines first) = ⟨before ++ [closingLine blanks], .accepted []⟩ ∧
        before.flatMap Lexeme.glyphs ++ blanks = Glyph.spell "/**\n" ++ Glyph.decode first ∧
        ofSource (onLines second) = ⟨openingLine ++ name :: more, .accepted []⟩ ∧
        name.token.isTagName = true ∧ name.padding = .scalar '\n' :: Glyph.spell white ∧
        ofSource (onLines (first ++ encode "\n" ++ second)) =
          ⟨before ++ ⟨name.token, blanks ++ name.padding, name.body⟩ :: more, .accepted []⟩ := by
  obtain ⟨trailing, acceptedFirst⟩ := acceptedFirst
  have decodedFirst := Glyph.decode_onLines first
  rw [← List.append_assoc] at decodedFirst
  obtain ⟨before, blanks, readFirst, taken, areBlank, notOpen⟩ := exists_closingLine decodedFirst acceptedFirst
  obtain ⟨name, more, readSecond, isName, padding, readsSecond⟩ := ofSource_onLines sign blank acceptedSecond
  refine ⟨before, blanks, name, more, readFirst, taken, readSecond, isName, padding, ?_⟩
  obtain ⟨reached, run, nonempty, goesOn⟩ := goesOn_of_accepted readFirst
  have readsFirst : Reads true .start (before.flatMap Lexeme.glyphs ++ (blanks ++ [.scalar '\n', .scalar '/']))
      ⟨before ++ [closingLine blanks], .accepted []⟩ := by
    rw [← List.append_assoc, taken, ← decodedFirst, ← readFirst]
    exact reads_readFrom ..
  -- Behind the first body, the second is read from another stage and behind other blanks.
  have onward := (readsSecond.restaged isName goesOn).behindBlanks areBlank
  have composed := readsFirst.sealed (fun _ => notOpen) run (by rwa [nonempty])
  have decoded : Glyph.decode (onLines (first ++ encode "\n" ++ second)) =
      before.flatMap Lexeme.glyphs ++
        (blanks ++ .scalar '\n' :: (Glyph.decode second ++ [.scalar '\n', .scalar '/'])) := by
    rw [Glyph.decode_onLines, Glyph.decode_lines, ← List.append_assoc (before.flatMap Lexeme.glyphs), taken]
    simp
  rw [← decoded] at composed
  exact (reads_iff ..).mp composed

end Reading

end DocComment
