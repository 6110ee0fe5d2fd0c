import DocComment.Proofs.TouchingStar

/-!
# Comments that close on the line of their body

A comment that closes behind a line feed may be closed on the line of its body by a star and a slash, if a text takes
the star in (`TakesStar`). The first text with neither a line feed nor a brace between it and the star does so, together
with all that is between them. Up to there every lexeme is read as before (`Reads.keptInLine`), so what is left of the
tree depends on what that text takes in (`Reads.inLine_iff`).
-/

namespace DocComment

/-- The source of a comment with a body on one line with what opens and closes it. -/
def inLine (body : List UInt8) : List UInt8 := encode "/** " ++ body ++ encode " */"

theorem Glyph.decode_inLine (body : List UInt8) :
    decode (inLine body) = spell "/**" ++ .scalar ' ' :: (decode body ++ [.scalar ' ', .scalar '*', .scalar '/']) := by
  have closes : encode " */" = 0x20 :: encode "*/" := by decide +kernel
  have blank : decode (body ++ 0x20 :: encode "*/") = decode body ++ .scalar ' ' :: decode (encode "*/") :=
    decode_around (by decide) (by decide) body (encode "*/")
  rw [inLine, List.append_assoc, decode_encode_append, closes, blank, decode_encode]
  rfl

namespace Automaton

/-! ## What comes between a word and the closing star -/

theorem space_stops_identifier (q : IdentifierState) : identifier.next q (.scalar ' ') = none := by
  cases q <;> rfl

theorem space_stops_tagName (q : TagNameState) : tagName.next q (.scalar ' ') = none := by
  cases q <;> rfl

/-- A text may go on from a word over what comes behind it. -/
def GoesOn (word mid : List Glyph) : Prop := ∃ q, text.reach? text.start (word ++ mid) = some q

private theorem text_started {q behind : text.State} {g : Glyph} (next : text.next q g = some behind) :
    behind ≠ TextState.start := by
  rintro rfl
  change TextState at q
  cases q <;> simp only [text] at next <;> split_ifs at next <;> cases next

theorem GoesOn.noBreaks {word mid : List Glyph} (goesOn : GoesOn word mid) : ∀ g ∈ mid, breaksText g = false := by
  intro g member
  obtain ⟨q, reached⟩ := goesOn
  obtain ⟨front, back, rfl⟩ := List.append_of_mem member
  rw [← List.append_assoc, reach?_append] at reached
  obtain ⟨before, -, here⟩ := Option.bind_eq_some_iff.mp reached
  by_contra breaks
  rw [Bool.not_eq_false] at breaks
  rw [reach?_cons, breaks_stops_text breaks before] at here
  cases here

/-- A text that goes on up to a blank and the closing star takes them in. -/
theorem GoesOn.longest {first : Glyph} {word mid : List Glyph} (goesOn : GoesOn (first :: word) mid) (rest : List Glyph) :
    text.longest ((first :: word ++ mid ++ [.scalar ' ', .scalar '*']) ++ .scalar '/' :: rest) =
      some (first :: word ++ mid ++ [Glyph.scalar ' ', Glyph.scalar '*']).length := by
  obtain ⟨q, reached⟩ := goesOn
  have started : q ≠ TextState.start := by
    obtain ⟨front, last, split⟩ : ∃ front last, first :: word ++ mid = front ++ [last] :=
      ⟨_, _, (List.dropLast_concat_getLast (List.cons_ne_nil _ _)).symm⟩
    rw [split, reach?_append] at reached
    obtain ⟨before, -, here⟩ := Option.bind_eq_some_iff.mp reached
    exact text_started (by simpa using here)
  have onward : ∃ behind, text.reach? q [.scalar ' ', .scalar '*'] = some behind ∧ behind = TextState.stars := by
    change TextState at q
    cases q with
    | start => exact absurd rfl started
    | lead | body | stars | again => exact ⟨TextState.stars, rfl, rfl⟩
  obtain ⟨behind, onward, stars⟩ := onward
  refine longest_of_stars ?_ stars rest
  rw [reach?_append, reached, Option.bind_some, onward]

/-- A text that does not go on over what comes behind it ends where it did, whatever comes then. -/
theorem longest_of_not_goesOn {word mid back : List Glyph} (stuck : ¬ GoesOn word mid) (more : List Glyph)
    (found : text.longest (word ++ (mid ++ back)) = some word.length) :
    text.longest (word ++ (mid ++ more)) = some word.length := by
  obtain ⟨q, reached, final, stays⟩ := (longest_append_iff ..).mp found
  obtain ⟨inside, -⟩ := (stays_append_iff ..).mp stays
  refine (longest_append_iff ..).mpr ⟨q, reached, final, (stays_append_iff ..).mpr ⟨inside, ?_⟩⟩
  intro behind further
  refine absurd ⟨behind, ?_⟩ stuck
  rw [reach?_append, reached]
  exact further

private theorem reach?_again {q : text.State} (again : q = TextState.again) {mid : List Glyph}
    (noBreaks : ∀ g ∈ mid, breaksText g = false) (stays : text.Stays q mid) :
    ∃ behind, text.reach? q mid = some behind := by
  induction mid with
  | nil => exact ⟨q, rfl⟩
  | cons g mid ih =>
    have notBreak := noBreaks g (by simp)
    by_cases star : g = .scalar '*'
    · obtain ⟨behind, next, final⟩ : ∃ behind, text.next q g = some behind ∧ text.final behind = true := by
        subst again star
        exact ⟨TextState.stars, rfl, rfl⟩
      have taken := (stays behind next).1
      rw [final] at taken
      cases taken
    · have next : text.next q g = some q := by
        subst again
        simp [text, notBreak, star]
      rw [reach?_cons, next]
      exact ih (fun a member => noBreaks a (by simp [member])) (stays q next).2

/-- A text goes on over what holds nothing that breaks it and starts with no mark. -/
theorem goesOn_of_longest {word mid back : List Glyph} (noBreaks : ∀ g ∈ mid, breaksText g = false)
    (noMark : ∀ g ∈ mid.head?, g ≠ .scalar '/' ∧ g ≠ .scalar '*')
    (found : text.longest (word ++ (mid ++ back)) = some word.length) : GoesOn word mid := by
  obtain ⟨q, reached, final, stays⟩ := (longest_append_iff ..).mp found
  obtain ⟨inside, -⟩ := (stays_append_iff ..).mp stays
  have onward : ∃ behind, text.reach? q mid = some behind := by
    cases mid with
    | nil => exact ⟨q, rfl⟩
    | cons g mid =>
      obtain ⟨notSlash, notStar⟩ := noMark g rfl
      have notBreak := noBreaks g (by simp)
      -- Only behind stars a text stops before a glyph that does not break it.
      have next : ∃ behind, text.next q g = some behind ∧ behind = TextState.again := by
        have other : ∀ behind : text.State, text.next q g = some behind → text.final behind = true → False := by
          intro behind next final
          have taken := (inside behind next).1
          rw [final] at taken
          cases taken
        change TextState at q
        cases q with
        | start => cases final
        | again => cases final
        | lead => exact (other TextState.body (by simp [text, notBreak, notStar, notSlash]) rfl).elim
        | body => exact (other TextState.body (by simp [text, notBreak, notStar]) rfl).elim
        | stars => exact ⟨TextState.again, by simp [text, notBreak, notStar, notSlash], rfl⟩
      obtain ⟨behind, next, again⟩ := next
      rw [reach?_cons, next]
      exact reach?_again again (fun a member => noBreaks a (by simp [member])) (inside behind next).2
  obtain ⟨behind, onward⟩ := onward
  exact ⟨behind, by rw [reach?_append, reached, Option.bind_some, onward]⟩

end Automaton

namespace Recognised
variable {identifiers : Bool} {t : Token}

/-- A lexeme is recognised before a blank where it was before a line feed, unless it is a text that goes on over what comes
between. -/
theorem kept {word mid back : List Glyph} (stuck : t = .text → ¬ Automaton.GoesOn word mid) (more : List Glyph)
    (found : Recognised identifiers (word ++ (mid ++ .scalar '\n' :: back)) t word.length) :
    Recognised identifiers (word ++ (mid ++ .scalar ' ' :: more)) t word.length := by
  refine found.replaced ?_ ?_ ?_ ?_
  · exact fun _ => Automaton.longest_seal Automaton.space_stops_tagName word mid more
  · intro brace
    subst brace
    refine Automaton.longest_brace word mid _ ?_
    rintro rfl
    exact found.isClosed (by decide)
  · exact fun _ => Automaton.longest_seal Automaton.space_stops_identifier word mid more
  · exact fun isText => Automaton.longest_of_not_goesOn (stuck isText) _

/-- A text that goes on up to a blank and the closing star is recognised with them. -/
theorem takesStar {word mid rest : List Glyph} (goesOn : Automaton.GoesOn word mid)
    (found : Recognised identifiers (word ++ rest) .text word.length) (more : List Glyph) :
    Recognised identifiers ((word ++ mid ++ [.scalar ' ', .scalar '*']) ++ .scalar '/' :: more) .text
      (word ++ mid ++ [Glyph.scalar ' ', Glyph.scalar '*']).length := by
  obtain ⟨g, body, rfl⟩ := List.exists_cons_of_length_pos found.positive
  rw [List.cons_append] at found
  generalize (g :: body).length = n at found
  cases found with
  | text slash star sign opens other _ => exact .text slash star sign opens other (goesOn.longest more)

theorem longest_of_text {input : List Glyph} {n : Nat} (found : Recognised identifiers input .text n) :
    Automaton.text.longest input = some n := by
  cases found with
  | text _ _ _ _ _ longest => exact longest

end Recognised

namespace Reading

/-! ## What lexemes hold -/

section
variable {reached behind : Stage} {l : Lexeme} {rest : List Glyph}

private theorem of_breaks {g : Glyph} (breaks : Automaton.breaksText g = true) :
    (g.isBlank = true → g = .scalar '\n') ∧ (∀ q, Automaton.tagName.next q g = none) ∧
      ∀ q, Automaton.identifier.next q g = none := by
  simp only [Automaton.breaksText, Glyph.isNull, Bool.or_eq_true, beq_iff_eq] at breaks
  rcases breaks with ((rfl | rfl) | rfl) | rfl <;>
    exact ⟨by decide, fun q => by cases q <;> rfl, fun q => by cases q <;> rfl⟩

/-- But for braces, lexemes hold nothing that breaks a text other than line feeds. -/
theorem Reads.Lexed.lineFeed (lexed : Reads.Lexed false reached behind l rest) (noBrace : l.token ≠ .brace) {g : Glyph}
    (member : g ∈ l.glyphs) (breaks : Automaton.breaksText g = true) : g = .scalar '\n' := by
  obtain ⟨isLineFeed, noName, noIdentifier⟩ := of_breaks breaks
  rcases List.mem_append.mp member with inPadding | inBody
  · exact isLineFeed (lexed.blank g inPadding)
  · rcases lexed.found.of_mem noName noIdentifier inBody with ⟨-, rfl⟩ | ⟨-, body⟩ | ⟨-, longest⟩ | brace
    · cases breaks
    · rw [body, List.mem_singleton] at inBody
      subst inBody
      cases breaks
    · exact absurd inBody (Automaton.not_mem_of_stop (Automaton.breaks_stops_text breaks) longest)
    · exact absurd brace noBrace

theorem Reads.Lexed.noMark (lexed : Reads.Lexed false reached behind l rest) (notSlash : l.token ≠ .slash)
    (notStar : l.token ≠ .star) : ∀ g ∈ l.glyphs.head?, g ≠ .scalar '/' ∧ g ≠ .scalar '*' := by
  intro g head
  cases padding : l.padding with
  | nil =>
    obtain ⟨first, more, starts, isSlash, isStar, _⟩ := lexed.found.first
    obtain ⟨h, body, split⟩ := List.exists_cons_of_length_pos lexed.found.positive
    rw [split, List.cons_append] at starts
    obtain ⟨rfl, -⟩ := List.cons.inj starts
    rw [Lexeme.glyphs, padding, List.nil_append, split] at head
    obtain rfl := Option.some.inj head
    exact ⟨fun slash => notSlash (isSlash.mpr slash), fun star => notStar (isStar.mpr star)⟩
  | cons b more =>
    rw [Lexeme.glyphs, padding] at head
    obtain rfl := Option.some.inj head
    have blank := lexed.blank b (by simp [padding])
    constructor <;> rintro rfl <;> cases blank

end

/-! ## The reading up to the closing star -/

/-- A blank, the closing star and the closing slash. -/
def starSlash : List Glyph := [.scalar ' ', .scalar '*', .scalar '/']

/-- A text takes in the closing star, over what is between them. -/
def TakesStar (blanks : List Glyph) (t : Lexeme) (after : List Lexeme) : Prop :=
  t.token = .text ∧ Automaton.GoesOn t.body (after.flatMap Lexeme.glyphs ++ blanks)

/-- The text with what it takes in. -/
def withStar (blanks : List Glyph) (t : Lexeme) (after : List Lexeme) : Lexeme :=
  ⟨.text, t.padding, t.body ++ (after.flatMap Lexeme.glyphs ++ blanks) ++ [.scalar ' ', .scalar '*']⟩

/-- The first text that takes in the closing star, and the lexemes before it and between it and the star. -/
structure IsTaker (blanks : List Glyph) (ls front : List Lexeme) (t : Lexeme) (after : List Lexeme) : Prop where
  cut : ls = front ++ t :: after
  takes : TakesStar blanks t after
  isFirst : ∀ before u mid, front = before ++ u :: mid → ¬ TakesStar blanks u (mid ++ t :: after)

theorem exists_taker (blanks : List Glyph) (ls : List Lexeme) :
    (∃ front t after, IsTaker blanks ls front t after) ∨
      ∀ front t after, ls = front ++ t :: after → ¬ TakesStar blanks t after := by
  induction ls with
  | nil => exact Or.inr (by simp)
  | cons l ls ih =>
    by_cases takes : TakesStar blanks l ls
    · exact Or.inl ⟨[], l, ls, rfl, takes, by simp⟩
    · rcases ih with ⟨front, t, after, rfl, taken, isFirst⟩ | none
      · refine Or.inl ⟨l :: front, t, after, rfl, taken, ?_⟩
        intro before u mid cut
        rcases List.cons_eq_append_iff.mp cut with ⟨rfl, same⟩ | ⟨before, rfl, same⟩
        · obtain ⟨rfl, rfl⟩ := List.cons.inj same
          exact takes
        · exact isFirst before u mid same
      · refine Or.inr ?_
        intro front t after cut
        rcases List.cons_eq_append_iff.mp cut with ⟨rfl, same⟩ | ⟨front, rfl, same⟩
        · obtain ⟨rfl, rfl⟩ := List.cons.inj same
          exact takes
        · exact none front t after same

/-- Up to the first text that takes in the star, a comment is read in line as it was. -/
theorem Reads.keptInLine {blanks : List Glyph} {stage reached : Stage} {front back more : List Lexeme} {e : Ending}
    {r : Reading}
    (reads : Reads false stage
      (front.flatMap Lexeme.glyphs ++ (back.flatMap Lexeme.glyphs ++ (blanks ++ [.scalar '\n', .scalar '/'])))
      ⟨front ++ more, e⟩)
    (stuck : ∀ before u mid, front = before ++ u :: mid → ¬ TakesStar blanks u (mid ++ back))
    (run : stage.behindAll (front.map Lexeme.token) = some reached)
    (onward : Reads false reached (back.flatMap Lexeme.glyphs ++ (blanks ++ starSlash)) r) :
    Reads false stage (front.flatMap Lexeme.glyphs ++ (back.flatMap Lexeme.glyphs ++ (blanks ++ starSlash)))
      ⟨front ++ r.lexemes, r.ending⟩ := by
  refine reads.resumed ?_ run onward
  intro identifiers before u mid cut found
  have regrouped (rest : List Glyph) : mid.flatMap Lexeme.glyphs ++ (back.flatMap Lexeme.glyphs ++ (blanks ++ rest)) =
      ((mid ++ back).flatMap Lexeme.glyphs ++ blanks) ++ rest := by
    simp
  rw [regrouped] at found ⊢
  exact found.kept (fun isText goesOn => stuck before u mid cut ⟨isText, goesOn⟩) [.scalar '*', .scalar '/']

private theorem next_text {stage behind : Stage} (fits : stage.next .text = some behind) : behind = .description := by
  cases stage <;> simp [Stage.next] at fits <;> exact fits.symm

/-- The text that takes in the star is read with it, and the slash behind it. -/
theorem Reads.Lexed.takenInLine {blanks : List Glyph} {reached behind : Stage} {t : Lexeme} {after : List Lexeme}
    {rest : List Glyph} (lexed : Lexed false reached behind t rest) (takes : TakesStar blanks t after) :
    Reads false reached ((t :: after).flatMap Lexeme.glyphs ++ (blanks ++ starSlash))
      ⟨[withStar blanks t after, bareSlash], .accepted []⟩ := by
  obtain ⟨isText, goesOn⟩ := takes
  obtain ⟨fits, padded, found⟩ := lexed
  rw [isText] at found fits
  obtain rfl := next_text fits
  have whole : (t :: after).flatMap Lexeme.glyphs ++ (blanks ++ starSlash) =
      (withStar blanks t after).glyphs ++ [.scalar '/'] := by
    simp [Lexeme.glyphs, withStar, starSlash]
  rw [whole]
  refine .lexeme ((step_glyphs_iff ..).mpr ⟨fits, ?_, found.takesStar goesOn []⟩) (reads_slash rfl)
  obtain ⟨g, body, starts⟩ := List.exists_cons_of_length_pos found.positive
  rw [Lexeme.glyphs, starts, List.append_assoc, List.cons_append] at padded
  rw [Lexeme.glyphs, withStar, starts, List.append_assoc, List.append_assoc, List.cons_append, List.cons_append]
  exact pad_of_pad padded _

section
variable {blanks : List Glyph} (blank : ∀ g ∈ blanks, g.isBlank = true)
include blank

private theorem isBlank_before_star : ∀ g ∈ blanks ++ [.scalar ' '], g.isBlank = true := by
  intro g member
  rcases List.mem_append.mp member with member | member
  · exact blank g member
  · rw [List.mem_singleton.mp member]
    decide

theorem reads_closingStar :
    Reads false .opening (blanks ++ starSlash)
      ⟨[⟨.star, blanks ++ [.scalar ' '], [.scalar '*']⟩, bareSlash], .accepted []⟩ := by
  have whole : blanks ++ starSlash = Lexeme.glyphs ⟨.star, blanks ++ [.scalar ' '], [.scalar '*']⟩ ++ [.scalar '/'] := by
    simp [Lexeme.glyphs, starSlash]
  rw [whole]
  exact .lexeme (step_of_recognised (isBlank_before_star blank) (by simp) rfl .star) (reads_slash rfl)

theorem reads_refusedStar {stage : Stage} (other : stage ≠ .opening) :
    Reads false stage (blanks ++ starSlash) ⟨[], .rejected (.token .star)⟩ := by
  have refused : stage.next .star = none := by cases stage <;> first | rfl | contradiction
  have read := step_star refused (isBlank_before_star blank) [.scalar '/']
  rw [List.append_assoc] at read
  exact .ending read

end

/-! ## Which comments may be closed in line -/

/-- The line feed of the closing line is the only one from some lexemes on. -/
def OnLastLine (after : List Lexeme) (closing : Lexeme) : Prop :=
  (after.flatMap Lexeme.glyphs ++ closing.padding).count (.scalar '\n') = 1

/-- The lexemes of a comment that may be closed on the line of its body. The last before the closing slash is a text with
no empty line behind it, or a star of the opening line. A text takes in the star together with all that follows it on
its line, unless a brace stops it: so that has to be texts as well, or else there is a brace in it. -/
structure ClosesInLine (lexemes : List Lexeme) : Prop where
  last : ∀ front l closing, lexemes = front ++ [l, closing] →
    l.token = .star ∨ (l.token = .text ∧ OnLastLine [] closing)
  apart : ∀ front t after closing, lexemes = front ++ t :: after ++ [closing] → t.token = .text →
    OnLastLine after closing → (∀ l ∈ after, l.token = .text) ∨ ∃ l ∈ after, l.token = .brace

section
variable {blanks : List Glyph} {ls : List Lexeme}

theorem onLastLine_iff : OnLastLine ls (closingLine blanks) ↔ .scalar '\n' ∉ ls.flatMap Lexeme.glyphs ++ blanks := by
  rw [OnLastLine, closingLine, ← List.append_assoc, List.count_append, ← List.count_eq_zero]
  simp

private theorem openingLine_not_text : ∀ l ∈ openingLine, l.token ≠ .text := by decide

/-- Only the lexemes between the stars of the opening line and the closing slash matter. -/
theorem closesInLine_iff :
    ClosesInLine (openingLine ++ ls ++ [closingLine blanks]) ↔
      (∀ l ∈ ls.getLast?, l.token = .star ∨ (l.token = .text ∧ .scalar '\n' ∉ blanks)) ∧
        ∀ front t after, ls = front ++ t :: after → t.token = .text →
          .scalar '\n' ∉ after.flatMap Lexeme.glyphs ++ blanks →
            (∀ l ∈ after, l.token = .text) ∨ ∃ l ∈ after, l.token = .brace := by
  have near : OnLastLine [] (closingLine blanks) ↔ .scalar '\n' ∉ blanks := by
    rw [onLastLine_iff, List.flatMap_nil, List.nil_append]
  constructor
  · rintro ⟨last, apart⟩
    constructor
    · intro l isLast
      obtain ⟨front, rfl⟩ := List.getLast?_eq_some_iff.mp isLast
      rw [← near]
      exact last (openingLine ++ front) l (closingLine blanks) (by simp)
    · rintro front t after rfl isText noLineFeed
      exact apart (openingLine ++ front) t after (closingLine blanks) (by simp) isText (onLastLine_iff.mpr noLineFeed)
  · rintro ⟨last, apart⟩
    constructor
    · intro front l closing cut
      rw [List.append_cons front] at cut
      obtain ⟨same, closes⟩ := List.append_singleton_inj.mp cut
      rw [← closes, near]
      rcases List.eq_nil_or_concat ls with rfl | ⟨before, other, rfl⟩
      · have split : [⟨.slash, [], [.scalar '/']⟩, ⟨.star, [], [.scalar '*']⟩] ++ [⟨.star, [], [.scalar '*']⟩] =
            front ++ [l] := same
        obtain ⟨-, rfl⟩ := List.append_singleton_inj.mp split
        exact Or.inl rfl
      · rw [List.concat_eq_append, ← List.append_assoc] at same
        obtain ⟨-, rfl⟩ := List.append_singleton_inj.mp same
        exact last other (by simp)
    · intro front t after closing cut isText onLastLine
      obtain ⟨same, rfl⟩ := List.append_singleton_inj.mp cut
      rw [onLastLine_iff] at onLastLine
      rcases cut_of_append same with ⟨mid, -, split⟩ | ⟨mid, split, -⟩
      · exact apart mid t after split isText onLastLine
      · exact absurd isText (openingLine_not_text t (by simp [split]))

end

/-! ### What follows a text -/

private theorem next_opening {stage : Stage} {t : Token} (fits : stage.next t = some .opening) :
    stage = .start ∨ (stage = .opening ∧ t = .star) := by
  cases stage with
  | start => exact Or.inl rfl
  | opening =>
    cases t with
    | star => exact Or.inr ⟨rfl, rfl⟩
    | tagName c => cases c <;> cases fits
    | _ => cases fits
  | _ =>
    cases t with
    | tagName c => cases c <;> cases fits
    | _ => cases fits

private theorem marks_of_run {stage reached : Stage} (inside : stage ≠ .start ∧ stage ≠ .opening)
    (goesOn : reached ≠ .closed) {ts : List Token} (run : stage.behindAll ts = some reached) :
    ∀ t ∈ ts, t ≠ .slash ∧ t ≠ .star := by
  induction ts generalizing stage with
  | nil => simp
  | cons t ts ih =>
    obtain ⟨behind, fits, run⟩ := Option.bind_eq_some_iff.mp run
    have notClosed : behind ≠ .closed := by
      rintro rfl
      cases ts with
      | nil => exact goesOn (Option.some.inj run).symm
      | cons u ts => cases run
    have first : t ≠ .slash ∧ t ≠ .star := by
      constructor <;> rintro rfl <;> cases stage <;> simp [Stage.next] at fits inside
      all_goals exact notClosed fits.symm
    have insideToo : behind ≠ .start ∧ behind ≠ .opening := by
      refine ⟨fun start => Stage.next_ne_start (start ▸ fits), ?_⟩
      rintro rfl
      rcases next_opening fits with start | ⟨opening, -⟩
      · exact inside.1 start
      · exact inside.2 opening
    exact List.forall_mem_cons.mpr ⟨first, ih insideToo run⟩

private theorem stars_of_run {stage : Stage} (started : stage ≠ .start) {ts : List Token}
    (run : stage.behindAll ts = some .opening) : stage = .opening ∧ ∀ t ∈ ts, t = .star := by
  induction ts generalizing stage with
  | nil => exact ⟨Option.some.inj run, by simp⟩
  | cons t ts ih =>
    obtain ⟨behind, fits, run⟩ := Option.bind_eq_some_iff.mp run
    obtain ⟨rfl, stars⟩ := ih (fun start => Stage.next_ne_start (start ▸ fits)) run
    rcases next_opening fits with start | ⟨rfl, star⟩
    · exact absurd start started
    · exact ⟨rfl, List.forall_mem_cons.mpr ⟨star, stars⟩⟩

section
variable {blanks : List Glyph} (blank : ∀ g ∈ blanks, g.isBlank = true) {ls : List Lexeme}
  (reads : Reads false .opening (ls.flatMap Lexeme.glyphs ++ (blanks ++ [.scalar '\n', .scalar '/']))
    ⟨ls ++ [closingLine blanks], .accepted []⟩)
include reads

private theorem exists_closes :
    ∃ reached, Stage.opening.behindAll (ls.map Lexeme.token) = some reached ∧ reached ≠ .closed := by
  obtain ⟨reached, _, run, _, later⟩ := reads.behind rfl
  refine ⟨reached, run, ?_⟩
  rintro rfl
  cases later.lexemes_of_closed

private theorem exists_lexed {l : Lexeme} (member : l ∈ ls) :
    ∃ reached behind rest, Reads.Lexed false reached behind l rest := by
  obtain ⟨before, after, rfl⟩ := List.append_of_mem member
  rw [List.append_assoc, List.cons_append] at reads
  obtain ⟨reached, behind, rest, -, -, lexed, -⟩ := reads.lexed
  exact ⟨reached, behind, rest, lexed⟩

private theorem marks_behind_text {front after : List Lexeme} {t : Lexeme} (cut : ls = front ++ t :: after)
    (isText : t.token = .text) : ∀ l ∈ after, l.token ≠ .slash ∧ l.token ≠ .star := by
  obtain ⟨reached, run, goesOn⟩ := exists_closes reads
  rw [cut, List.map_append, Stage.behindAll_append, List.map_cons] at run
  obtain ⟨before, -, run⟩ := Option.bind_eq_some_iff.mp run
  obtain ⟨behind, fits, run⟩ := Option.bind_eq_some_iff.mp run
  rw [isText] at fits
  obtain rfl := next_text fits
  intro l member
  exact marks_of_run (by decide) goesOn run l.token (List.mem_map_of_mem member)

private theorem noBrace_of_taker {front after : List Lexeme} {t : Lexeme} (taker : IsTaker blanks ls front t after) :
    ∀ l ∈ after, l.token ≠ .brace := by
  intro l member brace
  have inside : l ∈ ls := by simp [taker.cut, member]
  obtain ⟨_, _, _, lexed⟩ := exists_lexed reads inside
  obtain ⟨g, rest, starts, _, _, _, opens, _⟩ := lexed.found.first
  obtain ⟨h, body, split⟩ := List.exists_cons_of_length_pos lexed.found.positive
  rw [split, List.cons_append] at starts
  obtain ⟨rfl, -⟩ := List.cons.inj starts
  obtain rfl := opens.mp brace
  have brace : .scalar '\x7b' ∈ after.flatMap Lexeme.glyphs := by
    refine List.mem_flatMap_of_mem member ?_
    simp [Lexeme.glyphs, split]
  cases taker.takes.2.noBreaks _ (List.mem_append_left _ brace)

/-- What the text that takes in the star leaves of the skeleton is the same exactly if it takes in only texts. -/
private theorem skeleton_taken_iff {front after : List Lexeme} {t : Lexeme} (taker : IsTaker blanks ls front t after) :
    skeleton (tokens ⟨front ++ [withStar blanks t after, bareSlash], .accepted []⟩) = skeleton (ls.map Lexeme.token) ↔
      ∀ l ∈ after, l.token = .text := by
  have isText := taker.takes.1
  have noMark : ∀ u ∈ after.map Lexeme.token, u ≠ .slash ∧ u ≠ .star := by
    intro u member
    obtain ⟨l, inAfter, rfl⟩ := List.mem_map.mp member
    exact marks_behind_text reads taker.cut isText l inAfter
  have before : ls.map Lexeme.token = front.map Lexeme.token ++ .text :: after.map Lexeme.token := by
    rw [taker.cut, List.map_append, List.map_cons, isText]
  have taken : skeleton (tokens ⟨front ++ [withStar blanks t after, bareSlash], .accepted []⟩) =
      skeleton (front.map Lexeme.token ++ [.text]) := by
    rw [Reading.tokens, List.map_append, Mark.skeleton_append, Mark.skeleton_append]
    rfl
  rw [taken, before, eq_comm, Mark.skeleton_text_iff _ noMark]
  constructor
  · intro prose l member
    have isProse := prose l.token (List.mem_map_of_mem member)
    have noBrace := noBrace_of_taker reads taker l member
    cases kind : l.token <;> simp [kind, Token.isProse] at isProse noBrace ⊢
  · intro texts u member
    obtain ⟨l, inAfter, rfl⟩ := List.mem_map.mp member
    rw [texts l inAfter]
    rfl

private theorem noMark_behind_text {front after : List Lexeme} {t : Lexeme} (cut : ls = front ++ t :: after)
    (isText : t.token = .text) : ∀ g ∈ (after.flatMap Lexeme.glyphs).head?, g ≠ .scalar '/' ∧ g ≠ .scalar '*' := by
  have marks := marks_behind_text reads cut isText
  intro g head
  cases after with
  | nil => cases head
  | cons l more =>
    have inside : l ∈ ls := by simp [cut]
    obtain ⟨_, _, _, lexed⟩ := exists_lexed reads inside
    obtain ⟨notSlash, notStar⟩ := marks l (by simp)
    refine lexed.noMark notSlash notStar g ?_
    have nonempty : l.glyphs ≠ [] := reads.glyphs_ne_nil (List.mem_append_left _ inside)
    rwa [List.flatMap_cons, List.head?_append_of_ne_nil _ nonempty] at head

include blank

private theorem noBreaks_of_last {front after : List Lexeme} (cut : ls = front ++ after)
    (noLineFeed : .scalar '\n' ∉ after.flatMap Lexeme.glyphs ++ blanks) (noBrace : ∀ l ∈ after, l.token ≠ .brace) :
    ∀ g ∈ after.flatMap Lexeme.glyphs ++ blanks, Automaton.breaksText g = false := by
  intro g member
  by_contra breaks
  rw [Bool.not_eq_false] at breaks
  have lineFeed : g = .scalar '\n' := by
    rcases List.mem_append.mp member with inAfter | inBlanks
    · obtain ⟨l, isAfter, inLexeme⟩ := List.mem_flatMap.mp inAfter
      have inside : l ∈ ls := by simp [cut, isAfter]
      obtain ⟨_, _, _, lexed⟩ := exists_lexed reads inside
      exact lexed.lineFeed (noBrace l isAfter) inLexeme breaks
    · exact (of_breaks breaks).1 (blank g inBlanks)
  exact noLineFeed (lineFeed ▸ member)

/-- A text takes in the star over what follows it on the last line, if there is no brace in that. -/
theorem takesStar_of_last {front after : List Lexeme} {t : Lexeme} (cut : ls = front ++ t :: after) (isText : t.token = .text)
    (noLineFeed : .scalar '\n' ∉ after.flatMap Lexeme.glyphs ++ blanks) (noBrace : ∀ l ∈ after, l.token ≠ .brace) :
    TakesStar blanks t after := by
  have noBreaks := noBreaks_of_last blank reads (cut.trans (List.append_cons ..)) noLineFeed noBrace
  have noMark : ∀ g ∈ (after.flatMap Lexeme.glyphs ++ blanks).head?, g ≠ .scalar '/' ∧ g ≠ .scalar '*' := by
    intro g head
    rw [List.head?_append] at head
    rcases Option.or_eq_some_iff.mp head with first | ⟨-, first⟩
    · exact noMark_behind_text reads cut isText g first
    · have isBlank := blank g (List.mem_of_mem_head? first)
      constructor <;> rintro rfl <;> cases isBlank
  have whole : ls ++ [closingLine blanks] = front ++ t :: (after ++ [closingLine blanks]) := by simp [cut]
  rw [whole] at reads
  obtain ⟨_, _, rest, -, split, lexed, -⟩ := reads.lexed
  rw [cut, List.flatMap_append, List.flatMap_cons, List.append_assoc, List.append_assoc] at split
  obtain rfl := List.append_cancel_left (List.append_cancel_left split)
  have found := lexed.found
  rw [isText, ← List.append_assoc (after.flatMap Lexeme.glyphs)] at found
  exact ⟨isText, Automaton.goesOn_of_longest noBreaks noMark found.longest_of_text⟩

/-- Exactly if only texts follow the first text that takes in the star, the comment may be closed in line. -/
theorem closesInLine_iff_texts {front after : List Lexeme} {t : Lexeme} (taker : IsTaker blanks ls front t after) :
    ClosesInLine (openingLine ++ ls ++ [closingLine blanks]) ↔ ∀ l ∈ after, l.token = .text := by
  obtain ⟨cut, ⟨isText, goesOn⟩, isFirst⟩ := id taker
  have noLineFeed : .scalar '\n' ∉ after.flatMap Lexeme.glyphs ++ blanks := by
    intro member
    cases goesOn.noBreaks _ member
  rw [closesInLine_iff]
  constructor
  · rintro ⟨-, apart⟩
    rcases apart front t after cut isText noLineFeed with texts | ⟨l, member, brace⟩
    · exact texts
    · exact absurd brace (noBrace_of_taker reads taker l member)
  · intro texts
    constructor
    · intro l isLast
      have inLast : l ∈ t :: after := by
        rw [cut, List.getLast?_append_of_ne_nil _ (List.cons_ne_nil _ _)] at isLast
        exact List.mem_of_getLast? isLast
      refine Or.inr ⟨?_, fun member => noLineFeed (by simp [member])⟩
      rcases List.mem_cons.mp inLast with rfl | member
      · exact isText
      · exact texts l member
    · intro other u behind cutToo isTextToo noLineFeedToo
      rw [cut] at cutToo
      rcases cut_of_append cutToo with ⟨mid, rfl, later⟩ | ⟨mid, rfl, rfl⟩
      · left
        intro l member
        cases mid with
        | nil =>
          obtain ⟨rfl, rfl⟩ := List.cons.inj later
          exact texts l member
        | cons _ mid =>
          obtain ⟨-, rfl⟩ := List.cons.inj later
          exact texts l (by simp [member])
      · -- A text before the first that takes in the star has a brace behind it.
        right
        by_contra noBrace
        refine isFirst other u mid rfl (takesStar_of_last blank reads (cut.trans cutToo) isTextToo noLineFeedToo ?_)
        intro l member brace
        exact noBrace ⟨l, member, brace⟩

/-- If no text takes in the star, exactly a comment of nothing but stars may be closed in line. -/
theorem closesInLine_iff_stars (stuck : ∀ front t after, ls = front ++ t :: after → ¬ TakesStar blanks t after)
    {reached : Stage} (run : Stage.opening.behindAll (ls.map Lexeme.token) = some reached) :
    ClosesInLine (openingLine ++ ls ++ [closingLine blanks]) ↔ reached = .opening := by
  rw [closesInLine_iff]
  constructor
  · rintro ⟨last, -⟩
    rcases List.eq_nil_or_concat ls with rfl | ⟨front, l, rfl⟩
    · exact (Option.some.inj run).symm
    · rw [List.concat_eq_append] at *
      rcases last l (by simp) with star | ⟨isText, noLineFeed⟩
      · rw [List.map_append, Stage.behindAll_append] at run
        obtain ⟨before, -, fits⟩ := Option.bind_eq_some_iff.mp run
        rw [List.map_singleton, Stage.behindAll_cons, star] at fits
        cases before <;> simp [Stage.next] at fits
        exact fits.symm
      · have takes := takesStar_of_last blank reads rfl isText (by simpa using noLineFeed) (by simp)
        exact absurd takes (stuck front l [] rfl)
  · rintro rfl
    have stars := (stars_of_run (by decide) run).2
    have allStars : ∀ l ∈ ls, l.token = .star := fun l member => stars _ (List.mem_map_of_mem member)
    constructor
    · exact fun l isLast => Or.inl (allStars l (List.mem_of_mem_getLast? isLast))
    · rintro front t after rfl isText _
      have star := allStars t (by simp)
      rw [isText] at star
      cases star

/-- The comment is read in line with the same skeleton exactly if it may be closed in line. -/
theorem Reads.inLine_iff {r : Reading} (inLine : Reads false .opening (ls.flatMap Lexeme.glyphs ++ (blanks ++ starSlash)) r) :
    ((∃ trailing, r.ending = .accepted trailing) ∧ skeleton r.tokens = skeleton (ls.map Lexeme.token)) ↔
      ClosesInLine (openingLine ++ ls ++ [closingLine blanks]) := by
  have only {s : Reading} (closed : Reads false .opening (ls.flatMap Lexeme.glyphs ++ (blanks ++ starSlash)) s) : r = s :=
    ((reads_iff ..).mp inLine).symm.trans ((reads_iff ..).mp closed)
  -- Either the first text that takes in the star ends the comment, or the star comes behind all that was read.
  rcases exists_taker blanks ls with ⟨front, t, after, taker⟩ | stuck
  · rw [closesInLine_iff_texts blank reads taker, ← skeleton_taken_iff reads taker]
    have closed : Reads false .opening (ls.flatMap Lexeme.glyphs ++ (blanks ++ starSlash))
        ⟨front ++ [withStar blanks t after, bareSlash], .accepted []⟩ := by
      have split := reads
      rw [taker.cut, List.flatMap_append, List.append_assoc, List.append_assoc, List.cons_append] at split
      obtain ⟨reached, _, _, run, -, lexed, -⟩ := split.lexed
      rw [taker.cut, List.flatMap_append, List.append_assoc]
      exact split.keptInLine taker.isFirst run (lexed.takenInLine taker.takes)
    rw [only closed]
    exact ⟨fun both => both.2, fun same => ⟨⟨[], rfl⟩, same⟩⟩
  · obtain ⟨reached, run, -⟩ := exists_closes reads
    have kept {s : Reading} (onward : Reads false reached (blanks ++ starSlash) s) : r = ⟨ls ++ s.lexemes, s.ending⟩ := by
      have none : ∀ front t after, ls = front ++ t :: after → ¬ TakesStar blanks t (after ++ []) := by
        simpa using stuck
      exact only (Reads.keptInLine reads none run onward)
    rw [closesInLine_iff_stars blank reads stuck run]
    by_cases opening : reached = .opening
    · subst opening
      rw [kept (reads_closingStar blank)]
      have taken : skeleton (tokens ⟨ls ++ [⟨.star, blanks ++ [.scalar ' '], [.scalar '*']⟩, bareSlash], .accepted []⟩) =
          skeleton (ls.map Lexeme.token) := by
        rw [Reading.tokens, List.map_append, Mark.skeleton_append]
        rfl
      exact ⟨fun _ => rfl, fun _ => ⟨⟨[], rfl⟩, taken⟩⟩
    · rw [kept (reads_refusedStar blank opening)]
      simp [opening]

end

/-! ## Sources -/

/-- A body is read behind the space of its line as it is behind a line feed. -/
theorem ofSource_inLine (body : List UInt8) {r : Reading}
    (reads : Reads false .opening (.scalar '\n' :: (Glyph.decode body ++ starSlash)) r) :
    (ofSource (inLine body)).tokens = [.slash, .star, .star] ++ r.tokens ∧
      ((∃ trailing, (ofSource (inLine body)).ending = .accepted trailing) ↔ ∃ trailing, r.ending = .accepted trailing) := by
  have plain := reads_readFrom false .opening (Glyph.decode body ++ starSlash)
  generalize readFrom false .opening 0 (Glyph.decode body ++ starSlash) = s at plain
  have lineFeed : ∀ g ∈ [Glyph.scalar '\n'], g.isBlank = true := by decide
  have space : ∀ g ∈ [Glyph.scalar ' '], g.isBlank = true := by decide
  obtain rfl : r = s.behindBlanks [.scalar '\n'] :=
    ((reads_iff ..).mp reads).symm.trans ((reads_iff ..).mp (plain.behindBlanks lineFeed))
  have whole : ofSource (inLine body) =
      ⟨openingLine ++ (s.behindBlanks [.scalar ' ']).lexemes, (s.behindBlanks [.scalar ' ']).ending⟩ := by
    rw [ofSource, ofGlyphs, Glyph.decode_inLine]
    exact (reads_iff ..).mp (reads_openingLine (plain.behindBlanks space))
  rw [whole, tokens_behindBlanks, accepted_behindBlanks, accepted_behindBlanks]
  refine ⟨?_, Iff.rfl⟩
  rw [← tokens_behindBlanks [.scalar ' '] s, Reading.tokens, List.map_append]
  rfl

end Reading

/-- A comment with a body on lines of its own may be closed on the line of its body, by a star and a slash behind a space,
without another S-expression exactly if a text takes in the star and no tag. -/
theorem closes_in_line_iff {body : List UInt8} {root : Node} (valid : Node.ofSource? (onLines body) = some root) :
    (∃ other, Node.ofSource? (inLine body) = some other ∧ other.expression = root.expression) ↔
      Reading.ClosesInLine (Reading.ofSource (onLines body)).lexemes := by
  obtain ⟨trailing, accepted⟩ := (Node.isSome_ofSource?_iff _).mp (Option.isSome_of_mem valid)
  obtain ⟨ls, blanks, read, blank, glyphs, reads⟩ := Reading.exists_body accepted
  rw [← List.cons_append, ← glyphs, List.append_assoc] at reads
  rw [← List.append_assoc] at read
  have tokens : skeleton (Reading.ofSource (onLines body)).tokens = skeleton (ls.map Lexeme.token) := by
    have closing : skeleton (ls.map Lexeme.token ++ [Token.slash]) = skeleton (ls.map Lexeme.token) := by
      rw [Mark.skeleton_append]
      rfl
    rw [Reading.tokens, read, List.append_assoc, List.map_append, List.map_append, Mark.skeleton_append, ← closing]
    rfl
  have onward := Reading.reads_readFrom false .opening (ls.flatMap Lexeme.glyphs ++ (blanks ++ Reading.starSlash))
  generalize Reading.readFrom false .opening 0 (ls.flatMap Lexeme.glyphs ++ (blanks ++ Reading.starSlash)) = r at onward
  have whole := onward
  rw [← List.append_assoc, glyphs] at whole
  obtain ⟨tokensInLine, acceptedInLine⟩ := Reading.ofSource_inLine body whole
  have spelled : skeleton (Reading.ofSource (inLine body)).tokens = skeleton r.tokens := by
    rw [tokensInLine, Mark.skeleton_append]
    rfl
  rw [read, ← Reading.Reads.inLine_iff blank reads onward, ← acceptedInLine, ← spelled, ← tokens,
    ← Node.isSome_ofSource?_iff, Option.isSome_iff_exists]
  constructor
  · rintro ⟨other, found, same⟩
    exact ⟨⟨other, found⟩, (Node.expression_eq_iff found valid).mp same⟩
  · rintro ⟨⟨other, found⟩, same⟩
    exact ⟨other, found, (Node.expression_eq_iff found valid).mpr same⟩

/-- The text of a tag takes in the star. -/
theorem closes_in_line_iff_return :
    ∃ root, Node.ofSource? (onLines (encode "a b\n@return c")) = some root ∧
      ((∃ other, Node.ofSource? (inLine (encode "a b\n@return c")) = some other ∧
          other.expression = root.expression) ↔
        Reading.ClosesInLine (Reading.ofSource (onLines (encode "a b\n@return c"))).lexemes) := by
  have valid : (Node.ofSource? (onLines (encode "a b\n@return c"))).isSome = true := by decide +kernel
  obtain ⟨root, found⟩ := Option.isSome_iff_exists.mp valid
  exact ⟨root, found, closes_in_line_iff found⟩

/-- A name does not, and neither does anything behind it. -/
theorem name_refuses_star :
    (Node.ofSource? (onLines (encode "@noRd"))).isSome = true ∧
      (Node.ofSource? (inLine (encode "@noRd"))).isSome = false := by
  decide +kernel

end DocComment
