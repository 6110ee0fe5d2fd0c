import DocComment.Proofs.Terminator

/-!
# Comments that end once

A star settles what stands before it: wherever a lexeme could go on over a star, it could also end there. So a comment
that a star and a slash close is read the same whatever follows it, and only blanks may follow it (`comment_ends_once`).
-/

namespace DocComment

namespace Glyph

private theorem decode_bytes_append {glyphs : List Glyph} (blank : ∀ g ∈ glyphs, g.isBlank = true) (rest : List UInt8) :
    decode (glyphs.flatMap bytes ++ rest) = glyphs ++ decode rest := by
  induction glyphs with
  | nil => rfl
  | cons g glyphs ih =>
    cases g with
    | stray b => cases blank (.stray b) (by simp)
    | scalar c =>
      rw [List.flatMap_cons, List.append_assoc, bytes, decode_utf8EncodeChar_append,
        ih fun g member => blank g (by simp [member]), List.cons_append]

theorem decode_blanks_append {blanks : List UInt8} (blank : ∀ g ∈ decode blanks, g.isBlank = true) (rest : List UInt8) :
    decode (blanks ++ rest) = decode blanks ++ decode rest := by
  have whole := decode_bytes_append blank rest
  rwa [bytes_decode] at whole

end Glyph

namespace Automaton

/-! ## Glyphs that settle matches -/

/-- Where a glyph leads to final states only, nothing behind it matters to a match that ends before it. -/
theorem longest_settled {m : Automaton} {g : Glyph} (settles : ∀ q behind, m.next q g = some behind → m.final behind = true)
    {back : List Glyph} (word mid more : List Glyph) (found : m.longest (word ++ (mid ++ g :: back)) = some word.length) :
    m.longest (word ++ (mid ++ g :: more)) = some word.length := by
  refine longest_replaced ?_ word mid found
  intro q stays behind next
  have taken := (stays behind next).1
  rw [settles q behind next] at taken
  cases taken

private theorem settles_of_stop {m : Automaton} {g : Glyph} (stops : ∀ q, m.next q g = none) (q behind : m.State)
    (next : m.next q g = some behind) : m.final behind = true := by
  rw [stops q] at next
  cases next

theorem star_settles_text (q behind : text.State) (next : text.next q (.scalar '*') = some behind) :
    text.final behind = true := by
  change TextState at q
  cases q with
  | start => cases (show text.next TextState.start (.scalar '*') = none from rfl).symm.trans next
  | lead => cases next
  | body => cases next; rfl
  | stars => cases next; rfl
  | again => cases next; rfl

theorem star_settles_brace (q behind : brace.State) (next : brace.next q (.scalar '*') = some behind) :
    brace.final behind = true := by
  change BraceState at q
  cases q with
  | start => cases next
  | opened => cases next; rfl
  | inside => cases next; rfl
  | closed => cases next

theorem text_stuck_at_slash {q : text.State} {inner : List Glyph}
    (reached : text.reach? text.start (inner ++ [.scalar '*']) = some q) : text.next q (.scalar '/') = none := by
  rw [reach?_append] at reached
  obtain ⟨before, -, last⟩ := Option.bind_eq_some_iff.mp reached
  have star : text.next before (.scalar '*') = some q := by simpa using last
  have stuck := text_star_slash before []
  rw [reach?_cons, star, Option.bind_some, reach?_cons] at stuck
  cases next : text.next q (.scalar '/') with
  | none => rfl
  | some behind => simp [next] at stuck

end Automaton

namespace Recognised
variable {identifiers : Bool} {t : Token}

/-- A lexeme is recognised before a star whatever follows that. -/
theorem settled {word mid back : List Glyph} (more : List Glyph)
    (found : Recognised identifiers (word ++ (mid ++ .scalar '*' :: back)) t word.length) :
    Recognised identifiers (word ++ (mid ++ .scalar '*' :: more)) t word.length := by
  refine found.replaced ?_ ?_ ?_ ?_
  · exact fun _ => Automaton.longest_settled (Automaton.settles_of_stop Automaton.star_stops_tagName) word mid more
  · exact fun _ => Automaton.longest_settled Automaton.star_settles_brace word mid more
  · exact fun _ => Automaton.longest_settled (Automaton.settles_of_stop Automaton.star_stops_identifier) word mid more
  · exact fun _ => Automaton.longest_settled Automaton.star_settles_text word mid more

/-- A star, or a text that ends in one, is recognised before a slash whatever follows that. -/
theorem beforeSlash {inner back : List Glyph} (more : List Glyph) (kind : t = .star ∨ t = .text)
    (found : Recognised identifiers (inner ++ [Glyph.scalar '*'] ++ .scalar '/' :: back) t
      (inner ++ [Glyph.scalar '*']).length) :
    Recognised identifiers (inner ++ [Glyph.scalar '*'] ++ .scalar '/' :: more) t
      (inner ++ [Glyph.scalar '*']).length := by
  refine found.replaced ?_ ?_ ?_ ?_
  · intro name
    rcases kind with rfl | rfl <;> cases name
  · rintro rfl
    rcases kind with kind | kind <;> cases kind
  · rintro rfl
    rcases kind with kind | kind <;> cases kind
  · intro _ longest
    obtain ⟨q, reached, final, -⟩ := (Automaton.longest_append_iff ..).mp longest
    refine (Automaton.longest_append_iff ..).mpr ⟨q, reached, final, Automaton.stays_of_stuck ?_⟩
    intro g head
    obtain rfl := Option.some.inj head
    exact Automaton.text_stuck_at_slash reached

end Recognised

namespace Reading

/-! ## Behind the closing slash -/

/-- A slash that no blank precedes. -/
def bareSlash : Lexeme := ⟨.slash, [], [.scalar '/']⟩

theorem Reads.lexemes_of_closed {atFront : Bool} {input : List Glyph} {r : Reading} (reads : Reads atFront .closed input r) :
    r.lexemes = [] := by
  cases reads with
  | ending _ => rfl
  | lexeme read _ => cases ((step_glyphs_iff ..).mp read).1

theorem step_bareSlash {stage : Stage} (closes : stage.next .slash = some .closed) (rest : List Glyph) :
    step false stage (bareSlash.glyphs ++ rest) = .lexeme bareSlash .closed :=
  step_of_recognised (by simp [bareSlash]) (by simp) closes .slash

/-- Where a slash closes the comment, nothing is read behind it, and the comment is accepted if only blanks are there. -/
theorem exists_reads_bareSlash {stage : Stage} (closes : stage.next .slash = some .closed) (rest : List Glyph) :
    ∃ e, Reads false stage (.scalar '/' :: rest) ⟨[bareSlash], e⟩ ∧
      ((∃ trailing, e = .accepted trailing) ↔ ∀ g ∈ rest, g.isBlank = true) := by
  have later := reads_readFrom false .closed rest
  generalize readFrom false .closed 0 rest = r at later
  obtain ⟨lexemes, e⟩ := r
  obtain rfl : lexemes = [] := later.lexemes_of_closed
  refine ⟨e, .lexeme (step_bareSlash closes rest) later, ?_⟩
  have ends := step_of_reads later
  rw [← pad_eq_all_iff]
  constructor
  · rintro ⟨trailing, rfl⟩
    exact ⟨trailing, ((step_eq_accepted_iff ..).mp ends).2⟩
  · rintro ⟨trailing, padded⟩
    have accepted := (step_eq_accepted_iff false .closed rest trailing).mpr ⟨rfl, padded⟩
    rw [ends] at accepted
    exact ⟨trailing, Step.ending.inj accepted⟩

private theorem closes_of_reads {stage : Stage} {input : List Glyph} {closing : Lexeme} {more : List Lexeme} {e : Ending}
    (started : stage ≠ .start) (reads : Reads false stage input ⟨closing :: more, e⟩) :
    stage.next .slash = some .closed := by
  have goesOn : stage ≠ .closed := by
    rintro rfl
    cases reads.lexemes_of_closed
  cases stage <;> first | contradiction | rfl

/-! ## The star and the slash at the end -/

/-- Up to a lexeme that ends in a star, lexemes are recognised before a slash whatever follows that. -/
private theorem recognised_beforeSlash {identifiers : Bool} {before front after : List Lexeme} {l other : Lexeme}
    {inner back : List Glyph} (kind : l.token = .star ∨ l.token = .text) (body : l.body = inner ++ [.scalar '*'])
    (cut : before ++ [l] = front ++ other :: after) (more : List Glyph)
    (found : Recognised identifiers (other.body ++ (after.flatMap Lexeme.glyphs ++ .scalar '/' :: back)) other.token
      other.body.length) :
    Recognised identifiers (other.body ++ (after.flatMap Lexeme.glyphs ++ .scalar '/' :: more)) other.token
      other.body.length := by
  -- The lexeme that ends in the star has the slash behind it, and all others have the star behind them.
  rcases List.eq_nil_or_concat after with rfl | ⟨between, last, rfl⟩
  · obtain ⟨rfl, rfl⟩ := List.append_singleton_inj.mp cut
    rw [List.flatMap_nil, List.nil_append, body] at found ⊢
    exact found.beforeSlash _ kind
  · rw [List.concat_eq_append, ← List.cons_append, ← List.append_assoc] at cut
    obtain ⟨-, rfl⟩ := List.append_singleton_inj.mp cut
    have star (rest : List Glyph) : (between.concat l).flatMap Lexeme.glyphs ++ rest =
        between.flatMap Lexeme.glyphs ++ (l.padding ++ inner) ++ .scalar '*' :: rest := by
      simp [Lexeme.glyphs, body]
    rw [star] at found ⊢
    exact found.settled _

private theorem ne_start_of_run {stage reached : Stage} {before : List Lexeme} {l : Lexeme}
    (run : stage.behindAll ((before ++ [l]).map Lexeme.token) = some reached) : reached ≠ .start := by
  rintro rfl
  rw [List.map_append, Stage.behindAll_append] at run
  obtain ⟨_, _, last⟩ := Option.bind_eq_some_iff.mp run
  exact Stage.next_ne_start (by simpa using last)

/-- A comment that a star and a slash close is read first of whatever starts with it, and it is accepted again exactly if
only blanks follow. -/
theorem exists_end {source front back : List UInt8} {trailing : List Glyph}
    (accepted : (ofSource source).ending = .accepted trailing) (ends : source = front ++ encode "*/" ++ back)
    (blank : ∀ g ∈ Glyph.decode back, g.isBlank = true) :
    ∃ lexemes, ∀ more, (ofSource (source ++ more)).lexemes = lexemes ∧
      ((∃ trailing, (ofSource (source ++ more)).ending = .accepted trailing) ↔ ∀ g ∈ Glyph.decode more, g.isBlank = true) := by
  have decoded : Glyph.decode source = Glyph.decode front ++ .scalar '*' :: .scalar '/' :: Glyph.decode back := by
    rw [ends, Glyph.decode_terminator]
  cases owned_of_accepted accepted decoded with
  | enclosed _ _ _ _ notBlank =>
    obtain ⟨g, member, other⟩ := notBlank
    rw [blank g member] at other
    cases other
  | @closing before l last inner lexemes kind place body _ =>
    have reads := reads_ofSource lexemes
    have spelled : Glyph.decode front ++ [.scalar '*'] = (before ++ [l]).flatMap Lexeme.glyphs := by
      rw [place, List.flatMap_append, List.flatMap_singleton, Lexeme.glyphs, body]
      simp
    rw [decoded, List.append_cons, spelled, List.append_cons before l [last]] at reads
    obtain ⟨reached, left, run, split, onward⟩ := reads.behind rfl
    obtain rfl := List.append_cancel_left split
    have away : (true && (before ++ [l]).isEmpty) = false := by simp
    rw [away] at onward
    have closes := closes_of_reads (ne_start_of_run run) onward
    refine ⟨before ++ [l] ++ [bareSlash], fun more => ?_⟩
    obtain ⟨e, later, accepts⟩ := exists_reads_bareSlash closes (Glyph.decode back ++ Glyph.decode more)
    have resumed := reads.resumed (fun _ _ _ _ cut found => recognised_beforeSlash kind body cut _ found) run
      (by rwa [away])
    rw [← spelled, ← List.append_cons] at resumed
    have whole : Glyph.decode (source ++ more) =
        Glyph.decode front ++ .scalar '*' :: .scalar '/' :: (Glyph.decode back ++ Glyph.decode more) := by
      rw [ends, List.append_assoc, Glyph.decode_terminator, Glyph.decode_blanks_append blank]
    rw [← whole] at resumed
    rw [ofSource, ofGlyphs, (reads_iff ..).mp resumed, accepts]
    simp only [List.forall_mem_append, true_and]
    exact ⟨fun all => all.2, fun all => ⟨blank, all⟩⟩

end Reading

/-- A comment that a star and a slash close ends once: whatever bytes follow it, the lexemes read are those of the comment,
and the source is a valid comment exactly if these bytes are blanks. -/
theorem comment_ends_once {source front back : List UInt8} (valid : (Node.ofSource? source).isSome = true)
    (ends : source = front ++ encode "*/" ++ back) (blank : ∀ g ∈ Glyph.decode back, g.isBlank = true)
    (more : List UInt8) :
    ((Node.ofSource? (source ++ more)).isSome = true ↔ ∀ g ∈ Glyph.decode more, g.isBlank = true) ∧
      (Reading.ofSource (source ++ more)).lexemes = (Reading.ofSource source).lexemes := by
  obtain ⟨trailing, accepted⟩ := (Node.isSome_ofSource?_iff source).mp valid
  obtain ⟨lexemes, same⟩ := Reading.exists_end accepted ends blank
  have alone := (same []).1
  rw [List.append_nil] at alone
  rw [Node.isSome_ofSource?_iff, alone]
  exact ⟨(same more).2, (same more).1⟩

/-- Another star and slash behind the end are not read. -/
theorem comment_ends_once_twice :
    (Node.ofSource? (encode "/** ab*c d */ ")).isSome = true ∧
      encode "/** ab*c d */ " = encode "/** ab*c d " ++ encode "*/" ++ encode " " ∧
      (∀ g ∈ Glyph.decode (encode " "), g.isBlank = true) ∧
      ((Node.ofSource? (encode "/** ab*c d */ " ++ encode "e */")).isSome = true ↔
        ∀ g ∈ Glyph.decode (encode "e */"), g.isBlank = true) ∧
      (Reading.ofSource (encode "/** ab*c d */ " ++ encode "e */")).lexemes =
        (Reading.ofSource (encode "/** ab*c d */ ")).lexemes := by
  have valid : (Node.ofSource? (encode "/** ab*c d */ ")).isSome = true := by decide +kernel
  have ends : encode "/** ab*c d */ " = encode "/** ab*c d " ++ encode "*/" ++ encode " " := by decide +kernel
  have blank : ∀ g ∈ Glyph.decode (encode " "), g.isBlank = true := by decide +kernel
  exact ⟨valid, ends, blank, comment_ends_once valid ends blank (encode "e */")⟩

end DocComment
