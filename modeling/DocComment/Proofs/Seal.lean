import Mathlib.Data.List.TakeWhile
import DocComment.Proofs.Reads

/-!
# What a line feed seals

No token but a brace goes on over a line feed. So the lexemes that a source is read as before a line feed are read
whatever follows the line feed (`Reads.sealed`), unless the last of them is a brace that is still open there.
-/

namespace DocComment

namespace Automaton

/-! ## States that words lead to -/

/-- The state that a word leads to. -/
def reach? (m : Automaton) (q : m.State) (word : List Glyph) : Option m.State := word.foldlM m.next q

section
variable {m : Automaton} {q : m.State}

@[simp] theorem reach?_nil : m.reach? q [] = some q := rfl

@[simp] theorem reach?_cons (g : Glyph) (word : List Glyph) :
    m.reach? q (g :: word) = (m.next q g).bind fun behind => m.reach? behind word := rfl

theorem reach?_append (front back : List Glyph) :
    m.reach? q (front ++ back) = (m.reach? q front).bind fun behind => m.reach? behind back := List.foldlM_append

theorem acceptsFrom_iff_reach? (word : List Glyph) :
    m.acceptsFrom q word = true ↔ ∃ behind, m.reach? q word = some behind ∧ m.final behind = true := by
  induction word generalizing q with
  | nil => simp [acceptsFrom]
  | cons g word ih =>
    rw [acceptsFrom, reach?_cons]
    cases m.next q g with
    | none => simp
    | some behind => simpa using ih

/-- Nothing of a rest is taken in from a state: no beginning of it leads to a final one. -/
def Stays (m : Automaton) (q : m.State) : List Glyph → Prop
  | [] => True
  | g :: rest => ∀ behind, m.next q g = some behind → m.final behind = false ∧ m.Stays behind rest

theorem stays_of_stuck {rest : List Glyph} (stuck : ∀ g ∈ rest.head?, m.next q g = none) : m.Stays q rest := by
  cases rest with
  | nil => trivial
  | cons g rest =>
    intro behind next
    rw [stuck g rfl] at next
    cases next

theorem stays_append_iff (front back : List Glyph) :
    m.Stays q (front ++ back) ↔ m.Stays q front ∧ ∀ behind, m.reach? q front = some behind → m.Stays behind back := by
  induction front generalizing q with
  | nil => simp [Stays]
  | cons g front ih =>
    simp only [List.cons_append, Stays, ih, reach?_cons, Option.bind_eq_some_iff]
    constructor
    · intro stays
      refine ⟨fun behind next => ⟨(stays behind next).1, (stays behind next).2.1⟩, ?_⟩
      rintro last ⟨behind, next, reached⟩
      exact (stays behind next).2.2 last reached
    · rintro ⟨stays, later⟩ behind next
      exact ⟨(stays behind next).1, (stays behind next).2, fun last reached => later last ⟨behind, next, reached⟩⟩

/-- What leads on from where nothing is taken in leads to no final state. -/
theorem final_of_stays {word : List Glyph} (nonempty : word ≠ []) (stays : m.Stays q word) {behind : m.State}
    (reached : m.reach? q word = some behind) : m.final behind = false := by
  obtain ⟨front, g, rfl⟩ : ∃ front g, word = front ++ [g] :=
    ⟨_, _, (List.dropLast_concat_getLast nonempty).symm⟩
  obtain ⟨-, later⟩ := (stays_append_iff ..).mp stays
  rw [reach?_append] at reached
  obtain ⟨before, here, last⟩ := Option.bind_eq_some_iff.mp reached
  exact (later before here behind (by simpa using last)).1

theorem longestFrom_eq_none_iff_stays (rest : List Glyph) :
    m.longestFrom q rest = none ↔ m.final q = false ∧ m.Stays q rest := by
  induction rest generalizing q with
  | nil => simp [longestFrom, Stays]
  | cons g rest ih =>
    rw [longestFrom, Stays]
    cases next : m.next q g with
    | none => simp
    | some behind =>
      simp only [Option.bind_some, Option.some.injEq, forall_eq', ← ih]
      cases m.longestFrom behind rest with
      | none => simp
      | some n => simp

theorem longestFrom_eq_zero_iff_stays (rest : List Glyph) :
    m.longestFrom q rest = some 0 ↔ m.final q = true ∧ m.Stays q rest := by
  cases rest with
  | nil => simp [longestFrom, Stays]
  | cons g rest =>
    rw [longestFrom, Stays]
    cases next : m.next q g with
    | none => simp
    | some behind =>
      simp only [Option.bind_some, Option.some.injEq, forall_eq', ← longestFrom_eq_none_iff_stays]
      cases m.longestFrom behind rest with
      | none => simp
      | some n => simp

/-- A word is the longest prefix exactly if it leads to a final state from which nothing of the rest is taken in. -/
theorem longestFrom_append_iff (word rest : List Glyph) :
    m.longestFrom q (word ++ rest) = some word.length ↔
      ∃ behind, m.reach? q word = some behind ∧ m.final behind = true ∧ m.Stays behind rest := by
  induction word generalizing q with
  | nil => simp [longestFrom_eq_zero_iff_stays]
  | cons g word ih =>
    rw [List.cons_append, longestFrom, reach?_cons]
    cases next : m.next q g with
    | none => simp
    | some behind =>
      simp only [Option.bind_some, ← ih]
      cases inner : m.longestFrom behind (word ++ rest) with
      | none => simp
      | some n => simp

end

theorem longest_append_iff (m : Automaton) (word rest : List Glyph) :
    m.longest (word ++ rest) = some word.length ↔
      ∃ behind, m.reach? m.start word = some behind ∧ m.final behind = true ∧ m.Stays behind rest :=
  longestFrom_append_iff word rest

/-- A match that ends before one rest ends before another, if from no state more of that is taken in. -/
theorem longest_replaced {m : Automaton} {back more : List Glyph} (fewer : ∀ q, m.Stays q back → m.Stays q more)
    (word mid : List Glyph) (found : m.longest (word ++ (mid ++ back)) = some word.length) :
    m.longest (word ++ (mid ++ more)) = some word.length := by
  obtain ⟨q, reached, final, stays⟩ := (longest_append_iff ..).mp found
  obtain ⟨inside, later⟩ := (stays_append_iff ..).mp stays
  refine (longest_append_iff ..).mpr ⟨q, reached, final, (stays_append_iff ..).mpr ⟨inside, ?_⟩⟩
  exact fun behind reached => fewer behind (later behind reached)

/-! ## Glyphs that end every match -/

section
variable {m : Automaton} {g : Glyph} (stops : ∀ q, m.next q g = none)
include stops

/-- Where a glyph follows that no state takes, an accepted word is the longest prefix. -/
theorem longest_of_stop {word rest : List Glyph} (accepted : m.accepts word = true)
    (follows : rest.head? = some g) : m.longest (word ++ rest) = some word.length := by
  obtain ⟨behind, reached, final⟩ := (acceptsFrom_iff_reach? word).mp accepted
  refine (longest_append_iff ..).mpr ⟨behind, reached, final, stays_of_stuck ?_⟩
  intro first head
  rw [follows] at head
  obtain rfl := Option.some.inj head
  exact stops behind

/-- Behind a glyph that no state takes, it does not matter what follows. -/
theorem longest_seal {back : List Glyph} (word mid more : List Glyph)
    (found : m.longest (word ++ (mid ++ back)) = some word.length) :
    m.longest (word ++ (mid ++ g :: more)) = some word.length :=
  longest_replaced (fun q _ => stays_of_stuck (by simpa using stops q)) word mid found

theorem not_mem_of_stop {word rest : List Glyph} (found : m.longest (word ++ rest) = some word.length) : g ∉ word := by
  intro member
  obtain ⟨front, back, rfl⟩ := List.append_of_mem member
  obtain ⟨behind, reached, _⟩ := (longest_append_iff ..).mp found
  rw [reach?_append] at reached
  obtain ⟨before, _, next⟩ := Option.bind_eq_some_iff.mp reached
  rw [reach?_cons, stops, Option.bind_none] at next
  cases next

end

theorem breaks_stops_text {g : Glyph} (breaks : breaksText g = true) (q : TextState) : text.next q g = none := by
  cases q <;> simp [text, startsText, breaks]

theorem lineFeed_stops_text (q : TextState) : text.next q (.scalar '\n') = none := breaks_stops_text rfl q

theorem lineFeed_stops_identifier (q : IdentifierState) : identifier.next q (.scalar '\n') = none := by
  cases q <;> rfl

theorem lineFeed_stops_tagName (q : TagNameState) : tagName.next q (.scalar '\n') = none := by
  cases q <;> rfl

/-! ## Braces -/

/-- A brace is closed if it ends with the mark that closes it. -/
def IsClosed (word : List Glyph) : Prop := word.getLast? = some (.scalar '\x7d')

theorem isEnclosed_of_isBlank {g : Glyph} (blank : g.isBlank = true) : isEnclosed g = true := by
  cases g with
  | stray b => rfl
  | scalar c =>
    rw [← GlyphClass.contains_blank] at blank
    rw [← GlyphClass.contains_enclosed]
    · simp [GlyphClass.blank, GlyphClass.enclosed, GlyphClass.contains] at blank ⊢
      omega
    · simp [Glyph.isNull]
      rintro rfl
      simp [GlyphClass.blank, GlyphClass.contains] at blank

private theorem isEnclosed_ne {g : Glyph} (enclosed : isEnclosed g = true) : g ≠ .scalar '\x7d' := by
  rintro rfl
  simp [isEnclosed] at enclosed

/-- An accepted brace is closed for good, or goes on taking in what it may enclose. -/
theorem brace_reach? {word : List Glyph} {q : brace.State} (reached : brace.reach? brace.start word = some q)
    (final : brace.final q = true) :
    (IsClosed word ∧ q = BraceState.closed) ∨ (¬ IsClosed word ∧ q = BraceState.inside) := by
  rcases List.eq_nil_or_concat word with rfl | ⟨front, g, rfl⟩
  · obtain rfl : brace.start = q := Option.some.inj reached
    cases final
  · rw [List.concat_eq_append, reach?_append] at reached
    obtain ⟨before, _, last⟩ := Option.bind_eq_some_iff.mp reached
    have next : brace.next before g = some q := by simpa using last
    simp only [IsClosed, List.concat_eq_append, List.getLast?_concat, Option.some.injEq]
    change BraceState at before q
    cases before with
    | start =>
      by_cases opens : g = .scalar '\x7b' <;> simp [brace, opens] at next
      subst next
      cases final
    | opened =>
      by_cases enclosed : isEnclosed g <;> simp [brace, enclosed] at next
      exact Or.inr ⟨isEnclosed_ne enclosed, next.symm⟩
    | inside =>
      by_cases closes : g = .scalar '\x7d'
      · simp [brace, closes] at next
        exact Or.inl ⟨closes, next.symm⟩
      · by_cases enclosed : isEnclosed g <;> simp [brace, closes, enclosed] at next
        exact Or.inr ⟨closes, next.symm⟩
    | closed => cases next

private theorem next_of_enclosed {q : brace.State} (inside : q = BraceState.inside) {g : Glyph}
    (enclosed : isEnclosed g = true) : brace.next q g = some q := by
  subst inside
  simp [brace, enclosed, isEnclosed_ne enclosed]

private theorem final_of_next {q behind : brace.State} (final : brace.final q = true) {g : Glyph}
    (next : brace.next q g = some behind) : brace.final behind = true := by
  cases q with
  | start => cases final
  | opened => cases final
  | closed => cases next
  | inside =>
    by_cases closes : g = .scalar '\x7d'
    · simp [brace, closes] at next
      obtain rfl := Option.some.inj next
      rfl
    · by_cases enclosed : isEnclosed g <;> simp [brace, closes, enclosed] at next
      obtain rfl := Option.some.inj next
      rfl

private theorem reach?_enclosed {q : brace.State} (inside : q = BraceState.inside) {inner : List Glyph}
    (enclosed : ∀ g ∈ inner, isEnclosed g = true) : brace.reach? q inner = some q := by
  induction inner with
  | nil => rfl
  | cons g inner ih =>
    rw [reach?_cons, next_of_enclosed inside (enclosed g (by simp)), Option.bind_some]
    exact ih fun g member => enclosed g (by simp [member])

private theorem isEnclosed_of_inside {word : List Glyph}
    (reached : brace.reach? BraceState.inside word = some BraceState.inside) : ∀ g ∈ word, isEnclosed g = true := by
  induction word with
  | nil => simp
  | cons g word ih =>
    obtain ⟨behind, next, later⟩ := Option.bind_eq_some_iff.mp ((reach?_cons ..).symm.trans reached)
    by_cases closes : g = .scalar '\x7d'
    · simp [brace, closes] at next
      obtain rfl := Option.some.inj next
      cases word <;> cases later
    · by_cases enclosed : isEnclosed g <;> simp [brace, closes, enclosed] at next
      obtain rfl := Option.some.inj next
      exact List.forall_mem_cons.mpr ⟨enclosed, ih later⟩

/-- Of a brace that is not closed, all behind its first mark is enclosed. -/
theorem exists_of_not_isClosed {word rest : List Glyph} (found : brace.longest (word ++ rest) = some word.length)
    (notClosed : ¬ IsClosed word) :
    ∃ inner, word = .scalar '\x7b' :: inner ∧ ∀ g ∈ inner, isEnclosed g = true := by
  obtain ⟨q, reached, final, -⟩ := (longest_append_iff ..).mp found
  obtain ⟨closed, _⟩ | ⟨_, rfl⟩ := brace_reach? reached final
  · exact absurd closed notClosed
  cases word with
  | nil => cases reached
  | cons g word =>
    obtain ⟨_, first, later⟩ := Option.bind_eq_some_iff.mp ((reach?_cons ..).symm.trans reached)
    by_cases opens : g = .scalar '\x7b' <;> simp [brace, opens] at first
    obtain rfl := Option.some.inj first
    cases word with
    | nil => cases later
    | cons a word =>
      obtain ⟨_, second, later⟩ := Option.bind_eq_some_iff.mp ((reach?_cons ..).symm.trans later)
      by_cases enclosed : isEnclosed a <;> simp [brace, enclosed] at second
      obtain rfl := Option.some.inj second
      exact ⟨a :: word, by rw [opens], List.forall_mem_cons.mpr ⟨enclosed, isEnclosed_of_inside later⟩⟩

/-- A brace that takes in nothing more is closed, if what follows is something that it may enclose. -/
theorem isClosed_of_longest {word : List Glyph} {g : Glyph} {rest : List Glyph} (enclosed : isEnclosed g = true)
    (found : brace.longest (word ++ g :: rest) = some word.length) : IsClosed word := by
  obtain ⟨q, reached, final, stays⟩ := (longest_append_iff ..).mp found
  rcases brace_reach? reached final with ⟨closed, _⟩ | ⟨_, inside⟩
  · exact closed
  · have more := (stays q (next_of_enclosed inside enclosed)).1
    rw [final] at more
    cases more

/-- A brace that is closed, or that something follows, is the longest whatever else follows. -/
theorem longest_brace {back : List Glyph} (word mid more : List Glyph) (settled : mid = [] → IsClosed word)
    (found : brace.longest (word ++ (mid ++ back)) = some word.length) :
    brace.longest (word ++ (mid ++ more)) = some word.length := by
  obtain ⟨q, reached, final, stays⟩ := (longest_append_iff ..).mp found
  refine (longest_append_iff ..).mpr ⟨q, reached, final, stays_of_stuck ?_⟩
  rcases brace_reach? reached final with ⟨_, closed⟩ | ⟨notClosed, _⟩
  · intro g _
    subst closed
    rfl
  · cases mid with
    | nil => exact absurd (settled rfl) notClosed
    | cons a mid =>
      intro g head
      obtain rfl : a = g := Option.some.inj head
      cases next : brace.next q a with
      | none => rfl
      | some behind =>
        have goesOn := (stays behind next).1
        rw [final_of_next final next] at goesOn
        cases goesOn

/-- A brace that is not closed takes in what it may enclose. -/
theorem longest_open {word inner rest : List Glyph} (enclosed : ∀ g ∈ inner, isEnclosed g = true)
    (notClosed : ¬ IsClosed word) (found : brace.longest (word ++ rest) = some word.length) :
    brace.longest (word ++ inner ++ rest) = some (word ++ inner).length := by
  obtain ⟨q, reached, final, stays⟩ := (longest_append_iff ..).mp found
  refine (longest_append_iff ..).mpr ⟨q, ?_, final, stays⟩
  rcases brace_reach? reached final with ⟨closed, _⟩ | ⟨_, inside⟩
  · exact absurd closed notClosed
  · rw [reach?_append, reached, Option.bind_some]
    exact reach?_enclosed inside enclosed

/-- A brace that is closed is the longest, whatever follows it. -/
theorem longest_braces {inner : List Glyph} (nonempty : inner ≠ []) (enclosed : ∀ g ∈ inner, isEnclosed g = true)
    (rest : List Glyph) :
    brace.longest (Glyph.scalar '\x7b' :: inner ++ [Glyph.scalar '\x7d'] ++ rest) =
      some (Glyph.scalar '\x7b' :: inner ++ [Glyph.scalar '\x7d']).length := by
  obtain ⟨g, inner, rfl⟩ := List.exists_cons_of_ne_nil nonempty
  have goesOn : brace.next BraceState.opened g = some BraceState.inside := by simp [brace, enclosed g (by simp)]
  have more := reach?_enclosed rfl fun a (member : a ∈ inner) => enclosed a (by simp [member])
  have closes : brace.reach? BraceState.inside (inner ++ [.scalar '\x7d']) = some BraceState.closed :=
    (reach?_append ..).trans (Option.bind_eq_some_iff.mpr ⟨BraceState.inside, more, rfl⟩)
  refine (longest_append_iff ..).mpr ⟨BraceState.closed, ?_, rfl, stays_of_stuck fun _ _ => rfl⟩
  have later : brace.reach? BraceState.opened (g :: (inner ++ [.scalar '\x7d'])) = some BraceState.closed :=
    (reach?_cons ..).trans (Option.bind_eq_some_iff.mpr ⟨_, goesOn, closes⟩)
  exact (reach?_cons ..).trans (Option.bind_eq_some_iff.mpr ⟨BraceState.opened, rfl, later⟩)

end Automaton

/-! ## Lexemes -/

namespace Recognised
variable {identifiers : Bool} {t : Token}

/-- A slash is recognised alone. -/
theorem eq_slash {word rest : List Glyph} (found : Recognised identifiers (word ++ rest) .slash word.length) :
    word = [.scalar '/'] := by
  obtain ⟨g, body, rfl⟩ := List.exists_cons_of_length_pos found.positive
  rw [List.cons_append] at found
  generalize width : (g :: body).length = n at found
  cases found with
  | slash =>
    obtain rfl : body = [] := List.eq_nil_of_length_eq_zero (by simpa using width)
    rfl

/-- A lexeme is recognised before a line feed whatever follows that, if it is no brace that is open there. -/
theorem sealed {word mid back : List Glyph} (more : List Glyph)
    (found : Recognised identifiers (word ++ (mid ++ back)) t word.length)
    (settled : t = .brace → mid = [] → Automaton.IsClosed word) :
    Recognised identifiers (word ++ (mid ++ .scalar '\n' :: more)) t word.length := by
  refine found.replaced ?_ ?_ ?_ ?_
  · exact fun _ => Automaton.longest_seal Automaton.lineFeed_stops_tagName word mid more
  · exact fun brace => Automaton.longest_brace word mid _ (settled brace)
  · exact fun _ => Automaton.longest_seal Automaton.lineFeed_stops_identifier word mid more
  · exact fun _ => Automaton.longest_seal Automaton.lineFeed_stops_text word mid more

theorem longest_of_brace {input : List Glyph} {n : Nat} (found : Recognised identifiers input .brace n) :
    Automaton.brace.longest input = some n := by
  cases found with
  | brace longest => exact longest

/-- A brace that is not closed takes in what it may enclose. -/
theorem extended {word inner rest : List Glyph} (enclosed : ∀ g ∈ inner, Automaton.isEnclosed g = true)
    (notClosed : ¬ Automaton.IsClosed word) (found : Recognised identifiers (word ++ rest) .brace word.length) :
    Recognised identifiers (word ++ inner ++ rest) .brace (word ++ inner).length := by
  obtain ⟨g, body, rfl⟩ := List.exists_cons_of_length_pos found.positive
  rw [List.cons_append] at found
  generalize width : (g :: body).length = n at found
  cases found with
  | brace longest =>
    subst width
    exact .brace (Automaton.longest_open enclosed notClosed longest)

/-- Before what it may enclose, a brace is closed. -/
theorem isClosed {word rest : List Glyph} {g : Glyph} (enclosed : Automaton.isEnclosed g = true)
    (found : Recognised identifiers (word ++ g :: rest) .brace word.length) : Automaton.IsClosed word :=
  Automaton.isClosed_of_longest enclosed found.longest_of_brace

/-- A glyph that no name and no identifier takes in is a slash or a star by itself, or in a text or a brace. -/
theorem of_mem {g : Glyph} (noName : ∀ q, Automaton.tagName.next q g = none)
    (noIdentifier : ∀ q, Automaton.identifier.next q g = none) {word rest : List Glyph}
    (found : Recognised identifiers (word ++ rest) t word.length) (member : g ∈ word) :
    (t = .slash ∧ g = .scalar '/') ∨ (t = .star ∧ word = [.scalar '*']) ∨
      (t = .text ∧ Automaton.text.longest (word ++ rest) = some word.length) ∨ t = .brace := by
  obtain ⟨first, body, rfl⟩ := List.exists_cons_of_length_pos found.positive
  rw [List.cons_append] at found
  generalize width : (first :: body).length = n at found
  cases found with
  | slash =>
    obtain rfl : body = [] := List.eq_nil_of_length_eq_zero (by simpa using width)
    exact Or.inl ⟨rfl, List.mem_singleton.mp member⟩
  | star =>
    obtain rfl : body = [] := List.eq_nil_of_length_eq_zero (by simpa using width)
    exact Or.inr (Or.inl ⟨rfl, rfl⟩)
  | tagName longest =>
    subst width
    exact absurd member (Automaton.not_mem_of_stop noName longest)
  | brace _ => exact Or.inr (Or.inr (Or.inr rfl))
  | identifier _ _ longest =>
    subst width
    exact absurd member (Automaton.not_mem_of_stop noIdentifier longest)
  | text _ _ _ _ _ longest => exact Or.inr (Or.inr (Or.inl ⟨rfl, width ▸ longest⟩))

/-- Before what a brace may enclose, no lexeme ends in a line feed. -/
theorem getLast?_ne_lineFeed {word rest : List Glyph} {g : Glyph} (enclosed : Automaton.isEnclosed g = true)
    (found : Recognised identifiers (word ++ g :: rest) t word.length) : word.getLast? ≠ some (.scalar '\n') := by
  intro last
  have member := List.mem_of_getLast? last
  have holds := found.of_mem Automaton.lineFeed_stops_tagName Automaton.lineFeed_stops_identifier member
  rcases holds with ⟨-, slash⟩ | ⟨-, rfl⟩ | ⟨-, longest⟩ | rfl
  · cases slash
  · cases last
  · exact Automaton.not_mem_of_stop Automaton.lineFeed_stops_text longest member
  · have closed : word.getLast? = some (.scalar '\x7d') := found.isClosed enclosed
    rw [last] at closed
    cases closed

end Recognised

/-- The lexeme is a brace that no mark closes. -/
def Lexeme.isOpen (l : Lexeme) : Bool := l.token == .brace && l.body.getLast? != some (.scalar '\x7d')

/-! ## Readings -/

namespace Reading

/-- What is read before a line feed is read whatever follows that, if it does not end with a brace that is open. The
rest is then read from the stage behind it. -/
theorem Reads.sealed {atFront : Bool} {stage reached : Stage} {before rest : List Lexeme} {e : Ending}
    {mid back : List Glyph} (reads : Reads atFront stage (before.flatMap Lexeme.glyphs ++ (mid ++ back)) ⟨before ++ rest, e⟩)
    (settled : mid = [] → ∀ l ∈ before.getLast?, l.isOpen = false)
    (run : stage.behindAll (before.map Lexeme.token) = some reached) {more : List Glyph} {r : Reading}
    (onward : Reads (atFront && before.isEmpty) reached (mid ++ .scalar '\n' :: more) r) :
    Reads atFront stage (before.flatMap Lexeme.glyphs ++ (mid ++ .scalar '\n' :: more))
      ⟨before ++ r.lexemes, r.ending⟩ := by
  refine reads.resumed ?_ run onward
  intro identifiers front l after cut found
  rw [← List.append_assoc (after.flatMap Lexeme.glyphs)] at found ⊢
  refine found.sealed more ?_
  -- Every lexeme but the last has glyphs of the next behind it, so only the last can meet the line feed.
  intro brace nothing
  obtain ⟨noGlyphs, nothing⟩ := List.append_eq_nil_iff.mp nothing
  cases after with
  | nil => simpa [Lexeme.isOpen, brace, Automaton.IsClosed] using settled nothing l (by simp [cut])
  | cons next after =>
    rw [List.flatMap_cons, List.append_eq_nil_iff] at noGlyphs
    exact absurd noGlyphs.1 (reads.glyphs_ne_nil (by simp [cut]))

/-- Before a lexeme that starts with what a brace may enclose, no lexeme is an open brace or ends in a line feed. -/
theorem Reads.before_enclosed {atFront : Bool} {stage : Stage} {input : List Glyph} {before after : List Lexeme}
    {l next : Lexeme} {e : Ending} (reads : Reads atFront stage input ⟨before ++ l :: next :: after, e⟩)
    (enclosed : ∀ g ∈ next.glyphs.head?, Automaton.isEnclosed g = true) :
    l.isOpen = false ∧ ∃ glyphs g, l.glyphs = glyphs ++ [g] ∧ g ≠ .scalar '\n' := by
  obtain ⟨_, _, _, _, _, lexed, later⟩ := reads.lexed
  obtain ⟨_, rest, rfl, second, _⟩ := later.first
  have found := lexed.found
  obtain ⟨g, glyphs, starts⟩ := List.exists_cons_of_length_pos (step_lexeme_append second).1
  have isEnclosed := enclosed g (by rw [starts]; rfl)
  rw [starts, List.cons_append] at found
  constructor
  · by_cases brace : l.token = .brace
    · rw [brace] at found
      have closed : l.body.getLast? = some (.scalar '\x7d') := found.isClosed isEnclosed
      simp [Lexeme.isOpen, closed]
    · simp [Lexeme.isOpen, brace]
  · have noLineFeed := found.getLast?_ne_lineFeed isEnclosed
    rcases List.eq_nil_or_concat l.body with nothing | ⟨body, last, split⟩
    · have positive := found.positive
      rw [nothing] at positive
      cases positive
    · rw [split, List.concat_eq_append, List.getLast?_concat] at noLineFeed
      refine ⟨l.padding ++ body, last, ?_, fun same => noLineFeed (congrArg some same)⟩
      rw [Lexeme.glyphs, split, List.concat_eq_append, List.append_assoc]

end Reading

end DocComment
