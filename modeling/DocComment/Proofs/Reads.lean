import Mathlib.Data.List.TakeWhile
import DocComment.Proofs.Recognition
import DocComment.Reading.Basic

/-!
# Readings, step by step

A reading takes one step after the other: `Reads` says so as a relation, and `reads_iff` that it is what
`Reading.readFrom` computes. What holds of a reading is shown by induction on that relation. Wherever a reading
is cut, the lexemes before the cut lead from its stage to the stage behind them, and the rest is a reading from
there (`Reads.behind`).
-/

namespace DocComment

/-- A member of two lists put together belongs to the first or to the second. -/
theorem cut_of_append {α : Type} {first second front back : List α} {a : α}
    (split : first ++ second = front ++ a :: back) :
    (∃ mid, front = first ++ mid ∧ second = mid ++ a :: back) ∨
      ∃ mid, first = front ++ a :: mid ∧ back = mid ++ second := by
  rcases List.append_eq_append_iff.mp split with ⟨mid, whole, rest⟩ | ⟨mid, whole, rest⟩
  · exact Or.inl ⟨mid, whole, rest⟩
  · rcases List.cons_eq_append_iff.mp rest with ⟨rfl, rest⟩ | ⟨mid, rfl, rest⟩
    · exact Or.inl ⟨[], by simpa using whole.symm, rest.symm⟩
    · exact Or.inr ⟨mid, whole, (List.cons.inj rest).2⟩

namespace Stage

/-- The stage behind some tokens in turn, if each of them fits. -/
def behindAll (stage : Stage) (tokens : List Token) : Option Stage := tokens.foldlM Stage.next stage

@[simp] theorem behindAll_nil (stage : Stage) : stage.behindAll [] = some stage := rfl

@[simp] theorem behindAll_cons (stage : Stage) (t : Token) (rest : List Token) :
    stage.behindAll (t :: rest) = (stage.next t).bind fun behind => behind.behindAll rest := rfl

theorem behindAll_append (stage : Stage) (front back : List Token) :
    stage.behindAll (front ++ back) = (stage.behindAll front).bind fun behind => behind.behindAll back :=
  List.foldlM_append

end Stage

namespace Reading

/-- The tokens of a reading in order. -/
def tokens (r : Reading) : List Token := r.lexemes.map Lexeme.token

/-! ## Padding -/

/-- Blanks, which a byte order mark may precede at the front of a source. -/
def IsPadding (atFront : Bool) (padding : List Glyph) : Prop :=
  ∃ mark blanks, padding = mark ++ blanks ∧ (mark = [] ∨ (atFront = true ∧ mark = [Glyph.byteOrderMark])) ∧
    ∀ g ∈ blanks, g.isBlank = true

theorem pad_mark (rest : List Glyph) :
    pad true (Glyph.byteOrderMark :: rest) =
      (Glyph.byteOrderMark :: rest.takeWhile Glyph.isBlank, rest.dropWhile Glyph.isBlank) := by
  simp [pad]

theorem pad_noMark {atFront : Bool} {input : List Glyph}
    (noMark : atFront = true → input.head? ≠ some Glyph.byteOrderMark) :
    pad atFront input = (input.takeWhile Glyph.isBlank, input.dropWhile Glyph.isBlank) := by
  have none : ¬ (atFront && input.head? == some Glyph.byteOrderMark) = true := by simpa using noMark
  simp only [pad, none]
  rfl

private theorem mark_or_not (atFront : Bool) (input : List Glyph) :
    (atFront = true ∧ ∃ rest, input = Glyph.byteOrderMark :: rest) ∨
      (atFront = true → input.head? ≠ some Glyph.byteOrderMark) := by
  by_cases marked : atFront = true ∧ input.head? = some Glyph.byteOrderMark
  · exact Or.inl ⟨marked.1, List.head?_eq_some_iff.mp marked.2⟩
  · exact Or.inr fun front head => marked ⟨front, head⟩

/-- Nothing is lost between the padding and the rest. -/
theorem pad_append (atFront : Bool) (input : List Glyph) :
    (pad atFront input).1 ++ (pad atFront input).2 = input := by
  rcases mark_or_not atFront input with ⟨rfl, rest, rfl⟩ | noMark
  · simp [pad_mark]
  · simp [pad_noMark noMark]

theorem isPadding_pad (atFront : Bool) (input : List Glyph) : IsPadding atFront (pad atFront input).1 := by
  rcases mark_or_not atFront input with ⟨rfl, rest, rfl⟩ | noMark
  · rw [pad_mark]
    exact ⟨[_], _, rfl, Or.inr ⟨rfl, rfl⟩, fun g member => List.mem_takeWhile_imp member⟩
  · rw [pad_noMark noMark]
    exact ⟨[], _, rfl, Or.inl rfl, fun g member => List.mem_takeWhile_imp member⟩

/-- The rest starts with no blank. -/
theorem notBlank_of_pad (atFront : Bool) (input : List Glyph) :
    ∀ g ∈ (pad atFront input).2.head?, g.isBlank = false := by
  have other (rest : List Glyph) : ∀ g ∈ (rest.dropWhile Glyph.isBlank).head?, g.isBlank = false := by
    intro g head
    have := List.head?_dropWhile_not Glyph.isBlank rest
    rw [head] at this
    exact this
  rcases mark_or_not atFront input with ⟨rfl, rest, rfl⟩ | noMark
  · rw [pad_mark]
    exact other rest
  · rw [pad_noMark noMark]
    exact other input

/-- Blanks before a glyph that is none are padding, all of them and nothing else. -/
theorem pad_blanks {atFront : Bool} {blanks rest : List Glyph}
    (noMark : atFront = true → (blanks ++ rest).head? ≠ some Glyph.byteOrderMark)
    (blank : ∀ g ∈ blanks, g.isBlank = true) (other : ∀ g ∈ rest.head?, g.isBlank = false) :
    pad atFront (blanks ++ rest) = (blanks, rest) := by
  rw [pad_noMark noMark, List.takeWhile_append_of_pos blank, List.dropWhile_append_of_pos blank]
  cases rest with
  | nil => simp
  | cons g rest => simp [other g rfl]

/-- Of what stands behind the padding, only the first glyph matters to it. -/
theorem pad_of_pad {atFront : Bool} {padding rest : List Glyph} {g : Glyph}
    (padded : pad atFront (padding ++ g :: rest) = (padding, g :: rest)) (more : List Glyph) :
    pad atFront (padding ++ g :: more) = (padding, g :: more) := by
  have other : g.isBlank = false := notBlank_of_pad atFront (padding ++ g :: rest) g (by rw [padded]; rfl)
  rcases mark_or_not atFront (padding ++ g :: rest) with ⟨rfl, input, marked⟩ | noMark
  · rw [marked, pad_mark] at padded
    obtain ⟨rfl, _⟩ := Prod.mk.inj padded
    have blank : ∀ a ∈ input.takeWhile Glyph.isBlank, a.isBlank = true := fun a member => List.mem_takeWhile_imp member
    rw [List.cons_append, pad_mark, List.takeWhile_append_of_pos blank, List.dropWhile_append_of_pos blank]
    simp [other]
  · rw [pad_noMark noMark] at padded
    obtain ⟨front, _⟩ := Prod.mk.inj padded
    refine pad_blanks ?_ ?_ (by simpa using other)
    · intro front
      have other := noMark front
      cases padding <;> simpa using other
    · intro a member
      rw [← front] at member
      exact List.mem_takeWhile_imp member

/-! ## Steps -/

/-- A step reads a lexeme exactly if its token is recognised behind the padding and fits the stage. -/
theorem step_eq_lexeme_iff (atFront : Bool) (stage behind : Stage) (input : List Glyph) (l : Lexeme) :
    step atFront stage input = .lexeme l behind ↔
      stage.next l.token = some behind ∧ ∃ rest n, pad atFront input = (l.padding, rest) ∧
        Recognised stage.identifiers rest l.token n ∧ l.body = rest.take n := by
  constructor
  · intro read
    unfold step at read
    split at read
    next padding rest padded =>
    split at read
    · next t n found =>
      split at read
      · next fits =>
        cases read
        exact ⟨fits, rest, n, padded, (recognised_iff ..).mp found, rfl⟩
      · cases read
    · cases read
    · cases read
  · rintro ⟨fits, rest, n, padded, found, body⟩
    have found := (recognised_iff ..).mpr found
    simp only [step, padded, found, fits, ← body]

/-- A step reads a lexeme at the front of an input exactly if its token fits the stage, its padding is all that is
passed over, and its body is recognised behind it. -/
theorem step_glyphs_iff (atFront : Bool) (stage behind : Stage) (l : Lexeme) (rest : List Glyph) :
    step atFront stage (l.glyphs ++ rest) = .lexeme l behind ↔
      stage.next l.token = some behind ∧ pad atFront (l.glyphs ++ rest) = (l.padding, l.body ++ rest) ∧
        Recognised stage.identifiers (l.body ++ rest) l.token l.body.length := by
  rw [step_eq_lexeme_iff]
  refine and_congr_right fun _ => ⟨?_, ?_⟩
  · rintro ⟨input, n, padded, found, body⟩
    have whole := pad_append atFront (l.glyphs ++ rest)
    rw [padded, Lexeme.glyphs, List.append_assoc] at whole
    obtain rfl := List.append_cancel_left whole
    have width : l.body.length = n := by
      rw [body, List.length_take, Nat.min_eq_left found.bounded]
    exact ⟨padded, by rwa [width]⟩
  · rintro ⟨padded, found⟩
    exact ⟨_, _, padded, found, by rw [List.take_left]⟩

/-- A lexeme behind blanks is read if its token fits and its body is recognised. -/
theorem step_of_recognised {atFront : Bool} {stage behind : Stage} {l : Lexeme} {rest : List Glyph}
    (blank : ∀ g ∈ l.padding, g.isBlank = true)
    (noMark : atFront = true → (l.glyphs ++ rest).head? ≠ some Glyph.byteOrderMark)
    (fits : stage.next l.token = some behind)
    (found : Recognised stage.identifiers (l.body ++ rest) l.token l.body.length) :
    step atFront stage (l.glyphs ++ rest) = .lexeme l behind := by
  have other : ∀ g ∈ (l.body ++ rest).head?, g.isBlank = false := by
    intro g head
    obtain ⟨more, cons⟩ := List.head?_eq_some_iff.mp head
    rw [cons] at found
    exact found.notBlank
  rw [Lexeme.glyphs, List.append_assoc] at noMark ⊢
  exact (step_eq_lexeme_iff ..).mpr ⟨fits, _, _, pad_blanks noMark blank other, found, by simp⟩

/-- What ends a reading: a token that does not fit, the end of the input, or nothing that a token starts with. -/
theorem step_ending {atFront : Bool} {stage : Stage} {input : List Glyph} {e : Ending}
    (read : step atFront stage input = .ending e) :
    (∃ t, stage.next t = none ∧ e = .rejected (.token t)) ∨
      (∃ padding, pad atFront input = (padding, []) ∧ e = endingAt stage padding) ∨
      ((pad atFront input).2 ≠ [] ∧ e = .rejected .unrecognised) := by
  unfold step at read
  split at read
  next padding rest padded =>
  rw [padded]
  split at read
  · next t n found =>
    split at read
    · cases read
    · next fits =>
      cases read
      exact Or.inl ⟨t, fits, rfl⟩
  · next n found =>
    cases read
    exact Or.inr (Or.inl ⟨padding, by rw [nil_of_recognise found], rfl⟩)
  · next n found =>
    cases read
    refine Or.inr (Or.inr ⟨?_, rfl⟩)
    rintro rfl
    cases found

/-- Where only padding is left, reading ends. -/
theorem step_of_pad {atFront : Bool} (stage : Stage) {input padding : List Glyph}
    (padded : pad atFront input = (padding, [])) : step atFront stage input = .ending (endingAt stage padding) := by
  simp only [step, padded, recognise]

theorem step_lexeme_append {atFront : Bool} {stage behind : Stage} {input : List Glyph} {l : Lexeme}
    (read : step atFront stage input = .lexeme l behind) :
    0 < l.glyphs.length ∧ ∃ rest, input = l.glyphs ++ rest := by
  obtain ⟨_, rest, n, padded, found, body⟩ := (step_eq_lexeme_iff ..).mp read
  have whole := pad_append atFront input
  rw [padded] at whole
  refine ⟨?_, rest.drop n, ?_⟩
  · have positive := found.positive
    have bounded := found.bounded
    rw [Lexeme.glyphs, body, List.length_append, List.length_take]
    omega
  · rw [← whole, Lexeme.glyphs, body, List.append_assoc, List.take_append_drop]

/-! ## Readings -/

/-- Reading takes one step after the other until one of them ends it. -/
inductive Reads : Bool → Stage → List Glyph → Reading → Prop
  | ending {atFront stage input e} : step atFront stage input = .ending e → Reads atFront stage input ⟨[], e⟩
  | lexeme {atFront stage l behind rest r} : step atFront stage (l.glyphs ++ rest) = .lexeme l behind →
      Reads false behind rest r → Reads atFront stage (l.glyphs ++ rest) (push l r)

private theorem readFrom_zero (atFront : Bool) (stage : Stage) (input : List Glyph) :
    readFrom atFront stage 0 input =
      match step atFront stage input with
      | .lexeme l behind => push l (readFrom false behind 0 (input.drop l.glyphs.length))
      | .ending e => ⟨[], e⟩ := by
  cases input with
  | nil =>
    have padded : pad atFront [] = ([], []) := by simp [pad]
    rw [step_of_pad stage padded, readFrom]
  | cons g rest =>
    rw [readFrom]
    cases read : step atFront stage (g :: rest) with
    | ending e => rfl
    | lexeme l behind =>
      obtain ⟨positive, _⟩ := step_lexeme_append read
      have width : l.glyphs.length = l.glyphs.length - 1 + 1 := by omega
      dsimp only
      rw [readFrom_eq_drop, width, List.drop_succ_cons, Nat.add_sub_cancel]

theorem reads_readFrom (atFront : Bool) (stage : Stage) (input : List Glyph) :
    Reads atFront stage input (readFrom atFront stage 0 input) := by
  induction length : input.length using Nat.strongRecOn generalizing atFront stage input with
  | _ n ih =>
    rw [readFrom_zero]
    cases read : step atFront stage input with
    | ending e => exact .ending read
    | lexeme l behind =>
      obtain ⟨positive, rest, rfl⟩ := step_lexeme_append read
      have shorter : rest.length < n := by rw [← length, List.length_append]; omega
      dsimp only
      rw [List.drop_left]
      exact .lexeme read (ih _ shorter _ _ rest rfl)

theorem reads_iff (atFront : Bool) (stage : Stage) (input : List Glyph) (r : Reading) :
    Reads atFront stage input r ↔ readFrom atFront stage 0 input = r := by
  constructor
  · intro reads
    induction reads with
    | ending read => rw [readFrom_zero, read]
    | lexeme read _ ih =>
      rw [readFrom_zero, read]
      dsimp only
      rw [List.drop_left, ih]
  · rintro rfl
    exact reads_readFrom atFront stage input

theorem reads_ofSource {source : List UInt8} {lexemes : List Lexeme} (cut : (ofSource source).lexemes = lexemes) :
    Reads true .start (Glyph.decode source) ⟨lexemes, (ofSource source).ending⟩ := by
  rw [← cut]
  exact reads_readFrom ..

namespace Reads

/-- The lexemes before a cut lead to the stage behind them, and the rest is read from there. -/
theorem behind {atFront : Bool} {stage : Stage} {input : List Glyph} {r : Reading} {before rest : List Lexeme}
    (reads : Reads atFront stage input r) (cut : r.lexemes = before ++ rest) :
    ∃ reached left, stage.behindAll (before.map Lexeme.token) = some reached ∧
      input = before.flatMap Lexeme.glyphs ++ left ∧
      Reads (atFront && before.isEmpty) reached left ⟨rest, r.ending⟩ := by
  -- Only the first lexeme is read at the front, so behind any lexeme the rest is read away from it.
  induction before generalizing atFront stage input r with
  | nil =>
    obtain ⟨lexemes, ending⟩ := r
    rw [List.nil_append] at cut
    subst cut
    exact ⟨stage, input, rfl, rfl, by simpa using reads⟩
  | cons first before ih =>
    cases reads with
    | ending read => cases cut
    | @lexeme _ _ l behind input r read reads =>
      have cut : l :: r.lexemes = first :: (before ++ rest) := cut
      obtain ⟨rfl, more⟩ := List.cons.inj cut
      obtain ⟨reached, left, run, split, reads⟩ := ih reads more
      have fits := ((step_eq_lexeme_iff ..).mp read).1
      exact ⟨reached, left, by simp [fits, run], by simp [split], by simpa [push] using reads⟩

/-- The first lexeme of a reading is what its first step reads. -/
theorem first {atFront : Bool} {stage : Stage} {input : List Glyph} {l : Lexeme} {more : List Lexeme} {e : Ending}
    (reads : Reads atFront stage input ⟨l :: more, e⟩) :
    ∃ behind rest, input = l.glyphs ++ rest ∧ step atFront stage (l.glyphs ++ rest) = .lexeme l behind ∧
      Reads false behind rest ⟨more, e⟩ := by
  generalize whole : (⟨l :: more, e⟩ : Reading) = r at reads
  cases reads with
  | ending _ => cases whole
  | lexeme read reads =>
    cases whole
    exact ⟨_, _, rfl, read, reads⟩

/-- What it takes for a lexeme to be read: its token fits the stage behind those before it, its padding is passed over,
and its body is recognised. -/
structure Lexed (atFront : Bool) (reached behind : Stage) (l : Lexeme) (rest : List Glyph) : Prop where
  fits : reached.next l.token = some behind
  padded : pad atFront (l.glyphs ++ rest) = (l.padding, l.body ++ rest)
  found : Recognised reached.identifiers (l.body ++ rest) l.token l.body.length

/-- Away from the front of a source, the padding of a lexeme is blanks alone. -/
theorem Lexed.blank {reached behind : Stage} {l : Lexeme} {rest : List Glyph} (lexed : Lexed false reached behind l rest) :
    ∀ g ∈ l.padding, g.isBlank = true := by
  obtain ⟨mark, blanks, same, noMark, blank⟩ := isPadding_pad false (l.glyphs ++ rest)
  obtain rfl : mark = [] := by simpa using noMark
  rw [lexed.padded, List.nil_append] at same
  rwa [← same] at blank

/-- Any lexeme of a reading was read, and what is behind it is read from the stage behind it. -/
theorem lexed {atFront : Bool} {stage : Stage} {input : List Glyph} {before after : List Lexeme} {l : Lexeme}
    {e : Ending} (reads : Reads atFront stage input ⟨before ++ l :: after, e⟩) :
    ∃ reached behind rest, stage.behindAll (before.map Lexeme.token) = some reached ∧
      input = before.flatMap Lexeme.glyphs ++ (l.glyphs ++ rest) ∧
      Lexed (atFront && before.isEmpty) reached behind l rest ∧ Reads false behind rest ⟨after, e⟩ := by
  obtain ⟨reached, left, run, split, later⟩ := reads.behind rfl
  obtain ⟨behind, rest, rfl, read, later⟩ := later.first
  obtain ⟨fits, padded, found⟩ := (step_glyphs_iff ..).mp read
  exact ⟨reached, behind, rest, run, split, ⟨fits, padded, found⟩, later⟩

theorem glyphs_ne_nil {atFront : Bool} {stage : Stage} {input : List Glyph} {r : Reading} (reads : Reads atFront stage input r)
    {l : Lexeme} (member : l ∈ r.lexemes) : l.glyphs ≠ [] := by
  obtain ⟨before, after, cut⟩ := List.append_of_mem member
  obtain ⟨lexemes, e⟩ := r
  obtain rfl : lexemes = before ++ l :: after := cut
  obtain ⟨_, _, _, _, _, lexed, _⟩ := reads.lexed
  have positive := lexed.found.positive
  exact List.append_ne_nil_of_right_ne_nil _ (List.ne_nil_of_length_pos positive)

/-- Lexemes that are recognised before another rest too are read before that, and the other rest is read from the stage
behind them. -/
theorem resumed {atFront : Bool} {stage reached : Stage} {before rest : List Lexeme} {e : Ending} {tail other : List Glyph}
    {r : Reading} (reads : Reads atFront stage (before.flatMap Lexeme.glyphs ++ tail) ⟨before ++ rest, e⟩)
    (keeps : ∀ identifiers front l after, before = front ++ l :: after →
      Recognised identifiers (l.body ++ (after.flatMap Lexeme.glyphs ++ tail)) l.token l.body.length →
      Recognised identifiers (l.body ++ (after.flatMap Lexeme.glyphs ++ other)) l.token l.body.length)
    (run : stage.behindAll (before.map Lexeme.token) = some reached)
    (onward : Reads (atFront && before.isEmpty) reached other r) :
    Reads atFront stage (before.flatMap Lexeme.glyphs ++ other) ⟨before ++ r.lexemes, r.ending⟩ := by
  induction before generalizing atFront stage with
  | nil =>
    obtain rfl : stage = reached := Option.some.inj run
    simpa using onward
  | cons l before ih =>
    obtain ⟨behind, left, split, read, later⟩ := reads.first
    rw [List.flatMap_cons, List.append_assoc] at split ⊢
    obtain rfl := List.append_cancel_left split
    obtain ⟨fits, padded, found⟩ := (step_glyphs_iff ..).mp read
    rw [List.map_cons, Stage.behindAll_cons, fits, Option.bind_some] at run
    have keepsLater : ∀ identifiers front l' after, before = front ++ l' :: after → _ → _ :=
      fun identifiers front l' after cut => keeps identifiers (l :: front) l' after (by rw [cut, List.cons_append])
    have further := ih later keepsLater run (by simpa using onward)
    refine .lexeme ((step_glyphs_iff ..).mpr ⟨fits, ?_, keeps _ [] l before rfl found⟩) further
    obtain ⟨g, body, starts⟩ := List.exists_cons_of_length_pos found.positive
    rw [Lexeme.glyphs, starts, List.append_assoc, List.cons_append] at padded ⊢
    exact pad_of_pad padded _

end Reads

end Reading

end DocComment
