import Mathlib.Tactic.SplitIfs
import DocComment.Proofs.TokenPattern

/-!
# Recognition: a lexeme is the longest match of its pattern

The automata accept what the patterns of the tokens match, words without U+0000 provided. So the token at the
front of an input is told by the first glyph, and its lexeme is the longest prefix that its own pattern
matches (`Recognised.first`, `Recognised.longest`).
-/

namespace DocComment

namespace GlyphPattern

theorem matches_starred_cons (g : Glyph) (w : List Glyph) (q : GlyphPattern) :
    (inTurn starred q).Matches (g :: w) ↔
      GlyphClass.groupStart.contains g = true ∧
        (inTurn (many (one .textRest)) (inTurn (one (.only '*')) (inTurn (many (one (.only '*'))) q))).Matches w := by
  have regroup (u : List Glyph) :
      (inTurn (inTurn (many (one .textRest)) (onceOrMore (one (.only '*')))) q).Matches u ↔
        (inTurn (many (one .textRest)) (inTurn (one (.only '*')) (inTurn (many (one (.only '*'))) q))).Matches u := by
    rw [matches_inTurn_assoc]
    constructor
    · rintro ⟨x, y, rfl, hx, hy⟩
      exact ⟨x, y, rfl, hx, (matches_inTurn_assoc ..).mp hy⟩
    · rintro ⟨x, y, rfl, hx, hy⟩
      exact ⟨x, y, rfl, hx, (matches_inTurn_assoc ..).mpr hy⟩
  unfold starred
  rw [matches_inTurn_assoc, matches_one_inTurn_cons, regroup]

theorem matches_manyStarred_cons (g : Glyph) (w : List Glyph) :
    (many starred).Matches (g :: w) ↔ (inTurn starred (many starred)).Matches (g :: w) := by
  rw [matches_many_cons, matches_inTurn_cons]
  have notEmpty : ¬ starred.Matches [] := by
    rintro ⟨u, v, split, ⟨a, rfl, _⟩, _⟩
    simp at split
  simp [notEmpty]

end GlyphPattern

namespace Automaton

open GlyphPattern

/-- An automaton takes what is told for each of its states, if that is right at the end of a word and stays
right over each glyph that may come. -/
theorem acceptsFrom_iff (m : Automaton) (left : m.State → GlyphPattern) {allowed : Glyph → Prop}
    (final : ∀ q, m.final q = true ↔ (left q).Matches [])
    (next : ∀ q g w, allowed g →
      ((left q).Matches (g :: w) ↔ ∃ behind, m.next q g = some behind ∧ (left behind).Matches w))
    (q : m.State) (w : List Glyph) (each : ∀ g ∈ w, allowed g) :
    m.acceptsFrom q w = true ↔ (left q).Matches w := by
  induction w generalizing q with
  | nil => exact final q
  | cons g w ih =>
    have tail : ∀ g ∈ w, allowed g := fun a member => each a (by simp [member])
    rw [next q g w (each g (by simp)), acceptsFrom]
    cases step : m.next q g with
    | none => simp
    | some behind => simp [ih behind tail]

/-! ## Text -/

/-- The pattern of what is left of a text. A stretch that has to end in stars may be the one that the text is
in, or the next. -/
def textLeft : TextState → GlyphPattern
  | .start => .text
  | .lead => .inTurn (.many (.one .textRest)) (.many .starred)
  | .body =>
    .either (.inTurn (.many (.one .textRest)) (.many .starred))
      (.inTurn (.many (.one .textRest))
        (.inTurn (.one (.only '*')) (.inTurn (.many (.one (.only '*'))) (.many .starred))))
  | .stars => .inTurn (.many (.one (.only '*'))) (.many .starred)
  | .again =>
    .inTurn (.many (.one .textRest))
      (.inTurn (.one (.only '*')) (.inTurn (.many (.one (.only '*'))) (.many .starred)))

private theorem textLeft_lead_cons (g : Glyph) (w : List Glyph) :
    (textLeft .lead).Matches (g :: w) ↔
      (GlyphClass.textRest.contains g = true ∧ (textLeft .lead).Matches w) ∨
        (GlyphClass.groupStart.contains g = true ∧ (textLeft .again).Matches w) := by
  unfold textLeft
  rw [matches_manyOne_inTurn_cons, matches_manyStarred_cons, matches_starred_cons]

private theorem textLeft_again_cons (g : Glyph) (w : List Glyph) :
    (textLeft .again).Matches (g :: w) ↔
      (GlyphClass.textRest.contains g = true ∧ (textLeft .again).Matches w) ∨
        (g = .scalar '*' ∧ (textLeft .stars).Matches w) := by
  unfold textLeft
  rw [matches_manyOne_inTurn_cons, matches_one_inTurn_cons, GlyphClass.contains_only, beq_iff_eq]

private theorem textLeft_stars_cons (g : Glyph) (w : List Glyph) :
    (textLeft .stars).Matches (g :: w) ↔
      (g = .scalar '*' ∧ (textLeft .stars).Matches w) ∨
        (GlyphClass.groupStart.contains g = true ∧ (textLeft .again).Matches w) := by
  unfold textLeft
  rw [matches_manyOne_inTurn_cons, matches_manyStarred_cons, matches_starred_cons, GlyphClass.contains_only,
    beq_iff_eq]

private theorem textLeft_body (w : List Glyph) :
    (textLeft .body).Matches w ↔ (textLeft .lead).Matches w ∨ (textLeft .again).Matches w := Iff.rfl

private theorem text_final (q : TextState) : text.final q = true ↔ (textLeft q).Matches [] := by
  cases q <;> simp [text, textLeft, GlyphPattern.text]

private theorem breaksText_slash : breaksText (.scalar '/') = false := by decide

private theorem breaksText_star : breaksText (.scalar '*') = false := by decide

private theorem glyph_in_text (g : Glyph) :
    (breaksText g = true ∧ g ≠ .scalar '*' ∧ g ≠ .scalar '/') ∨ g = .scalar '*' ∨ g = .scalar '/' ∨
      (breaksText g = false ∧ g ≠ .scalar '*' ∧ g ≠ .scalar '/') := by
  by_cases star : g = .scalar '*'
  · exact Or.inr (Or.inl star)
  · by_cases slash : g = .scalar '/'
    · exact Or.inr (Or.inr (Or.inl slash))
    · cases breaks : breaksText g
      · exact Or.inr (Or.inr (Or.inr ⟨rfl, star, slash⟩))
      · exact Or.inl ⟨rfl, star, slash⟩

private theorem text_next (q : TextState) (g : Glyph) (w : List Glyph) (notNull : g.isNull = false) :
    (textLeft q).Matches (g :: w) ↔ ∃ behind, text.next q g = some behind ∧ (textLeft behind).Matches w := by
  have rest := GlyphClass.contains_textRest notNull
  have group := GlyphClass.contains_groupStart notNull
  cases q with
  | start =>
    have first : (textLeft .start).Matches (g :: w) ↔ startsText g = true ∧ (textLeft .lead).Matches w := by
      rw [← GlyphClass.contains_textStart notNull]
      exact matches_one_inTurn_cons ..
    rw [first]
    by_cases starts : startsText g <;> simp [text, starts]
  | lead =>
    rw [textLeft_lead_cons, rest, group]
    rcases glyph_in_text g with ⟨breaks, star, slash⟩ | rfl | rfl | ⟨breaks, star, slash⟩
    · simp [text, breaks]
    · simp [text]
    · simp [text, breaksText_slash]
    · simp [text, breaks, star, slash, textLeft_body]
  | body =>
    rw [textLeft_body, textLeft_lead_cons, textLeft_again_cons, rest, group]
    rcases glyph_in_text g with ⟨breaks, star, slash⟩ | rfl | rfl | ⟨breaks, star, slash⟩
    · simp [text, breaks, star]
    · simp [text, breaksText_star]
    · simp [text, breaksText_slash, textLeft_body]
    · simp [text, breaks, star, slash, textLeft_body]
  | stars =>
    rw [textLeft_stars_cons, group]
    rcases glyph_in_text g with ⟨breaks, star, slash⟩ | rfl | rfl | ⟨breaks, star, slash⟩
    · simp [text, breaks, star]
    · simp [text, breaksText_star]
    · simp [text]
    · simp [text, breaks, star, slash]
  | again =>
    rw [textLeft_again_cons, rest]
    rcases glyph_in_text g with ⟨breaks, star, slash⟩ | rfl | rfl | ⟨breaks, star, slash⟩
    · simp [text, breaks, star]
    · simp [text, breaksText_star]
    · simp [text, breaksText_slash]
    · simp [text, breaks, star]

theorem text_accepts_iff (w : List Glyph) (notNull : ∀ g ∈ w, g.isNull = false) :
    text.accepts w = true ↔ GlyphPattern.text.Matches w :=
  acceptsFrom_iff text textLeft text_final text_next .start w notNull

/-! ## Names, identifiers and braces -/

/-- The pattern of what is left of a tag name. -/
def tagNameLeft : TagNameState → GlyphPattern
  | .start => .tagName
  | .sign => .onceOrMore (.one .letter)
  | .name => .many (.one .letter)

private theorem tagName_next (q : TagNameState) (g : Glyph) (w : List Glyph) :
    (tagNameLeft q).Matches (g :: w) ↔
      ∃ behind, tagName.next q g = some behind ∧ (tagNameLeft behind).Matches w := by
  cases q with
  | start =>
    have first : (tagNameLeft .start).Matches (g :: w) ↔ g = .scalar '@' ∧ (tagNameLeft .sign).Matches w := by
      rw [← beq_iff_eq, ← GlyphClass.contains_only]
      exact matches_one_inTurn_cons ..
    rw [first]
    by_cases sign : g = .scalar '@' <;> simp [tagName, sign]
  | sign =>
    have first : (tagNameLeft .sign).Matches (g :: w) ↔ g.isLetter = true ∧ (tagNameLeft .name).Matches w := by
      rw [← GlyphClass.contains_letter]
      exact matches_one_inTurn_cons ..
    rw [first]
    by_cases letter : g.isLetter <;> simp [tagName, letter]
  | name =>
    have more : (tagNameLeft .name).Matches (g :: w) ↔ g.isLetter = true ∧ (tagNameLeft .name).Matches w := by
      rw [← GlyphClass.contains_letter]
      exact matches_manyOne_cons ..
    rw [more]
    by_cases letter : g.isLetter <;> simp [tagName, letter]

theorem tagName_accepts_iff (w : List Glyph) : tagName.accepts w = true ↔ GlyphPattern.tagName.Matches w := by
  refine acceptsFrom_iff tagName tagNameLeft ?_ (fun q g w _ => tagName_next q g w) .start w fun _ _ => trivial
  intro q
  cases q <;> simp [tagName, tagNameLeft, GlyphPattern.tagName, onceOrMore]

/-- The pattern of what is left of an identifier. -/
def identifierLeft : IdentifierState → GlyphPattern
  | .start => .identifier
  | .inside => .many (.one .identifierRest)

private theorem identifier_next (q : IdentifierState) (g : Glyph) (w : List Glyph) :
    (identifierLeft q).Matches (g :: w) ↔
      ∃ behind, identifier.next q g = some behind ∧ (identifierLeft behind).Matches w := by
  cases q with
  | start =>
    have first : (identifierLeft .start).Matches (g :: w) ↔
        g.startsIdentifier = true ∧ (identifierLeft .inside).Matches w := by
      rw [← GlyphClass.contains_identifierStart]
      exact matches_one_inTurn_cons ..
    rw [first]
    by_cases starts : g.startsIdentifier <;> simp [identifier, starts]
  | inside =>
    have more : (identifierLeft .inside).Matches (g :: w) ↔
        g.continuesIdentifier = true ∧ (identifierLeft .inside).Matches w := by
      rw [← GlyphClass.contains_identifierRest]
      exact matches_manyOne_cons ..
    rw [more]
    by_cases continues : g.continuesIdentifier <;> simp [identifier, continues]

theorem identifier_accepts_iff (w : List Glyph) :
    identifier.accepts w = true ↔ GlyphPattern.identifier.Matches w := by
  refine acceptsFrom_iff identifier identifierLeft ?_ (fun q g w _ => identifier_next q g w) .start w fun _ _ => trivial
  intro q
  cases q <;> simp [identifier, identifierLeft, GlyphPattern.identifier]

/-- The pattern of what is left of a brace. -/
def braceLeft : BraceState → GlyphPattern
  | .start => .brace
  | .opened => .inTurn (.onceOrMore (.one .enclosed)) (.optional (.one (.only '\x7d')))
  | .inside => .inTurn (.many (.one .enclosed)) (.optional (.one (.only '\x7d')))
  | .closed => .nothing

private theorem brace_next (q : BraceState) (g : Glyph) (w : List Glyph) (notNull : g.isNull = false) :
    (braceLeft q).Matches (g :: w) ↔ ∃ behind, brace.next q g = some behind ∧ (braceLeft behind).Matches w := by
  have inner := GlyphClass.contains_enclosed notNull
  cases q with
  | start =>
    have first : (braceLeft .start).Matches (g :: w) ↔ g = .scalar '\x7b' ∧ (braceLeft .opened).Matches w := by
      rw [← beq_iff_eq, ← GlyphClass.contains_only]
      exact matches_one_inTurn_cons ..
    rw [first]
    by_cases opens : g = .scalar '\x7b' <;> simp [brace, opens]
  | opened =>
    have first : (braceLeft .opened).Matches (g :: w) ↔ isEnclosed g = true ∧ (braceLeft .inside).Matches w := by
      rw [← inner]
      exact (matches_inTurn_assoc ..).trans (matches_one_inTurn_cons ..)
    rw [first]
    by_cases enclosed : isEnclosed g <;> simp [brace, enclosed]
  | inside =>
    have more : (braceLeft .inside).Matches (g :: w) ↔
        (isEnclosed g = true ∧ (braceLeft .inside).Matches w) ∨ (g = .scalar '\x7d' ∧ w = []) := by
      rw [← inner]
      refine (matches_manyOne_inTurn_cons ..).trans (or_congr_right ?_)
      simp [GlyphPattern.optional, Matches, GlyphClass.contains_only, and_comm]
    rw [more]
    by_cases closes : g = .scalar '\x7d'
    · subst closes
      have enclosed : isEnclosed (.scalar '\x7d') = false := by decide
      simp [brace, enclosed, braceLeft, Matches]
    · by_cases enclosed : isEnclosed g <;> simp [brace, enclosed, closes]
  | closed => simp [brace, braceLeft, Matches]

theorem brace_accepts_iff (w : List Glyph) (notNull : ∀ g ∈ w, g.isNull = false) :
    brace.accepts w = true ↔ GlyphPattern.brace.Matches w := by
  refine acceptsFrom_iff brace braceLeft ?_ brace_next .start w notNull
  intro q
  cases q <;> simp [brace, braceLeft, GlyphPattern.brace, onceOrMore, GlyphPattern.optional]

/-! ## The longest match -/

theorem positive_of_longest {m : Automaton} (never : m.final m.start = false) {input : List Glyph} {n : Nat}
    (found : m.longest input = some n) : 0 < n := by
  obtain ⟨_, accepted, _⟩ := (m.longest_eq_some_iff input n).mp found
  cases n with
  | zero => exact absurd (accepted.symm.trans never) (by decide)
  | succ n => exact Nat.succ_pos n

/-- The longest prefix that an automaton accepts is the longest match of the pattern it stands for. -/
theorem isLongest_of_longest {m : Automaton} {p : GlyphPattern}
    {input : List Glyph} (same : ∀ w, w <+: input → (m.accepts w = true ↔ p.Matches w)) {n : Nat}
    (found : m.longest input = some n) : p.IsLongest input (input.take n) := by
  obtain ⟨bound, accepted, noLonger⟩ := (m.longest_eq_some_iff input n).mp found
  refine ⟨List.take_prefix n input, (same _ (List.take_prefix n input)).mp accepted, ?_⟩
  intro longer front isMatch
  have cut : longer = input.take longer.length := List.prefix_iff_eq_take.mp front
  rw [List.length_take, Nat.min_eq_left bound]
  refine Nat.le_of_not_lt fun beyond => ?_
  have rejected := noLonger longer.length beyond front.length_le
  rw [← cut] at rejected
  have accepted := (same longer front).mpr isMatch
  exact absurd (accepted.symm.trans rejected) (by decide)

end Automaton

/-- A mark alone is the longest match of itself. -/
theorem GlyphPattern.isLongest_mark (c : Char) (rest : List Glyph) :
    (literal [c]).IsLongest (.scalar c :: rest) ((Glyph.scalar c :: rest).take 1) := by
  refine ⟨List.take_prefix .., (matches_literal ..).mpr rfl, ?_⟩
  intro longer _ isMatch
  rw [(matches_literal ..).mp isMatch]
  simp

namespace TagClass

theorem listed_accepted (c : TagClass) :
    ∀ name ∈ c.names, Automaton.tagName.accepts (Glyph.spell name) = true := by
  cases c <;> decide +kernel

theorem lists_iff (c : TagClass) (name : List Glyph) :
    c.lists name = true ↔ ∃ listed ∈ c.names, Glyph.spell listed = name := by
  simp [lists]

/-- The class of a name lists it, or is the plain one. -/
theorem lists_ofName (name : List Glyph) (listed : ofName name ≠ .plain) : (ofName name).lists name = true := by
  unfold ofName at listed ⊢
  split_ifs at listed ⊢ with single multiple block
  · exact single
  · exact multiple
  · exact block
  · exact absurd rfl listed

theorem matches_pattern_iff (c : TagClass) (name : List Glyph) (listed : c ≠ .plain) :
    (Token.tagName c).pattern.Matches name ↔ c.lists name = true := by
  have own : (Token.tagName c).pattern = .oneOf (c.names.map fun name => .literal name.toList) := by
    cases c with
    | plain => exact absurd rfl listed
    | _ => rfl
  rw [own, GlyphPattern.matches_oneOf, lists_iff]
  constructor
  · rintro ⟨_, mapped, isMatch⟩
    obtain ⟨listed, member, rfl⟩ := List.mem_map.mp mapped
    exact ⟨listed, member, ((GlyphPattern.matches_literal ..).mp isMatch).symm⟩
  · rintro ⟨listed, member, rfl⟩
    exact ⟨_, List.mem_map.mpr ⟨listed, member, rfl⟩, (GlyphPattern.matches_literal ..).mpr rfl⟩

/-- A name matches the pattern of its class. -/
theorem matches_ofName {name : List Glyph} (isMatch : GlyphPattern.tagName.Matches name) :
    (Token.tagName (ofName name)).pattern.Matches name := by
  by_cases listed : ofName name = .plain
  · rw [listed]
    exact isMatch
  · exact (matches_pattern_iff _ name listed).mpr (lists_ofName name listed)

/-- What the pattern of a class matches, the pattern of all names matches too. -/
theorem matches_tagName (c : TagClass) {name : List Glyph} (isMatch : (Token.tagName c).pattern.Matches name) :
    GlyphPattern.tagName.Matches name := by
  by_cases listed : c = .plain
  · subst listed
    exact isMatch
  · obtain ⟨text, member, rfl⟩ := (c.lists_iff name).mp ((c.matches_pattern_iff name listed).mp isMatch)
    exact (Automaton.tagName_accepts_iff _).mp (listed_accepted c text member)

end TagClass

/-! ## The token at the front of an input -/

/-- What stands at the front of an input: the first glyph tells the token, and the longest match of its
automaton the length. -/
inductive Recognised (identifiers : Bool) : List Glyph → Token → Nat → Prop
  | slash {rest} : Recognised identifiers (.scalar '/' :: rest) .slash 1
  | star {rest} : Recognised identifiers (.scalar '*' :: rest) .star 1
  | tagName {rest n} : Automaton.tagName.longest (.scalar '@' :: rest) = some n →
      Recognised identifiers (.scalar '@' :: rest)
        (.tagName (TagClass.ofName ((Glyph.scalar '@' :: rest).take n))) n
  | brace {rest n} : Automaton.brace.longest (.scalar '\x7b' :: rest) = some n →
      Recognised identifiers (.scalar '\x7b' :: rest) .brace n
  | identifier {g rest n} : identifiers = true → g.startsIdentifier = true →
      Automaton.identifier.longest (g :: rest) = some n → Recognised identifiers (g :: rest) .identifier n
  | text {g rest n} : g ≠ .scalar '/' → g ≠ .scalar '*' → g ≠ .scalar '@' → g ≠ .scalar '\x7b' →
      ¬ (identifiers = true ∧ g.startsIdentifier = true) →
      Automaton.text.longest (g :: rest) = some n → Recognised identifiers (g :: rest) .text n

private theorem marks_start_nothing :
    (Glyph.scalar '/').startsIdentifier = false ∧ (Glyph.scalar '*').startsIdentifier = false ∧
      (Glyph.scalar '@').startsIdentifier = false ∧ (Glyph.scalar '\x7b').startsIdentifier = false := by decide

private theorem starts_not_mark {g : Glyph} (starts : g.startsIdentifier = true) :
    g ≠ .scalar '/' ∧ g ≠ .scalar '*' ∧ g ≠ .scalar '@' ∧ g ≠ .scalar '\x7b' := by
  refine ⟨?_, ?_, ?_, ?_⟩ <;> rintro rfl <;> simp [marks_start_nothing] at starts

theorem recognised_iff (identifiers : Bool) (input : List Glyph) (t : Token) (n : Nat) :
    recognise identifiers input = (.token t, n) ↔ Recognised identifiers input t n := by
  constructor
  · intro found
    cases input with
    | nil => simp [recognise] at found
    | cons g rest =>
      simp only [recognise] at found
      split_ifs at found with slash star sign opens starts
      · subst slash
        obtain ⟨⟨rfl⟩, rfl⟩ := Prod.mk.inj found
        exact .slash
      · subst star
        obtain ⟨⟨rfl⟩, rfl⟩ := Prod.mk.inj found
        exact .star
      · subst sign
        cases longest : Automaton.tagName.longest (.scalar '@' :: rest) with
        | none => simp [longest] at found
        | some k =>
          rw [longest] at found
          obtain ⟨⟨rfl⟩, rfl⟩ := Prod.mk.inj found
          exact .tagName longest
      · subst opens
        cases longest : Automaton.brace.longest (.scalar '\x7b' :: rest) with
        | none => simp [longest] at found
        | some k =>
          rw [longest] at found
          obtain ⟨⟨rfl⟩, rfl⟩ := Prod.mk.inj found
          exact .brace longest
      · obtain ⟨looked, starts⟩ := Bool.and_eq_true_iff.mp starts
        cases longest : Automaton.identifier.longest (g :: rest) with
        | none => simp [longest] at found
        | some k =>
          rw [longest] at found
          obtain ⟨⟨rfl⟩, rfl⟩ := Prod.mk.inj found
          exact .identifier looked starts longest
      · cases longest : Automaton.text.longest (g :: rest) with
        | none => simp [longest] at found
        | some k =>
          rw [longest] at found
          obtain ⟨⟨rfl⟩, rfl⟩ := Prod.mk.inj found
          exact .text slash star sign opens (by simpa using starts) longest
  · intro found
    cases found with
    | slash => rfl
    | star => rfl
    | tagName longest => simp [recognise, longest]
    | brace longest => simp [recognise, longest]
    | @identifier g rest n looked starts longest =>
      obtain ⟨slash, star, sign, opens⟩ := starts_not_mark starts
      simp [recognise, slash, star, sign, opens, looked, starts, longest]
    | @text g rest n slash star sign opens other longest =>
      have other : ¬ (identifiers && g.startsIdentifier) = true := by simpa using other
      simp [recognise, slash, star, sign, opens, other, longest]

/-- Only where nothing is left, the end of the input is found. -/
theorem nil_of_recognise {identifiers : Bool} {input : List Glyph} {n : Nat}
    (found : recognise identifiers input = (.endOfInput, n)) : input = [] := by
  cases input with
  | nil => rfl
  | cons g rest =>
    simp only [recognise] at found
    split_ifs at found
    all_goals first | cases found | split at found <;> cases found

namespace Recognised
variable {identifiers : Bool} {input : List Glyph} {t : Token} {n : Nat}

/-- The lexeme is the longest prefix that the pattern of its own token matches. -/
theorem longest (found : Recognised identifiers input t n) (notNull : ∀ g ∈ input, g.isNull = false) :
    t.pattern.IsLongest input (input.take n) := by
  have clean {w : List Glyph} (front : w <+: input) : ∀ g ∈ w, g.isNull = false :=
    fun g member => notNull g (front.subset member)
  cases found with
  | slash => exact GlyphPattern.isLongest_mark '/' _
  | star => exact GlyphPattern.isLongest_mark '*' _
  | tagName found =>
    have plain := Automaton.isLongest_of_longest (fun w _ => Automaton.tagName_accepts_iff w) found
    exact ⟨plain.isPrefix, TagClass.matches_ofName plain.isMatch,
      fun longer front isMatch => plain.noLonger longer front (TagClass.matches_tagName _ isMatch)⟩
  | brace found =>
    exact Automaton.isLongest_of_longest (fun w front => Automaton.brace_accepts_iff w (clean front)) found
  | identifier _ _ found => exact Automaton.isLongest_of_longest (fun w _ => Automaton.identifier_accepts_iff w) found
  | text _ _ _ _ _ found =>
    exact Automaton.isLongest_of_longest (fun w front => Automaton.text_accepts_iff w (clean front)) found

/-- A lexeme holds a glyph at least. -/
theorem positive (found : Recognised identifiers input t n) : 0 < n := by
  cases found with
  | slash => exact Nat.one_pos
  | star => exact Nat.one_pos
  | tagName found => exact Automaton.positive_of_longest rfl found
  | brace found => exact Automaton.positive_of_longest rfl found
  | identifier _ _ found => exact Automaton.positive_of_longest rfl found
  | text _ _ _ _ _ found => exact Automaton.positive_of_longest rfl found

/-- A lexeme is not longer than the input. -/
theorem bounded (found : Recognised identifiers input t n) : n ≤ input.length := by
  cases found with
  | slash => simp
  | star => simp
  | tagName found => exact ((Automaton.longest_eq_some_iff ..).mp found).1
  | brace found => exact ((Automaton.longest_eq_some_iff ..).mp found).1
  | identifier _ _ found => exact ((Automaton.longest_eq_some_iff ..).mp found).1
  | text _ _ _ _ _ found => exact ((Automaton.longest_eq_some_iff ..).mp found).1

/-- A lexeme is recognised before another rest as well, if it is the longest match of the automaton of its token there. -/
theorem replaced {word rest other : List Glyph} (found : Recognised identifiers (word ++ rest) t word.length)
    (tagName : t.isTagName = true → Automaton.tagName.longest (word ++ rest) = some word.length →
      Automaton.tagName.longest (word ++ other) = some word.length)
    (brace : t = .brace → Automaton.brace.longest (word ++ rest) = some word.length →
      Automaton.brace.longest (word ++ other) = some word.length)
    (identifier : t = .identifier → Automaton.identifier.longest (word ++ rest) = some word.length →
      Automaton.identifier.longest (word ++ other) = some word.length)
    (text : t = .text → Automaton.text.longest (word ++ rest) = some word.length →
      Automaton.text.longest (word ++ other) = some word.length) :
    Recognised identifiers (word ++ other) t word.length := by
  obtain ⟨g, body, rfl⟩ := List.exists_cons_of_length_pos found.positive
  rw [List.cons_append] at found ⊢
  generalize width : (g :: body).length = n at found ⊢
  cases found with
  | slash => exact .slash
  | star => exact .star
  | tagName longest =>
    subst width
    have name (rest : List Glyph) :
        (Glyph.scalar '@' :: (body ++ rest)).take (Glyph.scalar '@' :: body).length = .scalar '@' :: body := by
      rw [← List.cons_append, List.take_left]
    rw [(name rest).trans (name other).symm]
    exact .tagName (tagName rfl longest)
  | brace longest =>
    subst width
    exact .brace (brace rfl longest)
  | identifier looked starts longest =>
    subst width
    exact .identifier looked starts (identifier rfl longest)
  | text slash star sign opens other longest =>
    subst width
    exact .text slash star sign opens other (text rfl longest)

/-- The first glyph tells the token; a letter or a dollar sign starts an identifier where these are looked
for, and a text elsewhere. -/
theorem first (found : Recognised identifiers input t n) :
    ∃ g rest, input = g :: rest ∧ (t = .slash ↔ g = .scalar '/') ∧ (t = .star ↔ g = .scalar '*') ∧
      (t.isTagName = true ↔ g = .scalar '@') ∧ (t = .brace ↔ g = .scalar '\x7b') ∧
      (t = .identifier ↔ identifiers = true ∧ g.startsIdentifier = true) := by
  cases found with
  | slash => exact ⟨_, _, rfl, by simp, by simp, by simp [Token.isTagName], by simp, by simp [marks_start_nothing]⟩
  | star => exact ⟨_, _, rfl, by simp, by simp, by simp [Token.isTagName], by simp, by simp [marks_start_nothing]⟩
  | tagName => exact ⟨_, _, rfl, by simp, by simp, by simp [Token.isTagName], by simp, by simp [marks_start_nothing]⟩
  | brace => exact ⟨_, _, rfl, by simp, by simp, by simp [Token.isTagName], by simp, by simp [marks_start_nothing]⟩
  | identifier looked starts =>
    obtain ⟨slash, star, sign, opens⟩ := starts_not_mark starts
    exact ⟨_, _, rfl, by simp [slash], by simp [star], by simp [Token.isTagName, sign], by simp [opens],
      by simp [looked, starts]⟩
  | text slash star sign opens other =>
    exact ⟨_, _, rfl, by simp [slash], by simp [star], by simp [Token.isTagName, sign], by simp [opens],
      by simpa using other⟩

/-- A lexeme does not start with a blank. -/
theorem notBlank {g : Glyph} {rest : List Glyph} (found : Recognised identifiers (g :: rest) t n) :
    g.isBlank = false := by
  cases found with
  | slash => rfl
  | star => rfl
  | tagName _ => rfl
  | brace _ => rfl
  | identifier _ starts _ =>
    cases g with
    | stray b => rfl
    | scalar c =>
      have starts : GlyphClass.identifierStart.contains (.scalar c) = true := by
        rwa [GlyphClass.contains_identifierStart]
      rw [← GlyphClass.contains_blank]
      simp [GlyphClass.identifierStart, GlyphClass.blank, GlyphClass.contains] at starts ⊢
      omega
  | text _ _ _ _ _ longest =>
    by_cases starts : Automaton.startsText g
    · simp only [Automaton.startsText, Bool.not_eq_true', Bool.or_eq_false_iff] at starts
      exact starts.1.1.1
    · simp [Automaton.longest, Automaton.longestFrom, Automaton.text, starts] at longest

end Recognised

end DocComment
