import DocComment.Token.Basic

/-!
# Patterns and the words they match

A pattern is a regular expression over glyphs. What it matches is said by its form alone, without an
automaton: parts in turn match a word that falls into what each of them matches.
-/

namespace DocComment

/-! ## Classes of glyphs -/

/-- A class of glyphs: the characters in some ranges, or all glyphs but these. -/
structure GlyphClass where
  negated : Bool
  ranges : List (Char × Char)
  deriving DecidableEq

namespace GlyphClass

/-- Whether a class holds a glyph. A stray byte is in no range. -/
def contains (k : GlyphClass) : Glyph → Bool
  | .scalar c => (k.ranges.any fun r => r.1.toNat ≤ c.toNat && c.toNat ≤ r.2.toNat) != k.negated
  | .stray _ => k.negated

/-- The class of one character. -/
def only (c : Char) : GlyphClass := ⟨false, [(c, c)]⟩

/-- The letters of a tag name, `[a-zA-Z_]`. -/
def letter : GlyphClass := ⟨false, [('a', 'z'), ('A', 'Z'), ('_', '_')]⟩

/-- What an identifier starts with, `[a-zA-Z_$]`. -/
def identifierStart : GlyphClass := ⟨false, [('a', 'z'), ('A', 'Z'), ('_', '_'), ('$', '$')]⟩

/-- What an identifier goes on with, `[a-zA-Z_$0-9]`. -/
def identifierRest : GlyphClass := ⟨false, [('a', 'z'), ('A', 'Z'), ('_', '_'), ('$', '$'), ('0', '9')]⟩

/-- What a text starts with, `[^*{}@\s]`. -/
def textStart : GlyphClass := ⟨true, [('*', '*'), ('{', '{'), ('}', '}'), ('@', '@'), ('\t', '\r'), (' ', ' ')]⟩

/-- What a stretch of text holds, `[^*{}\n]`. -/
def textRest : GlyphClass := ⟨true, [('*', '*'), ('{', '{'), ('}', '}'), ('\n', '\n')]⟩

/-- What a stretch that ends in stars starts with, `[^*/{}\n]`. -/
def groupStart : GlyphClass := ⟨true, [('*', '*'), ('/', '/'), ('{', '{'), ('}', '}'), ('\n', '\n')]⟩

/-- What a brace encloses, `[^@}]`. -/
def enclosed : GlyphClass := ⟨true, [('@', '@'), ('}', '}')]⟩

/-- White space, `\s`. -/
def blank : GlyphClass := ⟨false, [('\t', '\r'), (' ', ' ')]⟩

/-! The classes hold what the tests of the automata let through. A class that is told by what it leaves out
holds U+0000 as well, which no automaton takes. -/

open Automaton

private theorem beq_scalar (c d : Char) : (Glyph.scalar c == Glyph.scalar d) = (c.toNat == d.toNat) := by
  have same : c.toNat = d.toNat ↔ c = d := Char.toNat_inj
  rw [Bool.eq_iff_iff]
  simp [same]

private theorem eq_iff_toNat (c d : Char) : c = d ↔ c.toNat = d.toNat := Char.toNat_inj.symm

private theorem le_iff_toNat (c d : Char) : c ≤ d ↔ c.toNat ≤ d.toNat := Iff.rfl

theorem contains_only (c : Char) (g : Glyph) : (only c).contains g = (g == .scalar c) := by
  cases g with
  | scalar d =>
    rw [beq_scalar, Bool.eq_iff_iff]
    simp [only, contains]
    omega
  | stray b => simp [only, contains]

theorem contains_letter (g : Glyph) : letter.contains g = g.isLetter := by
  cases g with
  | scalar c =>
    rw [Bool.eq_iff_iff]
    simp [letter, contains, Glyph.isLetter, Glyph.satisfies, le_iff_toNat, eq_iff_toNat]
    omega
  | stray b => rfl

theorem contains_identifierStart (g : Glyph) : identifierStart.contains g = g.startsIdentifier := by
  cases g with
  | scalar c =>
    rw [Bool.eq_iff_iff]
    simp [identifierStart, contains, Glyph.startsIdentifier, Glyph.isLetter, Glyph.satisfies, le_iff_toNat,
      eq_iff_toNat]
    omega
  | stray b => rfl

theorem contains_identifierRest (g : Glyph) : identifierRest.contains g = g.continuesIdentifier := by
  cases g with
  | scalar c =>
    rw [Bool.eq_iff_iff]
    simp [identifierRest, contains, Glyph.continuesIdentifier, Glyph.startsIdentifier, Glyph.isLetter,
      Glyph.satisfies, le_iff_toNat, eq_iff_toNat]
    omega
  | stray b => rfl

theorem contains_textStart {g : Glyph} (notNull : g.isNull = false) : textStart.contains g = startsText g := by
  cases g with
  | scalar c =>
    rw [Bool.eq_iff_iff]
    simp [textStart, contains, startsText, breaksText, Glyph.isBlank, Glyph.satisfies, notNull, eq_iff_toNat]
    omega
  | stray b => rfl

theorem contains_textRest {g : Glyph} (notNull : g.isNull = false) :
    textRest.contains g = !(breaksText g || g == .scalar '*') := by
  cases g with
  | scalar c =>
    rw [Bool.eq_iff_iff]
    simp [textRest, contains, breaksText, notNull, eq_iff_toNat]
    omega
  | stray b => rfl

theorem contains_groupStart {g : Glyph} (notNull : g.isNull = false) :
    groupStart.contains g = !(breaksText g || g == .scalar '*' || g == .scalar '/') := by
  cases g with
  | scalar c =>
    rw [Bool.eq_iff_iff]
    simp [groupStart, contains, breaksText, notNull, eq_iff_toNat]
    omega
  | stray b => rfl

theorem contains_enclosed_iff (g : Glyph) : enclosed.contains g = true ↔ g ≠ .scalar '@' ∧ g ≠ .scalar '\x7d' := by
  cases g with
  | scalar c =>
    simp only [contains, enclosed, Char.isValue, List.any_cons, Char.reduceToNat, List.any_nil, Bool.or_false,
      Bool.bne_true, Bool.not_or, Bool.not_and, Bool.and_eq_true, Bool.or_eq_true, Bool.not_eq_eq_eq_not, Bool.not_true,
      decide_eq_false_iff_not, Nat.not_le, ne_eq, Glyph.scalar.injEq, eq_iff_toNat]
    omega
  | stray b => exact ⟨fun _ => ⟨nofun, nofun⟩, fun _ => rfl⟩

theorem contains_enclosed {g : Glyph} (notNull : g.isNull = false) : enclosed.contains g = isEnclosed g := by
  rw [Bool.eq_iff_iff, contains_enclosed_iff]
  simp [isEnclosed, notNull]

theorem contains_blank (g : Glyph) : blank.contains g = g.isBlank := by
  cases g with
  | scalar c =>
    rw [Bool.eq_iff_iff]
    simp [blank, contains, Glyph.isBlank, Glyph.satisfies, eq_iff_toNat]
    omega
  | stray b => rfl

end GlyphClass

/-! ## Patterns -/

/-- A regular expression over glyphs. -/
inductive GlyphPattern where
  /-- The empty word. -/
  | nothing
  /-- No word at all. -/
  | never
  /-- One glyph of a class. -/
  | one (k : GlyphClass)
  | inTurn (first second : GlyphPattern)
  | either (first second : GlyphPattern)
  /-- Any number of times. -/
  | many (content : GlyphPattern)
  deriving DecidableEq

namespace GlyphPattern

/-- Once or more. -/
def onceOrMore (p : GlyphPattern) : GlyphPattern := .inTurn p (.many p)

/-- Once or not at all. -/
def optional (p : GlyphPattern) : GlyphPattern := .either p .nothing

/-- One character after the other. -/
def literal (characters : List Char) : GlyphPattern :=
  characters.foldr (fun c rest => .inTurn (.one (.only c)) rest) .nothing

/-- One of some patterns. -/
def oneOf (patterns : List GlyphPattern) : GlyphPattern := patterns.foldr .either .never

/-- The pattern matches the word from its first glyph to its last. -/
def Matches : GlyphPattern → List Glyph → Prop
  | .nothing, w => w = []
  | .never, _ => False
  | .one k, w => ∃ g, w = [g] ∧ k.contains g = true
  | .inTurn p q, w => ∃ u v, w = u ++ v ∧ p.Matches u ∧ q.Matches v
  | .either p q, w => p.Matches w ∨ q.Matches w
  | .many p, w => ∃ words : List (List Glyph), w = words.flatten ∧ ∀ u ∈ words, p.Matches u

/-- The word is the longest at the front of the input that the pattern matches. -/
structure IsLongest (p : GlyphPattern) (input word : List Glyph) : Prop where
  isPrefix : word <+: input
  isMatch : p.Matches word
  noLonger : ∀ longer, longer <+: input → p.Matches longer → longer.length ≤ word.length

/-! ## Patterns at the front of a word -/

@[simp] theorem matches_nothing_nil : nothing.Matches [] := rfl

@[simp] theorem not_matches_one_nil (k : GlyphClass) : ¬ (one k).Matches [] := by
  rintro ⟨g, empty, _⟩
  exact List.cons_ne_nil _ _ empty.symm

@[simp] theorem matches_either (p q : GlyphPattern) (w : List Glyph) :
    (either p q).Matches w ↔ p.Matches w ∨ q.Matches w := Iff.rfl

@[simp] theorem matches_inTurn_nil (p q : GlyphPattern) : (inTurn p q).Matches [] ↔ p.Matches [] ∧ q.Matches [] := by
  constructor
  · rintro ⟨u, v, split, hu, hv⟩
    obtain ⟨rfl, rfl⟩ := List.append_eq_nil_iff.mp split.symm
    exact ⟨hu, hv⟩
  · rintro ⟨hp, hq⟩
    exact ⟨[], [], rfl, hp, hq⟩

@[simp] theorem matches_many_nil (p : GlyphPattern) : (many p).Matches [] := ⟨[], rfl, by simp⟩

theorem matches_inTurn_cons (p q : GlyphPattern) (g : Glyph) (w : List Glyph) :
    (inTurn p q).Matches (g :: w) ↔
      (∃ u v, w = u ++ v ∧ p.Matches (g :: u) ∧ q.Matches v) ∨ (p.Matches [] ∧ q.Matches (g :: w)) := by
  constructor
  · rintro ⟨u, v, split, hu, hv⟩
    cases u with
    | nil => exact Or.inr ⟨hu, by simpa [split] using hv⟩
    | cons a u =>
      obtain ⟨rfl, rfl⟩ := List.cons.inj split
      exact Or.inl ⟨u, v, rfl, hu, hv⟩
  · rintro (⟨u, v, rfl, hu, hv⟩ | ⟨hp, hq⟩)
    · exact ⟨g :: u, v, rfl, hu, hv⟩
    · exact ⟨[], g :: w, rfl, hp, hq⟩

theorem matches_many_cons (p : GlyphPattern) (g : Glyph) (w : List Glyph) :
    (many p).Matches (g :: w) ↔ ∃ u v, w = u ++ v ∧ p.Matches (g :: u) ∧ (many p).Matches v := by
  constructor
  · rintro ⟨words, split, each⟩
    induction words with
    | nil => simp at split
    | cons first rest ih =>
      cases first with
      | nil => exact ih (by simpa using split) (fun u member => each u (by simp [member]))
      | cons a u =>
        obtain ⟨rfl, rfl⟩ := List.cons.inj split
        exact ⟨u, rest.flatten, rfl, each _ (by simp), rest, rfl, fun v member => each v (by simp [member])⟩
  · rintro ⟨u, v, rfl, hu, words, rfl, each⟩
    refine ⟨(g :: u) :: words, rfl, ?_⟩
    intro x member
    rcases List.mem_cons.mp member with rfl | member
    · exact hu
    · exact each x member

theorem matches_one_inTurn_cons (k : GlyphClass) (q : GlyphPattern) (g : Glyph) (w : List Glyph) :
    (inTurn (one k) q).Matches (g :: w) ↔ k.contains g = true ∧ q.Matches w := by
  rw [matches_inTurn_cons]
  constructor
  · rintro (⟨u, v, rfl, ⟨a, single, holds⟩, hv⟩ | ⟨⟨a, single, _⟩, _⟩)
    · obtain ⟨rfl, rfl⟩ := List.cons.inj single
      exact ⟨holds, hv⟩
    · exact absurd single (List.cons_ne_nil _ _).symm
  · rintro ⟨holds, hw⟩
    exact Or.inl ⟨[], w, rfl, ⟨g, rfl, holds⟩, hw⟩

theorem matches_manyOne_cons (k : GlyphClass) (g : Glyph) (w : List Glyph) :
    (many (one k)).Matches (g :: w) ↔ k.contains g = true ∧ (many (one k)).Matches w := by
  rw [matches_many_cons]
  constructor
  · rintro ⟨u, v, rfl, ⟨a, single, holds⟩, hv⟩
    obtain ⟨rfl, rfl⟩ := List.cons.inj single
    exact ⟨holds, hv⟩
  · rintro ⟨holds, hw⟩
    exact ⟨[], w, rfl, ⟨g, rfl, holds⟩, hw⟩

theorem matches_manyOne_iff (k : GlyphClass) (w : List Glyph) :
    (many (one k)).Matches w ↔ ∀ g ∈ w, k.contains g = true := by
  induction w with
  | nil => simp
  | cons g w ih => rw [matches_manyOne_cons, ih, List.forall_mem_cons]

theorem matches_onceOrMoreOne_iff (k : GlyphClass) (w : List Glyph) :
    (onceOrMore (one k)).Matches w ↔ w ≠ [] ∧ ∀ g ∈ w, k.contains g = true := by
  cases w with
  | nil => simp [onceOrMore]
  | cons g w =>
    rw [onceOrMore, matches_one_inTurn_cons, matches_manyOne_iff, List.forall_mem_cons]
    simp

theorem matches_manyOne_inTurn_cons (k : GlyphClass) (q : GlyphPattern) (g : Glyph) (w : List Glyph) :
    (inTurn (many (one k)) q).Matches (g :: w) ↔
      (k.contains g = true ∧ (inTurn (many (one k)) q).Matches w) ∨ q.Matches (g :: w) := by
  rw [matches_inTurn_cons]
  constructor
  · rintro (⟨u, v, rfl, hu, hv⟩ | ⟨_, hq⟩)
    · obtain ⟨holds, hu⟩ := (matches_manyOne_cons ..).mp hu
      exact Or.inl ⟨holds, u, v, rfl, hu, hv⟩
    · exact Or.inr hq
  · rintro (⟨holds, u, v, rfl, hu, hv⟩ | hq)
    · exact Or.inl ⟨u, v, rfl, (matches_manyOne_cons ..).mpr ⟨holds, hu⟩, hv⟩
    · exact Or.inr ⟨matches_many_nil _, hq⟩

theorem matches_inTurn_assoc (p q r : GlyphPattern) (w : List Glyph) :
    (inTurn (inTurn p q) r).Matches w ↔ (inTurn p (inTurn q r)).Matches w := by
  constructor
  · rintro ⟨_, z, rfl, ⟨x, y, rfl, hx, hy⟩, hz⟩
    exact ⟨x, y ++ z, by simp, hx, y, z, rfl, hy, hz⟩
  · rintro ⟨x, _, rfl, hx, y, z, rfl, hy, hz⟩
    exact ⟨x ++ y, z, by simp, ⟨x, y, rfl, hx, hy⟩, hz⟩

theorem matches_literal (characters : List Char) (w : List Glyph) :
    (literal characters).Matches w ↔ w = characters.map .scalar := by
  induction characters generalizing w with
  | nil => simp [literal, Matches]
  | cons c rest ih =>
    change (inTurn (one (.only c)) (literal rest)).Matches w ↔ _
    cases w with
    | nil => simp [Matches]
    | cons g w =>
      rw [matches_one_inTurn_cons, ih, List.map_cons, List.cons.injEq, GlyphClass.contains_only, beq_iff_eq]

theorem matches_oneOf (patterns : List GlyphPattern) (w : List Glyph) :
    (oneOf patterns).Matches w ↔ ∃ p ∈ patterns, p.Matches w := by
  induction patterns with
  | nil => simp [oneOf, Matches]
  | cons p rest ih => simp [oneOf, ← ih]

end GlyphPattern

end DocComment
