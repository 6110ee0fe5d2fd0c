import DocComment.Proofs.Composition
import DocComment.Proofs.Highlighting
import DocComment.Proofs.Skeleton
import DocComment.Proofs.UniqueEnd

/-!
# Text that touches the closing star

The star of a closing star and slash is no token of its own: a piece of text takes it in. It does so behind a glyph of
its own, which the first glyph of the text is not, so a text that touches the star has to have two characters
(`text_touches_star`).
-/

namespace DocComment

namespace Automaton

/-! ## Stretches without stars -/

/-- A glyph that text may hold, other than a star. -/
def IsPlain (g : Glyph) : Prop := breaksText g = false ∧ g ≠ .scalar '*'

theorem reach?_plain {word : List Glyph} (plain : ∀ g ∈ word, IsPlain g) {q : text.State}
    (started : q = TextState.lead ∨ q = TextState.body) :
    ∃ behind, text.reach? q word = some behind ∧ (behind = TextState.lead ∨ behind = TextState.body) := by
  induction word generalizing q with
  | nil => exact ⟨q, rfl, started⟩
  | cons g word ih =>
    obtain ⟨notBreak, notStar⟩ := plain g (by simp)
    have next : ∃ behind, text.next q g = some behind ∧ (behind = TextState.lead ∨ behind = TextState.body) := by
      rcases started with rfl | rfl
      · by_cases slash : g = .scalar '/'
        · exact ⟨TextState.lead, by subst slash; rfl, Or.inl rfl⟩
        · exact ⟨TextState.body, by simp [text, notBreak, notStar, slash], Or.inr rfl⟩
      · exact ⟨TextState.body, by simp [text, notBreak, notStar], Or.inr rfl⟩
    obtain ⟨behind, next, kind⟩ := next
    rw [reach?_cons, next]
    exact ih (fun a member => plain a (by simp [member])) kind

/-- Behind its first glyph, a text takes in a star if the glyph before it is no slash. -/
theorem reach?_star {first last : Glyph} {mid : List Glyph} (starts : startsText first = true)
    (plain : ∀ g ∈ mid, IsPlain g) (plainLast : IsPlain last) (notSlash : last ≠ .scalar '/') :
    ∃ q, text.reach? text.start (first :: mid ++ [last, .scalar '*']) = some q ∧ q = TextState.stars := by
  obtain ⟨behindFirst, opens, lead⟩ : ∃ q, text.next text.start first = some q ∧ q = TextState.lead :=
    ⟨TextState.lead, by simp [text, starts], rfl⟩
  obtain ⟨behind, reached, kind⟩ := reach?_plain plain (Or.inl lead)
  have next : text.next behind last = some TextState.body := by
    rcases kind with rfl | rfl <;> simp [text, plainLast.1, plainLast.2, notSlash]
  refine ⟨TextState.stars, ?_, rfl⟩
  rw [List.cons_append, reach?_cons, opens, Option.bind_some, reach?_append, reached, Option.bind_some, reach?_cons, next]
  rfl

theorem longest_single {g : Glyph} (starts : startsText g = true) (rest : List Glyph) :
    text.longest (g :: .scalar '*' :: rest) = some 1 := by
  have first : text.next text.start g = some TextState.lead := by simp [text, starts]
  refine (longest_append_iff text [g] (.scalar '*' :: rest)).mpr ⟨TextState.lead, ?_, rfl, stays_of_stuck ?_⟩
  · rw [reach?_cons, first]
    rfl
  · intro a head
    obtain rfl := Option.some.inj head
    rfl

theorem longest_of_stars {word : List Glyph} {q : text.State} (reached : text.reach? text.start word = some q)
    (stars : q = TextState.stars) (rest : List Glyph) : text.longest (word ++ .scalar '/' :: rest) = some word.length := by
  subst stars
  refine (longest_append_iff ..).mpr ⟨_, reached, rfl, stays_of_stuck ?_⟩
  intro g head
  obtain rfl := Option.some.inj head
  rfl

end Automaton

/-- Text is recognised by its automaton alone where identifiers are not looked for. -/
theorem Recognised.text_of_longest {g : Glyph} {rest : List Glyph} {n : Nat} (starts : Automaton.startsText g = true)
    (notSlash : g ≠ .scalar '/') (longest : Automaton.text.longest (g :: rest) = some n) :
    Recognised false (g :: rest) .text n := by
  have other : g ≠ .scalar '*' ∧ g ≠ .scalar '@' ∧ g ≠ .scalar '\x7b' := by
    refine ⟨?_, ?_, ?_⟩ <;> rintro rfl <;> cases starts
  exact .text notSlash other.1 other.2.1 other.2.2 (by simp) longest

namespace Reading

theorem step_star {stage : Stage} (refused : stage.next .star = none) {blanks : List Glyph}
    (blank : ∀ g ∈ blanks, g.isBlank = true) (rest : List Glyph) :
    step false stage (blanks ++ .scalar '*' :: rest) = .ending (.rejected (.token .star)) := by
  have padded : pad false (blanks ++ .scalar '*' :: rest) = (blanks, .scalar '*' :: rest) := by
    refine pad_blanks (by simp) blank ?_
    intro g head
    obtain rfl := Option.some.inj head
    decide
  have found : recognise stage.identifiers (.scalar '*' :: rest) = (.token .star, 1) := rfl
  simp only [step, padded, found, refused]

theorem reads_slash {stage : Stage} (closes : stage.next .slash = some .closed) :
    Reads false stage [.scalar '/'] ⟨[bareSlash], .accepted []⟩ :=
  .lexeme (step_bareSlash closes []) (.ending rfl)

/-- A star behind a text that has not taken it in ends the reading. -/
theorem ofGlyphs_refused {g : Glyph} (found : Recognised false (g :: [.scalar '*', .scalar '/']) .text 1) :
    ofGlyphs (Glyph.spell "/** " ++ ([g] ++ [.scalar '*', .scalar '/'])) =
      ⟨openingLine ++ [⟨.text, [.scalar ' '], [g]⟩], .rejected (.token .star)⟩ := by
  have read : step false .opening (Lexeme.glyphs ⟨.text, [.scalar ' '], [g]⟩ ++ [.scalar '*', .scalar '/']) =
      .lexeme ⟨.text, [.scalar ' '], [g]⟩ .description :=
    step_of_recognised (Glyph.isBlank_of_mem_spell Glyph.isBlank_of_mem_space) (by simp) rfl found
  have star : step false .description ([] ++ [.scalar '*', .scalar '/']) = .ending (.rejected (.token .star)) :=
    step_star rfl (by simp) _
  exact (reads_iff ..).mp (reads_openingLine (.lexeme read (.ending star)))

/-- A text behind a blank and the slash behind it make up the body of a comment. -/
theorem ofGlyphs_touching {word : List Glyph} (found : Recognised false (word ++ [.scalar '/']) .text word.length) :
    ofGlyphs (Glyph.spell "/** " ++ (word ++ [.scalar '/'])) =
      ⟨openingLine ++ [⟨.text, [.scalar ' '], word⟩, bareSlash], .accepted []⟩ := by
  have read : step false .opening (Lexeme.glyphs ⟨.text, [.scalar ' '], word⟩ ++ [.scalar '/']) =
      .lexeme ⟨.text, [.scalar ' '], word⟩ .description :=
    step_of_recognised (Glyph.isBlank_of_mem_spell Glyph.isBlank_of_mem_space) (by simp) rfl found
  exact (reads_iff ..).mp (reads_openingLine (.lexeme read (reads_slash rfl)))

end Reading

namespace Node

/-- The tree of a comment with a text and nothing else has a description of that text. -/
theorem exists_description {source : List UInt8} {word : List Glyph}
    (read : Reading.ofSource source =
      ⟨Reading.openingLine ++ [⟨.text, [.scalar ' '], word⟩, Reading.bareSlash], .accepted []⟩) :
    ∃ root, ofSource? source = some root ∧ root.expression = "(document (description))" ∧
      ∃ n ∈ root.children, n.symbol = .description ∧ n.span.slice source = word.flatMap Glyph.bytes := by
  have valid : (ofSource? source).isSome = true := (isSome_ofSource?_iff source).mpr ⟨[], by rw [read]⟩
  obtain ⟨root, tree⟩ := Option.isSome_iff_exists.mp valid
  refine ⟨root, tree, ?_, ?_⟩
  · have tokens : (Reading.ofSource source).tokens = [.slash, .star, .star, .text, .slash] := by
      rw [Reading.tokens, read]
      rfl
    rw [expression_of_ofSource? tree, tokens]
    decide +kernel
  · obtain ⟨c, trailing, derivation, parts, split, rfl⟩ := exists_of_ofSource? tree
    obtain ⟨opening, first, second, p, closing, inTurn, isText, star, secondStar, text⟩ :
        ∃ opening first second p closing,
          Placed.inTurn .origin (Reading.ofSource source).lexemes = [opening, first, second, p, closing] ∧
            p.lexeme = ⟨.text, [.scalar ' '], word⟩ ∧
            first.token = .star ∧ second.token = .star ∧ p.token = .text := by
      rw [read]
      exact ⟨_, _, _, _, _, rfl, rfl, rfl, rfl, rfl⟩
    have grouped := Comment.ofParts?_parts derivation
    rw [parts, inTurn] at grouped
    have description : c.description = [p] := by
      simp [Comment.ofParts?, Comment.Stretch.ofParts, Comment.Stretch.push, star, secondStar, text] at grouped
      rw [← grouped]
    have cut : Placed.inTurn .origin (Reading.ofSource source).lexemes = [opening, first, second] ++ [p] ++ [closing] := inTurn
    have covered := Placed.slice_cover split cut
    refine ⟨.node .description (cover p []) [], ?_, rfl, ?_⟩
    · simp [ofComment, children, description, ofDescription]
    · rw [span, covered, isText, List.flatMap_nil, List.append_nil]

end Node

/-! ## Texts of characters -/

private theorem decode_touching (text : String) :
    Glyph.decode (encode ("/** " ++ text ++ "*/")) =
      Glyph.spell "/** " ++ (Glyph.spell text ++ [.scalar '*', .scalar '/']) := by
  rw [Glyph.decode_encode, Glyph.spell_append, Glyph.spell_append, List.append_assoc]
  rfl

section
variable {text : String} {first : Glyph} (starts : Automaton.startsText first = true) (notSlash : first ≠ .scalar '/')
include starts notSlash

theorem ofSource?_single (spelled : Glyph.spell text = [first]) :
    Node.ofSource? (encode ("/** " ++ text ++ "*/")) = none := by
  have found := Recognised.text_of_longest starts notSlash (Automaton.longest_single starts [.scalar '/'])
  have read := Reading.ofGlyphs_refused found
  rw [← spelled, ← decode_touching] at read
  rw [Node.ofSource?, Reading.ofSource, read]
  rfl

theorem exists_touching {mid : List Glyph} {last : Glyph} (spelled : Glyph.spell text = first :: mid ++ [last])
    (plain : ∀ g ∈ mid, Automaton.IsPlain g) (plainLast : Automaton.IsPlain last) (notSlashLast : last ≠ .scalar '/') :
    ∃ root, Node.ofSource? (encode ("/** " ++ text ++ "*/")) = some root ∧
      root.expression = "(document (description))" ∧
      ∃ n ∈ root.children, n.symbol = .description ∧
        n.span.slice (encode ("/** " ++ text ++ "*/")) = encode (text ++ "*") := by
  obtain ⟨q, reached, stars⟩ := Automaton.reach?_star starts plain plainLast notSlashLast
  have word : first :: mid ++ [last, .scalar '*'] = Glyph.spell (text ++ "*") := by
    rw [Glyph.spell_append, spelled, List.append_cons]
    rfl
  rw [word] at reached
  have found : Recognised false (Glyph.spell (text ++ "*") ++ [.scalar '/']) .text (Glyph.spell (text ++ "*")).length := by
    have longest := Automaton.longest_of_stars reached stars []
    rw [← word] at longest ⊢
    exact .text_of_longest starts notSlash longest
  have read := Reading.ofGlyphs_touching found
  have whole : Glyph.spell "/** " ++ (Glyph.spell (text ++ "*") ++ [.scalar '/']) =
      Glyph.decode (encode ("/** " ++ text ++ "*/")) := by
    rw [decode_touching, Glyph.spell_append, List.append_assoc]
    rfl
  have bytes : encode (text ++ "*") = (Glyph.spell (text ++ "*")).flatMap Glyph.bytes := by
    rw [← Glyph.decode_encode, Glyph.bytes_decode]
  rw [whole] at read
  rw [bytes]
  exact Node.exists_description read

end

private theorem isPlain_scalar {c : Char} (other : c ∉ ['*', '\x7b', '\x7d', '\n', '\x00']) :
    Automaton.IsPlain (.scalar c) := by
  simp [Automaton.IsPlain, Automaton.breaksText, Glyph.isNull] at other ⊢
  tauto

private theorem startsText_scalar {c : Char} (plain : Automaton.IsPlain (.scalar c))
    (notBlank : (Glyph.scalar c).isBlank = false) (notSign : c ≠ '@') : Automaton.startsText (.scalar c) = true := by
  obtain ⟨notBreak, notStar⟩ := plain
  simp [Automaton.startsText] at notStar ⊢
  exact ⟨⟨⟨notBlank, notBreak⟩, notStar⟩, notSign⟩

/-- A text on one line without stars and braces, which starts with no blank, sign or slash and ends with no slash, may
touch the closing star exactly if it has two characters or more. The comment then has a description of the text and the
star. -/
theorem text_touches_star {text : String} (nonempty : text ≠ "")
    (plain : ∀ c ∈ text.toList, c ∉ ['*', '\x7b', '\x7d', '\n', '\x00'])
    (first : ∀ c ∈ text.toList.head?, (Glyph.scalar c).isBlank = false ∧ c ≠ '@' ∧ c ≠ '/')
    (last : ∀ c ∈ text.toList.getLast?, c ≠ '/') :
    (∃ root, Node.ofSource? (encode ("/** " ++ text ++ "*/")) = some root ∧
        root.expression = "(document (description))" ∧
        ∃ n ∈ root.children, n.symbol = .description ∧
          n.span.slice (encode ("/** " ++ text ++ "*/")) = encode (text ++ "*")) ↔
      2 ≤ text.length := by
  have plainGlyphs : ∀ c ∈ text.toList, Automaton.IsPlain (.scalar c) := fun c member => isPlain_scalar (plain c member)
  obtain ⟨c, more, spelled⟩ := List.exists_cons_of_ne_nil fun none => nonempty (String.toList_eq_nil_iff.mp none)
  obtain ⟨notBlank, notSign, notSlash⟩ := first c (by simp [spelled])
  have starts := startsText_scalar (plainGlyphs c (by simp [spelled])) notBlank notSign
  have notSlashGlyph : Glyph.scalar c ≠ .scalar '/' := by simpa using notSlash
  have length : text.length = more.length + 1 := by rw [← String.length_toList, spelled, List.length_cons]
  rcases List.eq_nil_or_concat more with rfl | ⟨mid, d, rfl⟩
  · have glyphs : Glyph.spell text = [.scalar c] := by rw [Glyph.spell, spelled, List.map_singleton]
    have refused := ofSource?_single starts notSlashGlyph glyphs
    constructor
    · rintro ⟨root, tree, -⟩
      cases refused.symm.trans tree
    · intro long
      simp only [length, List.length_nil] at long
      omega
  · rw [List.concat_eq_append] at spelled length
    have glyphs : Glyph.spell text = .scalar c :: mid.map .scalar ++ [.scalar d] := by
      rw [Glyph.spell, spelled]
      simp
    have plainMid : ∀ g ∈ mid.map Glyph.scalar, Automaton.IsPlain g := by
      intro g member
      obtain ⟨b, inMid, rfl⟩ := List.mem_map.mp member
      exact plainGlyphs b (by simp [spelled, inMid])
    have ends : (c :: (mid ++ [d])).getLast? = some d := by rw [← List.cons_append, List.getLast?_concat]
    have notSlashLast : Glyph.scalar d ≠ .scalar '/' := by simpa using last d (by rw [spelled, ends]; rfl)
    constructor
    · intro _
      rw [length, List.length_append, List.length_singleton]
      omega
    · intro _
      exact exists_touching starts notSlashGlyph glyphs plainMid (plainGlyphs d (by simp [spelled])) notSlashLast

/-- A text of three characters, of which the second is a slash. -/
theorem text_touches_star_slash :
    ∃ root, Node.ofSource? (encode ("/** " ++ "a/b" ++ "*/")) = some root ∧
      root.expression = "(document (description))" ∧
      ∃ n ∈ root.children, n.symbol = .description ∧
        n.span.slice (encode ("/** " ++ "a/b" ++ "*/")) = encode ("a/b" ++ "*") := by
  refine (text_touches_star (by decide) ?_ ?_ ?_).mpr (by decide)
  · simp
  · simp [Glyph.isBlank, Glyph.satisfies]
  · simp

/-- A single character does not touch the star, although all that is asked of a text holds of it. -/
theorem single_character_refused :
    "a" ≠ "" ∧ (∀ c ∈ "a".toList, c ∉ ['*', '\x7b', '\x7d', '\n', '\x00']) ∧
      (∀ c ∈ "a".toList.head?, (Glyph.scalar c).isBlank = false ∧ c ≠ '@' ∧ c ≠ '/') ∧
      (∀ c ∈ "a".toList.getLast?, c ≠ '/') ∧
      (Node.ofSource? (encode ("/** " ++ "a" ++ "*/"))).isSome = false := by
  refine ⟨by decide, ?_, ?_, ?_, by decide +kernel⟩
  · simp
  · simp [Glyph.isBlank, Glyph.satisfies]
  · simp

end DocComment
