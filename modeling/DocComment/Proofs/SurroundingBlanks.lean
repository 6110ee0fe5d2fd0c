import DocComment.Proofs.ComposedTree
import DocComment.Proofs.Tiling
import DocComment.Proofs.UniqueEnd

/-!
# Blanks around a comment

Blanks before and behind a source translate its tree and change nothing else (`blanks_around_translate`). No match that
ends before some glyph goes on to end among blanks behind that glyph, so any blanks may follow the closing slash
(`Reads.trailed`). Blanks before the source become padding of the opening slash, unless a byte order mark stands there.
-/

namespace DocComment

namespace Automaton

/-! ## Blanks that a match does not end in -/

section
variable {m : Automaton} (fades : ∀ q behind g, g.isBlank = true → m.next q g = some behind → m.final behind = true →
  m.final q = true)
include fades

/-- If blanks lead to final states from these alone, no other state takes in blanks. -/
private theorem stays_blanks {q : m.State} (notFinal : m.final q = false) {blanks : List Glyph}
    (blank : ∀ g ∈ blanks, g.isBlank = true) : m.Stays q blanks := by
  induction blanks generalizing q with
  | nil => trivial
  | cons g blanks ih =>
    intro behind next
    have notFinalBehind : m.final behind = false := by
      by_contra final
      rw [Bool.not_eq_false] at final
      rw [fades q behind g (blank g (by simp)) next final] at notFinal
      cases notFinal
    exact ⟨notFinalBehind, ih notFinalBehind fun a member => blank a (by simp [member])⟩

/-- A match that ends before some glyph ends there as well if blanks follow that glyph. -/
theorem longest_trailed {word mid back blanks : List Glyph} (nonempty : mid ≠ [])
    (blank : ∀ g ∈ blanks, g.isBlank = true) (found : m.longest (word ++ (mid ++ back)) = some word.length) :
    m.longest (word ++ (mid ++ blanks)) = some word.length := by
  obtain ⟨q, reached, final, stays⟩ := (longest_append_iff ..).mp found
  obtain ⟨inside, -⟩ := (stays_append_iff ..).mp stays
  refine (longest_append_iff ..).mpr ⟨q, reached, final, (stays_append_iff ..).mpr ⟨inside, ?_⟩⟩
  exact fun behind there => stays_blanks fades (final_of_stays nonempty inside there) blank

end

private theorem text_fades (q behind : text.State) (g : Glyph) (blank : g.isBlank = true)
    (next : text.next q g = some behind) (final : text.final behind = true) : text.final q = true := by
  have notStar : g ≠ .scalar '*' := by
    rintro rfl
    cases blank
  have notStart : startsText g = false := by simp [startsText, blank]
  change TextState at q
  cases q with
  | lead | body | stars => rfl
  | start => simp [text, notStart] at next
  | again =>
    simp only [text, notStar, if_false] at next
    split at next
    · cases next
    · obtain rfl := Option.some.inj next
      cases final

private theorem not_continues_of_isBlank {g : Glyph} (blank : g.isBlank = true) : g.continuesIdentifier = false := by
  cases g with
  | stray b => rfl
  | scalar c =>
    rw [← GlyphClass.contains_blank] at blank
    rw [← GlyphClass.contains_identifierRest]
    simp [GlyphClass.blank, GlyphClass.identifierRest, GlyphClass.contains] at blank ⊢
    omega

private theorem identifier_fades (q behind : identifier.State) (g : Glyph) (blank : g.isBlank = true)
    (next : identifier.next q g = some behind) (_ : identifier.final behind = true) : identifier.final q = true := by
  have other := not_continues_of_isBlank blank
  change IdentifierState at q
  cases q with
  | inside => rfl
  | start =>
    have notStart : g.startsIdentifier = false := (Bool.or_eq_false_iff.mp other).1
    simp [identifier, notStart] at next

private theorem tagName_fades (q behind : tagName.State) (g : Glyph) (blank : g.isBlank = true)
    (next : tagName.next q g = some behind) (final : tagName.final behind = true) : tagName.final q = true := by
  have other := not_continues_of_isBlank blank
  change TagNameState at q
  cases q with
  | name => rfl
  | start =>
    simp only [tagName] at next
    split at next
    · obtain rfl := Option.some.inj next
      cases final
    · cases next
  | sign =>
    have notLetter : g.isLetter = false := (Bool.or_eq_false_iff.mp (Bool.or_eq_false_iff.mp other).1).1
    simp [tagName, notLetter] at next

end Automaton

/-- A lexeme that ends before some glyph is recognised as well if blanks follow that glyph. -/
theorem Recognised.trailed {identifiers : Bool} {t : Token} {word mid back blanks : List Glyph} (nonempty : mid ≠ [])
    (blank : ∀ g ∈ blanks, g.isBlank = true) (found : Recognised identifiers (word ++ (mid ++ back)) t word.length) :
    Recognised identifiers (word ++ (mid ++ blanks)) t word.length := by
  refine found.replaced ?_ ?_ ?_ ?_
  · exact fun _ => Automaton.longest_trailed Automaton.tagName_fades nonempty blank
  · exact fun _ => Automaton.longest_brace word mid blanks fun nothing => absurd nothing nonempty
  · exact fun _ => Automaton.longest_trailed Automaton.identifier_fades nonempty blank
  · exact fun _ => Automaton.longest_trailed Automaton.text_fades nonempty blank

namespace Reading

/-! ## Blanks behind a comment -/

/-- Behind the lexemes of a comment, any blanks may follow. -/
theorem ofSource_trailed {source other : List UInt8} {trailing blanks : List Glyph}
    (accepted : (ofSource source).ending = .accepted trailing) (blank : ∀ g ∈ blanks, g.isBlank = true)
    (decoded : Glyph.decode other = (ofSource source).lexemes.flatMap Lexeme.glyphs ++ blanks) :
    ofSource other = ⟨(ofSource source).lexemes, .accepted blanks⟩ := by
  obtain ⟨run, split⟩ := behindAll_of_accepted accepted
  obtain ⟨before, l, closing, lexemes, slash⟩ := exists_last accepted
  have reads : Reads true .start (Glyph.decode source) ⟨(ofSource source).lexemes ++ [], .accepted trailing⟩ := by
    rw [List.append_nil, ← accepted]
    exact reads_readFrom ..
  have onward : Reads (true && (ofSource source).lexemes.isEmpty) .closed blanks ⟨[], .accepted blanks⟩ := by
    have away : (true && (ofSource source).lexemes.isEmpty) = false := by simp [lexemes]
    have padded : pad false (blanks ++ []) = (blanks, []) := pad_blanks (by simp) blank (by simp)
    rw [List.append_nil] at padded
    rw [away]
    exact .ending ((step_eq_accepted_iff ..).mpr ⟨rfl, padded⟩)
  have body : closing.body = [.scalar '/'] := by
    have closed := reads
    rw [lexemes, List.append_nil] at closed
    exact (closed.slash (by simp) slash).1
  rw [split] at reads
  have resumed := reads.resumed ?_ run onward
  · rw [List.append_nil, ← decoded] at resumed
    exact (reads_iff ..).mp resumed
  · intro identifiers front l' after cut found
    cases after with
    | nil =>
      -- The last lexeme is the closing slash, which is recognised before anything.
      obtain ⟨-, rfl⟩ := List.append_singleton_inj.mp (lexemes.symm.trans cut)
      rw [slash, body]
      exact .slash
    | cons next more =>
      refine found.trailed ?_ blank
      rw [List.flatMap_cons]
      exact List.append_ne_nil_of_left_ne_nil (reads.glyphs_ne_nil (by simp [cut])) _

/-- The blanks at the end of a valid source are none of its lexemes. -/
theorem exists_trailing {source more : List UInt8} {trailing blanks : List Glyph}
    (decoded : Glyph.decode more = Glyph.decode source ++ blanks) (blank : ∀ g ∈ blanks, g.isBlank = true)
    (accepted : (ofSource more).ending = .accepted trailing) :
    ∃ left, Glyph.decode source = (ofSource more).lexemes.flatMap Lexeme.glyphs ++ left ∧
      ∀ g ∈ left, g.isBlank = true := by
  have split := (behindAll_of_accepted accepted).2
  have trails := trailing_blank accepted
  obtain ⟨before, l, closing, lexemes, slash⟩ := exists_last accepted
  rw [decoded] at split
  rcases List.append_eq_append_iff.mp split with ⟨mid, lexed, rest⟩ | ⟨left, lexed, rest⟩
  · rcases List.eq_nil_or_concat mid with rfl | ⟨front, last, rfl⟩
    · exact ⟨[], by simp [lexed], by simp⟩
    · -- The slash would be blank.
      have closed := reads_ofSource lexemes
      have body := (closed.slash (by simp) slash).1
      have ends := congrArg List.getLast? lexed
      rw [lexemes, List.flatMap_append, List.flatMap_singleton, Lexeme.glyphs, body] at ends
      simp only [List.concat_eq_append, ← List.append_assoc, List.getLast?_concat, Option.some.injEq] at ends
      subst ends
      have other := blank (.scalar '/') (by simp [rest])
      cases other
  · refine ⟨left, lexed, ?_⟩
    intro g member
    exact trails g (by simp [rest, member])

/-! ## Blanks before a comment -/

private theorem Reads.ofStep {atFront other : Bool} {stage : Stage} {input : List Glyph} {r : Reading}
    (same : step other stage input = step atFront stage input) (reads : Reads atFront stage input r) :
    Reads other stage input r := by
  cases reads with
  | ending read => exact .ending (same.trans read)
  | lexeme read later => exact .lexeme (same.trans read) later

/-- Without a byte order mark, it does not matter whether reading starts at the front of a source. -/
theorem reads_front_iff {stage : Stage} {input : List Glyph} {r : Reading}
    (noMark : input.head? ≠ some Glyph.byteOrderMark) : Reads true stage input r ↔ Reads false stage input r := by
  have padded : pad true input = pad false input := by
    rw [pad_noMark fun _ => noMark, pad_noMark (by simp)]
  have same : step true stage input = step false stage input := by
    unfold step
    rw [padded]
  exact ⟨.ofStep same.symm, .ofStep same⟩

/-- Blanks before a source without a byte order mark become padding of its first lexeme. -/
theorem ofSource_behindBlanks {source : List UInt8} (noMark : (Glyph.decode source).head? ≠ some Glyph.byteOrderMark)
    {before : String} (blank : ∀ c ∈ before.toList, (Glyph.scalar c).isBlank = true) :
    ofSource (encode before ++ source) = (ofSource source).behindBlanks (Glyph.spell before) := by
  have blankGlyphs := Glyph.isBlank_of_mem_spell blank
  have noMarkBefore : (Glyph.spell before ++ Glyph.decode source).head? ≠ some Glyph.byteOrderMark := by
    cases spelled : Glyph.spell before with
    | nil => exact noMark
    | cons g more =>
      rw [List.cons_append, List.head?_cons]
      intro mark
      have markBlank := blankGlyphs g (by simp [spelled])
      rw [Option.some.inj mark] at markBlank
      cases markBlank
  have reads : Reads true .start (Glyph.decode source) (ofSource source) := reads_readFrom ..
  have behind := ((reads_front_iff noMark).mp reads).behindBlanks blankGlyphs
  rw [ofSource, Glyph.decode_encode_append]
  exact (reads_iff ..).mp ((reads_front_iff noMarkBefore).mpr behind)

end Reading

/-! ## Places behind blanks -/

/-- A place of a source where the source stands behind another that ends at a place. -/
def Place.behind (front p : Place) : Place :=
  ⟨front.offset + p.offset, front.row + p.row, if p.row = 0 then front.column + p.column else p.column⟩

theorem Place.after_behind (front p : Place) (g : Glyph) : (front.behind p).after g = front.behind (p.after g) := by
  by_cases lineFeed : g = .scalar '\n'
  · simp [after, behind, lineFeed]
    omega
  · simp [after, behind, lineFeed]
    split <;> omega

namespace Comment

/-- The comment with blanks before its opening slash. -/
def behindBlanks (blanks : List Glyph) (c : Comment Placed) : Comment Placed :=
  { c with opening := c.opening.behindBlanks blanks }

theorem IsDerivation.behindBlanks {c : Comment Placed} (derivation : c.IsDerivation Placed.token)
    (blanks : List Glyph) : (c.behindBlanks blanks).IsDerivation Placed.token :=
  ⟨derivation.opening, derivation.stars, derivation.description, derivation.tags, derivation.closing⟩

theorem parts_behindBlanks (blanks : List Glyph) (c : Comment Placed) :
    (c.behindBlanks blanks).parts = c.parts.modifyHead (Placed.behindBlanks blanks) := rfl

end Comment

/-- The tree with its root up to a place. -/
def Node.upTo (stop : Place) : Node → Node
  | .node s span children => .node s ⟨span.start, stop⟩ children

/-- The tree of a source behind blanks is that of the source, taken behind the blanks, up to the end of both. -/
theorem Node.ofSource?_behindBlanks {source whole : List UInt8} {root : Node} (valid : ofSource? source = some root)
    {blanks trailing : List Glyph} (accepted : (Reading.ofSource whole).ending = .accepted trailing)
    (read : (Reading.ofSource whole).lexemes = ((Reading.ofSource source).behindBlanks blanks).lexemes) :
    ofSource? whole =
      some ((root.relocated (Place.origin.afterAll blanks).behind).upTo (.counted whole whole.length)) := by
  obtain ⟨c, _, derivation, parts, -, rfl⟩ := exists_of_ofSource? valid
  obtain ⟨d, derived, same, tree⟩ := ofSource?_of_accepted accepted
  have along := Place.after_behind (Place.origin.afterAll blanks)
  have lexed : Placed.inTurn .origin (Reading.ofSource whole).lexemes =
      ((Placed.inTurn .origin (Reading.ofSource source).lexemes).map
        (Placed.relocated (Place.origin.afterAll blanks).behind)).modifyHead (Placed.behindBlanks blanks) := by
    rw [read]
    cases lexemes : (Reading.ofSource source).lexemes with
    | nil => simp [lexemes, Comment.parts, Placed.inTurn] at parts
    | cons l more =>
      have meet : Place.origin.afterAll (blanks ++ l.padding) =
          (Place.origin.afterAll blanks).behind (Place.origin.afterAll l.padding) := by
        rw [Place.afterAll_append, ← Place.afterAll_along along]
        rfl
      rw [Reading.lexemes_behindBlanks, lexemes]
      exact Placed.inTurn_behindBlanks along meet more
  obtain rfl : d = (c.map (Placed.relocated (Place.origin.afterAll blanks).behind)).behindBlanks blanks := by
    have relocated : (c.map (Placed.relocated (Place.origin.afterAll blanks).behind)).IsDerivation Placed.token :=
      .map derivation
    refine derived.eq_of_parts (relocated.behindBlanks blanks) ?_
    rw [same, lexed, Comment.parts_behindBlanks, Comment.parts_map, parts]
  rw [tree, Reading.end_eq_counted (Reading.behindAll_of_accepted accepted).2, ← ofComment_relocated]
  rfl

/-! ## Sources between blanks -/

/-- A source with a text before it and a text behind it. -/
def surrounded (before : String) (source : List UInt8) (after : String) : List UInt8 :=
  encode before ++ (source ++ encode after)

section
variable {source : List UInt8}

private theorem decode_trailed {after : String} (blank : ∀ c ∈ after.toList, (Glyph.scalar c).isBlank = true) :
    Glyph.decode (source ++ encode after) = Glyph.decode source ++ Glyph.spell after := by
  cases spelled : after.toList with
  | nil => simp [encode, Glyph.spell, spelled]
  | cons c more =>
    have ascii : c.toNat < 0x80 := by
      have isBlank := blank c (by simp [spelled])
      rw [← GlyphClass.contains_blank] at isBlank
      simp [GlyphClass.blank, GlyphClass.contains] at isBlank
      omega
    have starts : after.toList.head? = some c := by rw [spelled, List.head?_cons]
    have around := Glyph.decode_around_text starts ascii source []
    have nothing : Glyph.decode [] = [] := rfl
    rwa [List.append_nil, nothing, List.append_nil] at around

private theorem head?_ne_mark (noMark : ¬ [0xef, 0xbb, 0xbf] <+: source) {blanks : List Glyph}
    (blank : ∀ g ∈ blanks, g.isBlank = true) : (Glyph.decode source ++ blanks).head? ≠ some Glyph.byteOrderMark := by
  intro mark
  obtain ⟨more, cons⟩ := List.head?_eq_some_iff.mp mark
  rcases List.append_eq_cons_iff.mp cons with ⟨-, rfl⟩ | ⟨rest, decoded, -⟩
  · have markBlank := blank Glyph.byteOrderMark (by simp)
    cases markBlank
  · refine noMark ⟨rest.flatMap Glyph.bytes, ?_⟩
    rw [← Glyph.bytes_decode source, decoded, List.flatMap_cons]
    rfl

namespace Reading

theorem ofSource_trailedBy {trailing : List Glyph} (accepted : (ofSource source).ending = .accepted trailing)
    {after : String} (blank : ∀ c ∈ after.toList, (Glyph.scalar c).isBlank = true) :
    ofSource (source ++ encode after) = ⟨(ofSource source).lexemes, .accepted (trailing ++ Glyph.spell after)⟩ := by
  refine ofSource_trailed accepted ?_ ?_
  · intro g member
    rcases List.mem_append.mp member with member | member
    · exact trailing_blank accepted g member
    · exact Glyph.isBlank_of_mem_spell blank g member
  · rw [decode_trailed blank, (behindAll_of_accepted accepted).2, List.append_assoc]

theorem accepted_trailedBy_iff {after : String} (blank : ∀ c ∈ after.toList, (Glyph.scalar c).isBlank = true) :
    (∃ trailing, (ofSource (source ++ encode after)).ending = .accepted trailing) ↔
      ∃ trailing, (ofSource source).ending = .accepted trailing := by
  constructor
  · rintro ⟨trailing, accepted⟩
    obtain ⟨left, decoded, leftBlank⟩ :=
      exists_trailing (decode_trailed blank) (Glyph.isBlank_of_mem_spell blank) accepted
    exact ⟨left, by rw [ofSource_trailed accepted leftBlank decoded]⟩
  · rintro ⟨trailing, accepted⟩
    exact ⟨trailing ++ Glyph.spell after, by rw [ofSource_trailedBy accepted blank]⟩

theorem sizes_behindBlanks (blanks : List Glyph) (r : Reading) :
    (r.behindBlanks blanks).lexemes.map Lexeme.size =
      (r.lexemes.map Lexeme.size).modifyHead (· + (blanks.flatMap Glyph.bytes).length) := by
  rw [lexemes_behindBlanks]
  cases r.lexemes with
  | nil => rfl
  | cons l rest =>
    simp [Lexeme.size, Lexeme.glyphs]
    omega

end Reading

end

/-- Blanks before and behind a source without a byte order mark keep it valid or not valid. The tree of a valid source
is the same behind the blanks before it, up to the end of those behind it. Its tokens are the same, and so are their
sizes, but the first takes in the blanks before it. -/
theorem blanks_around_translate {source : List UInt8} (noMark : ¬ [0xef, 0xbb, 0xbf] <+: source) {before after : String}
    (blankBefore : ∀ c ∈ before.toList, (Glyph.scalar c).isBlank = true)
    (blankAfter : ∀ c ∈ after.toList, (Glyph.scalar c).isBlank = true) :
    ((Node.ofSource? (surrounded before source after)).isSome = true ↔ (Node.ofSource? source).isSome = true) ∧
      ∀ root, Node.ofSource? source = some root →
        Node.ofSource? (surrounded before source after) =
            some ((root.relocated (Place.counted (encode before) (encode before).length).behind).upTo
              (.counted (surrounded before source after) (surrounded before source after).length)) ∧
          (Reading.ofSource (surrounded before source after)).tokens = (Reading.ofSource source).tokens ∧
          (Reading.ofSource (surrounded before source after)).lexemes.map Lexeme.size =
            ((Reading.ofSource source).lexemes.map Lexeme.size).modifyHead (· + (encode before).length) := by
  have noMarkBehind := head?_ne_mark noMark (Glyph.isBlank_of_mem_spell blankAfter)
  rw [← decode_trailed blankAfter] at noMarkBehind
  have whole : Reading.ofSource (surrounded before source after) = _ :=
    Reading.ofSource_behindBlanks noMarkBehind blankBefore
  constructor
  · rw [Node.isSome_ofSource?_iff, Node.isSome_ofSource?_iff, whole, Reading.accepted_behindBlanks,
      Reading.accepted_trailedBy_iff blankAfter]
  · intro root valid
    obtain ⟨trailing, accepted⟩ := (Node.isSome_ofSource?_iff source).mp (by rw [valid]; rfl)
    have trailed := Reading.ofSource_trailedBy accepted blankAfter
    have lexemes : (Reading.ofSource (surrounded before source after)).lexemes =
        ((Reading.ofSource source).behindBlanks (Glyph.spell before)).lexemes := by
      rw [whole, Reading.lexemes_behindBlanks, Reading.lexemes_behindBlanks, trailed]
    obtain ⟨left, ending⟩ : ∃ left, (Reading.ofSource (surrounded before source after)).ending = .accepted left := by
      rw [whole, Reading.accepted_behindBlanks, trailed]
      exact ⟨_, rfl⟩
    have alone : Glyph.decode (encode before) = Glyph.spell before ++ [] := by
      rw [Glyph.decode_encode, List.append_nil]
    have front := Place.afterAll_eq_counted alone
    rw [bytes_spell] at front
    refine ⟨?_, ?_, ?_⟩
    · rw [← front]
      exact Node.ofSource?_behindBlanks valid ending lexemes
    · rw [Reading.tokens, lexemes]
      exact Reading.tokens_behindBlanks _ _
    · rw [lexemes, Reading.sizes_behindBlanks, bytes_spell]

/-- A comment in its second row is two bytes to the right in its first, and where it was in the others. -/
theorem blanks_around_translate_row :
    ¬ [0xef, 0xbb, 0xbf] <+: encode "/*\n@b c\n/" ∧ (∀ c ∈ "\n  ".toList, (Glyph.scalar c).isBlank = true) ∧
      (∀ c ∈ "\n".toList, (Glyph.scalar c).isBlank = true) ∧
      Place.counted (encode "\n  ") (encode "\n  ").length = ⟨3, 1, 2⟩ ∧
      ((Node.ofSource? (surrounded "\n  " (encode "/*\n@b c\n/") "\n")).isSome = true ↔
        (Node.ofSource? (encode "/*\n@b c\n/")).isSome = true) ∧
      ∃ root, Node.ofSource? (encode "/*\n@b c\n/") = some root ∧
        Node.ofSource? (surrounded "\n  " (encode "/*\n@b c\n/") "\n") =
          some ((root.relocated (Place.behind ⟨3, 1, 2⟩)).upTo ⟨13, 4, 0⟩) ∧
        (Reading.ofSource (surrounded "\n  " (encode "/*\n@b c\n/") "\n")).tokens =
          [.slash, .star, .tagName .plain, .text, .slash] ∧
        (Reading.ofSource (surrounded "\n  " (encode "/*\n@b c\n/") "\n")).lexemes.map Lexeme.size =
          [4, 1, 3, 2, 2] := by
  have noMark : ¬ [0xef, 0xbb, 0xbf] <+: encode "/*\n@b c\n/" := by decide +kernel
  have blankBefore : ∀ c ∈ "\n  ".toList, (Glyph.scalar c).isBlank = true := List.all_eq_true.mp (by decide +kernel)
  have blankAfter : ∀ c ∈ "\n".toList, (Glyph.scalar c).isBlank = true := List.all_eq_true.mp (by decide +kernel)
  have valid : (Node.ofSource? (encode "/*\n@b c\n/")).isSome = true := by decide +kernel
  obtain ⟨root, found⟩ := Option.isSome_iff_exists.mp valid
  obtain ⟨same, translated⟩ := blanks_around_translate noMark blankBefore blankAfter
  have front : Place.counted (encode "\n  ") (encode "\n  ").length = ⟨3, 1, 2⟩ := by decide +kernel
  have stop : Place.counted (surrounded "\n  " (encode "/*\n@b c\n/") "\n")
      (surrounded "\n  " (encode "/*\n@b c\n/") "\n").length = ⟨13, 4, 0⟩ := by decide +kernel
  have tokens : (Reading.ofSource (encode "/*\n@b c\n/")).tokens = [.slash, .star, .tagName .plain, .text, .slash] := by
    decide +kernel
  have sizes : ((Reading.ofSource (encode "/*\n@b c\n/")).lexemes.map Lexeme.size).modifyHead
      (· + (encode "\n  ").length) = [4, 1, 3, 2, 2] := by decide +kernel
  obtain ⟨tree, tokensToo, sizesToo⟩ := translated root found
  rw [front, stop] at tree
  exact ⟨noMark, blankBefore, blankAfter, front, same, root, found, tree, tokensToo.trans tokens, sizesToo.trans sizes⟩

end DocComment
