import Mathlib.Tactic.SplitIfs
import DocComment.Proofs.Draft
import DocComment.Proofs.Seal
import DocComment.Proofs.TreeShape

/-!
# Reading undoes rendering

Every item of a rendered draft is one lexeme, and the tree of the rendering is the one that the draft says. The line
feed before an item ends whatever stands before it, so items are recognised one by one, at the stages that the draft
passes through.
-/

namespace DocComment

/-! ## Items are recognised whole -/

namespace Glyph

theorem spell_append (front back : String) : spell (front ++ back) = spell front ++ spell back := by
  simp [spell]

theorem spell_inj {text other : String} (same : spell text = spell other) : text = other := by
  have scalars : Function.Injective Glyph.scalar := fun _ _ => Glyph.scalar.inj
  exact String.toList_inj.mp (scalars.list_map same)

end Glyph

private theorem notNull_of_spell {text : String} (noNull : '\x00' ∉ text.toList) :
    ∀ g ∈ Glyph.spell text, g.isNull = false := by
  intro g member
  obtain ⟨c, inText, rfl⟩ := List.mem_map.mp member
  have notNull : c ≠ '\x00' := fun null => noNull (null ▸ inText)
  simpa [Glyph.isNull] using notNull

private theorem first_of_matches {k : GlyphClass} {p : GlyphPattern} {text : String}
    (isMatch : (GlyphPattern.inTurn (.one k) p).Matches (Glyph.spell text)) :
    ∃ c more, text.toList = c :: more ∧ k.contains (.scalar c) = true := by
  cases cons : text.toList with
  | nil => simp [Glyph.spell, cons] at isMatch
  | cons c more =>
    rw [Glyph.spell, cons, List.map_cons, GlyphPattern.matches_one_inTurn_cons] at isMatch
    exact ⟨c, more, rfl, isMatch.1⟩

namespace TagClass

private theorem names_disjoint (c d : TagClass) : c ≠ d → ∀ name ∈ c.names, name ∉ d.names := by
  cases c <;> cases d <;> decide +kernel

theorem lists_spell_iff (c : TagClass) (text : String) :
    c.lists (Glyph.spell text) = true ↔ text ∈ c.names := by
  rw [lists_iff]
  constructor
  · rintro ⟨listed, member, same⟩
    exact Glyph.spell_inj same ▸ member
  · intro member
    exact ⟨text, member, rfl⟩

theorem not_lists_of_plain {name : List Glyph} (plain : ofName name = .plain) (c : TagClass) :
    c.lists name = false := by
  unfold ofName at plain
  split_ifs at plain with single multiple block
  cases c with
  | plain => rfl
  | single => simpa using single
  | multiple => simpa using multiple
  | block => simpa using block

/-- A listed name is told to be of the class that lists it. -/
theorem ofName_listed {c : TagClass} {text : String} (member : text ∈ c.names) : ofName (Glyph.spell text) = c := by
  have listed := (lists_spell_iff c text).mpr member
  by_cases plain : ofName (Glyph.spell text) = .plain
  · rw [not_lists_of_plain plain c] at listed
    cases listed
  · have told := (lists_spell_iff ..).mp (lists_ofName _ plain)
    by_cases same : ofName (Glyph.spell text) = c
    · exact same
    · exact absurd member (names_disjoint _ c same text told)

/-- A name of a class is a name, and told to be of that class. -/
theorem IsNameOf.class_eq {c : TagClass} {text : String} (isName : c.IsNameOf text) :
    GlyphPattern.tagName.Matches (Glyph.spell text) ∧ ofName (Glyph.spell text) = c := by
  have listed {c : TagClass} (member : text ∈ c.names) :
      GlyphPattern.tagName.Matches (Glyph.spell text) ∧ ofName (Glyph.spell text) = c :=
    ⟨(Automaton.tagName_accepts_iff _).mp (listed_accepted c text member), ofName_listed member⟩
  cases c with
  | plain =>
    refine ⟨isName.1, ?_⟩
    by_cases plain : ofName (Glyph.spell text) = .plain
    · exact plain
    · exact absurd ((lists_spell_iff ..).mp (lists_ofName _ plain)) (isName.2 _)
  | single => exact listed isName
  | multiple => exact listed isName
  | block => exact listed isName

end TagClass

section
variable {rest : List Glyph} (follows : rest.head? = some (.scalar '\n')) (identifiers : Bool)
include follows

theorem TextLine.recognised (t : TextLine)
    (apart : identifiers = true → ∀ c ∈ t.text.toList.head?, GlyphClass.identifierStart.contains (.scalar c) = false) :
    Recognised identifiers (Glyph.spell t.text ++ rest) .text (Glyph.spell t.text).length := by
  have accepted := (Automaton.text_accepts_iff _ (notNull_of_spell t.noNull)).mpr t.isText
  have longest := Automaton.longest_of_stop Automaton.lineFeed_stops_text accepted follows
  obtain ⟨c, more, cons, starts⟩ := first_of_matches t.isText
  have spelled : Glyph.spell t.text ++ rest = .scalar c :: (more.map Glyph.scalar ++ rest) := by
    simp [Glyph.spell, cons]
  have noSlash : c ≠ '/' := by simpa [cons] using t.noSlash
  have other (d : Char) (left : GlyphClass.textStart.contains (.scalar d) = false) : Glyph.scalar c ≠ .scalar d := by
    rintro ⟨rfl⟩
    simp [left] at starts
  rw [spelled] at longest ⊢
  refine .text (by simpa using noSlash) (other '*' (by decide)) (other '@' (by decide)) (other '\x7b' (by decide)) ?_
    longest
  rintro ⟨looked, startsIdentifier⟩
  rw [← GlyphClass.contains_identifierStart, apart looked c (by simp [cons])] at startsIdentifier
  cases startsIdentifier

theorem Identifier.recognised (p : Identifier) :
    Recognised true (Glyph.spell p.text ++ rest) .identifier (Glyph.spell p.text).length := by
  have accepted := (Automaton.identifier_accepts_iff _).mpr p.isIdentifier
  have longest := Automaton.longest_of_stop Automaton.lineFeed_stops_identifier accepted follows
  obtain ⟨c, more, cons, starts⟩ := first_of_matches p.isIdentifier
  have spelled : Glyph.spell p.text ++ rest = .scalar c :: (more.map Glyph.scalar ++ rest) := by
    simp [Glyph.spell, cons]
  rw [GlyphClass.contains_identifierStart] at starts
  rw [spelled] at longest ⊢
  exact .identifier rfl starts longest

theorem TagName.recognised {c : TagClass} (n : TagName c) :
    Recognised identifiers (Glyph.spell n.text ++ rest) (.tagName c) (Glyph.spell n.text).length := by
  obtain ⟨isMatch, ofClass⟩ := n.isName.class_eq
  have accepted := (Automaton.tagName_accepts_iff _).mpr isMatch
  have longest := Automaton.longest_of_stop Automaton.lineFeed_stops_tagName accepted follows
  obtain ⟨sign, more, cons, starts⟩ := first_of_matches isMatch
  obtain rfl : sign = '@' := by simpa [GlyphClass.contains_only] using starts
  have spelled : Glyph.spell n.text ++ rest = .scalar '@' :: (more.map Glyph.scalar ++ rest) := by
    simp [Glyph.spell, cons]
  have name : TagClass.ofName ((Glyph.scalar '@' :: (more.map Glyph.scalar ++ rest)).take
      (Glyph.spell n.text).length) = c := by
    rw [← spelled, List.take_left, ofClass]
  rw [spelled] at longest ⊢
  have found : Recognised identifiers _ _ _ := .tagName longest
  rwa [name] at found

end

theorem Enclosed.recognised (e : Enclosed) (identifiers : Bool) (rest : List Glyph) :
    Recognised identifiers (Glyph.spell ("\x7b" ++ e.text ++ "\x7d") ++ rest) .brace
      (Glyph.spell ("\x7b" ++ e.text ++ "\x7d")).length := by
  have nonempty : Glyph.spell e.text ≠ [] := by
    intro none
    exact e.notEmpty (String.toList_eq_nil_iff.mp (List.map_eq_nil_iff.mp none))
  have enclosed : ∀ g ∈ Glyph.spell e.text, Automaton.isEnclosed g = true := by
    intro g member
    obtain ⟨c, inText, rfl⟩ := List.mem_map.mp member
    obtain ⟨noSign, noBrace, noNull⟩ := e.enclosed c inText
    simp [Automaton.isEnclosed, Glyph.isNull, noSign, noBrace, noNull]
  have spelled : Glyph.spell ("\x7b" ++ e.text ++ "\x7d") =
      Glyph.scalar '\x7b' :: Glyph.spell e.text ++ [Glyph.scalar '\x7d'] := by
    rw [Glyph.spell_append, Glyph.spell_append]
    rfl
  rw [spelled]
  exact .brace (Automaton.longest_braces nonempty enclosed rest)

/-! ## Reading a rendering -/

namespace Reading

private theorem blank_lineFeed : ∀ g ∈ Glyph.spell "\n", g.isBlank = true := by decide

/-- An item that fits and is recognised is read before what follows it. -/
theorem reads_item {stage behind : Stage} {i : DraftItem} {ls : List Lexeme} {e : Ending}
    (fits : stage.next i.token = some behind)
    (found : Recognised stage.identifiers (Glyph.spell i.text ++ ls.flatMap Lexeme.glyphs) i.token
      (Glyph.spell i.text).length)
    (reads : Reads false behind (ls.flatMap Lexeme.glyphs) ⟨ls, e⟩) :
    Reads false stage ((i.lexeme :: ls).flatMap Lexeme.glyphs) ⟨i.lexeme :: ls, e⟩ := by
  exact .lexeme (step_of_recognised blank_lineFeed (by simp) fits found) reads

/-- From any stage inside a comment, lexemes that a line feed starts are read up to the end of the comment. -/
structure Continues (ls : List Lexeme) : Prop where
  lineFeed : (ls.flatMap Lexeme.glyphs).head? = some (.scalar '\n')
  reads : ∀ stage, stage ≠ .start → stage ≠ .closed → Reads false stage (ls.flatMap Lexeme.glyphs) ⟨ls, .accepted []⟩

theorem lineFeed_items (items : List DraftItem) {ls : List Lexeme}
    (follows : (ls.flatMap Lexeme.glyphs).head? = some (.scalar '\n')) :
    ((items.map DraftItem.lexeme ++ ls).flatMap Lexeme.glyphs).head? = some (.scalar '\n') := by
  cases items with
  | nil => exact follows
  | cons i rest => rfl

private theorem reads_pieces (pieces : List Piece) {ls : List Lexeme} (continues : Continues ls) :
    Reads false .description (((pieces.map Piece.item).map DraftItem.lexeme ++ ls).flatMap Lexeme.glyphs)
      ⟨(pieces.map Piece.item).map DraftItem.lexeme ++ ls, .accepted []⟩ := by
  induction pieces with
  | nil => exact continues.reads .description (by simp) (by simp)
  | cons piece rest ih =>
    have follows := lineFeed_items (rest.map Piece.item) continues.lineFeed
    cases piece with
    | line t => exact reads_item rfl (t.recognised follows _ (by simp [Stage.identifiers])) ih
    | braces b => exact reads_item rfl (b.recognised _ _) ih

/-- A description is read at any stage where a text may come, if the first line is not taken for an identifier. -/
theorem reads_description {stage : Stage} (description : Option DescriptionDraft) {ls : List Lexeme}
    (fits : stage.next .text = some .description)
    (apart : stage.identifiers = true → ∀ d ∈ description, ∀ c ∈ d.first.text.toList.head?,
      GlyphClass.identifierStart.contains (.scalar c) = false) (continues : Continues ls) :
    Reads false stage (((DescriptionDraft.items description).map DraftItem.lexeme ++ ls).flatMap Lexeme.glyphs)
      ⟨(DescriptionDraft.items description).map DraftItem.lexeme ++ ls, .accepted []⟩ := by
  cases description with
  | none =>
    have inside : stage ≠ .start ∧ stage ≠ .closed := by
      constructor <;> rintro rfl <;> cases fits
    exact continues.reads stage inside.1 inside.2
  | some d =>
    have follows := lineFeed_items (d.rest.map Piece.item) continues.lineFeed
    have found := d.first.recognised follows stage.identifiers fun looked => apart looked d rfl
    exact reads_item fits found (reads_pieces d.rest continues)

private theorem reads_parameters (parameters : List Identifier) {ls : List Lexeme} (continues : Continues ls) :
    Reads false .parameters (((parameters.map Identifier.item).map DraftItem.lexeme ++ ls).flatMap Lexeme.glyphs)
      ⟨(parameters.map Identifier.item).map DraftItem.lexeme ++ ls, .accepted []⟩ := by
  induction parameters with
  | nil => exact continues.reads .parameters (by simp) (by simp)
  | cons p rest ih =>
    have follows := lineFeed_items (rest.map Identifier.item) continues.lineFeed
    exact reads_item rfl (p.recognised follows) ih

/-- The name of a tag is read at any stage inside a comment, before what its class asks for. -/
private theorem reads_name {c : TagClass} (n : TagName c) {ls : List Lexeme}
    (follows : (ls.flatMap Lexeme.glyphs).head? = some (.scalar '\n'))
    (reads : Reads false (.behindName c) (ls.flatMap Lexeme.glyphs) ⟨ls, .accepted []⟩) :
    Continues ((DraftItem.mk (.tagName c) n.text).lexeme :: ls) := by
  refine ⟨rfl, ?_⟩
  intro stage notStart notClosed
  have fits : stage.next (.tagName c) = some (.behindName c) := by
    cases stage <;> first | contradiction | rfl
  exact reads_item fits (n.recognised follows _) reads

theorem continues_tag (t : TagDraft) {ls : List Lexeme} (continues : Continues ls) :
    Continues (t.items.map DraftItem.lexeme ++ ls) := by
  cases t with
  | single name parameter description apart =>
    cases parameter with
    | none =>
      refine reads_name name (lineFeed_items _ continues.lineFeed) ?_
      exact reads_description description rfl (fun _ => apart rfl) continues
    | some p =>
      have follows := lineFeed_items (DescriptionDraft.items description) continues.lineFeed
      have described : Reads false .describable _ _ :=
        reads_description description rfl (by simp [Stage.identifiers]) continues
      exact reads_name name rfl (reads_item rfl (p.recognised follows) described)
  | multiple name parameters =>
    have items : (TagDraft.multiple name parameters).items =
        ⟨.tagName .multiple, name.text⟩ :: parameters.map Identifier.item := List.append_nil _
    rw [items]
    exact reads_name name (lineFeed_items _ continues.lineFeed) (reads_parameters parameters continues)
  | block name description =>
    refine reads_name name (lineFeed_items _ continues.lineFeed) ?_
    exact reads_description description rfl (by simp [Stage.behindName, Stage.identifiers]) continues
  | plain name description =>
    refine reads_name name (lineFeed_items _ continues.lineFeed) ?_
    exact reads_description description rfl (by simp [Stage.behindName, Stage.identifiers]) continues

theorem continues_tags (tags : List TagDraft) {ls : List Lexeme} (continues : Continues ls) :
    Continues ((tags.flatMap TagDraft.items).map DraftItem.lexeme ++ ls) := by
  induction tags with
  | nil => exact continues
  | cons t rest ih =>
    rw [List.flatMap_cons, List.map_append, List.append_assoc]
    exact continues_tag t ih

theorem continues_closing : Continues [CommentDraft.closing] := by
  refine ⟨rfl, ?_⟩
  intro stage notStart notClosed
  have fits : stage.next .slash = some .closed := by
    cases stage <;> first | contradiction | rfl
  have ends : Reads false .closed [] ⟨[], .accepted []⟩ := .ending (step_of_pad .closed rfl)
  have found : Recognised stage.identifiers (Glyph.spell "/" ++ []) .slash 1 := .slash
  exact .lexeme (step_of_recognised blank_lineFeed (by simp) fits found) ends

private theorem reads_stars (n : Nat) {ls : List Lexeme} {e : Ending}
    (reads : Reads false .opening (ls.flatMap Lexeme.glyphs) ⟨ls, e⟩) :
    Reads false .opening ((List.replicate n CommentDraft.star ++ ls).flatMap Lexeme.glyphs)
      ⟨List.replicate n CommentDraft.star ++ ls, e⟩ := by
  induction n with
  | zero => exact reads
  | succ n ih =>
    have unpadded : ∀ g ∈ CommentDraft.star.padding, g.isBlank = true := by simp [CommentDraft.star]
    exact .lexeme (step_of_recognised unpadded (by simp) rfl .star) ih

/-- The lexemes of a draft are read one after the other, and nothing is left. -/
theorem reads_lexemes (d : CommentDraft) :
    Reads true .start (d.lexemes.flatMap Lexeme.glyphs) ⟨d.lexemes, .accepted []⟩ := by
  -- The lexemes are put in front group by group, from the closing slash back to the opening one.
  have tags := continues_tags d.tags continues_closing
  have described : Reads false .opening _ _ := reads_description d.description rfl (by simp [Stage.identifiers]) tags
  have stars := reads_stars d.stars described
  have unpadded : ∀ g ∈ CommentDraft.opening.padding, g.isBlank = true := by simp [CommentDraft.opening]
  have noMark (rest : List Glyph) : (CommentDraft.opening.glyphs ++ rest).head? ≠ some Glyph.byteOrderMark := by
    simp [CommentDraft.opening, Lexeme.glyphs, Glyph.spell, Glyph.byteOrderMark]
  have opened : Reads true .start _ _ :=
    .lexeme (step_of_recognised unpadded (fun _ => noMark _) rfl .slash) stars
  simpa [CommentDraft.lexemes, CommentDraft.items, push] using opened

end Reading

theorem glyphs_items (items : List DraftItem) :
    (items.map DraftItem.lexeme).flatMap Lexeme.glyphs = Glyph.spell (lines (items.map DraftItem.text)) := by
  induction items with
  | nil => rfl
  | cons i rest ih =>
    rw [List.map_cons, List.flatMap_cons, ih, List.map_cons, lines, Glyph.spell_append, Glyph.spell_append]
    rfl

/-- The lexemes of a draft spell its rendering. -/
theorem CommentDraft.glyphs_lexemes (d : CommentDraft) : d.lexemes.flatMap Lexeme.glyphs = Glyph.spell d.render := by
  have stars : (List.replicate d.stars star).flatMap Lexeme.glyphs =
      Glyph.spell (String.ofList (List.replicate d.stars '*')) := by
    induction d.stars with
    | zero => rfl
    | succ n ih =>
      rw [List.replicate_succ, List.flatMap_cons, ih]
      simp [Glyph.spell, List.replicate_succ, star, Lexeme.glyphs]
  rw [lexemes, List.flatMap_append, List.flatMap_append, List.flatMap_cons, stars, glyphs_items, render,
    Glyph.spell_append, Glyph.spell_append, Glyph.spell_append]
  rfl

/-- Reading a rendering gives the lexemes of the draft. -/
theorem CommentDraft.ofSource_render (d : CommentDraft) :
    Reading.ofSource (encode d.render) = ⟨d.lexemes, .accepted []⟩ := by
  have reads := Reading.reads_lexemes d
  rw [glyphs_lexemes] at reads
  rw [Reading.ofSource, Glyph.decode_encode]
  exact (Reading.reads_iff ..).mp reads

/-- A draft with a star, a line of text, and a tag with a parameter. -/
example :
    let line : TextLine := ⟨"Sums up.", (Automaton.text_accepts_iff _ (by decide)).mp (by decide), by decide, by decide⟩
    let name : TagName .multiple := ⟨"@keywords", show _ ∈ _ by decide⟩
    let parameter : Identifier := ⟨"math", (Automaton.identifier_accepts_iff _).mp (by decide)⟩
    CommentDraft.render ⟨1, some ⟨line, []⟩, [.multiple name [parameter]]⟩ = "/*\nSums up.\n@keywords\nmath\n/" := by
  decide +kernel

end DocComment
