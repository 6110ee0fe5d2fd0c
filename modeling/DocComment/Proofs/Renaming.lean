import DocComment.Proofs.Skeleton
import DocComment.Proofs.TagNames
import DocComment.Session

/-!
# Tags under other names

The name of a tag may be replaced by any other name of its class: all other lexemes stay, and so does the S-expression
(`renamed_tag_keeps_tree`). What is before the name may look at it, but takes in no more of one name than of another
(`Recognised.renamed`), and what is behind it is read at the stage that the class leads to.
-/

namespace DocComment

namespace Automaton

/-! ## Names that stand behind a match -/

theorem sign_stops_identifier (q : IdentifierState) : identifier.next q (.scalar '@') = none := by
  cases q <;> rfl

theorem sign_stops_brace (q : BraceState) : brace.next q (.scalar '@') = none := by
  cases q <;> rfl

private theorem not_breaks_of_isLetter {g : Glyph} (letter : g.isLetter = true) :
    breaksText g = false ∧ g ≠ .scalar '*' := by
  refine ⟨?_, ?_⟩
  · by_contra breaks
    simp only [Bool.not_eq_false, breaksText, Glyph.isNull, Bool.or_eq_true, beq_iff_eq] at breaks
    rcases breaks with ((rfl | rfl) | rfl) | rfl <;> cases letter
  · rintro rfl
    cases letter

/-- In a stretch that only stars could end, letters change nothing. -/
private theorem text_letters {q : text.State} (again : q = TextState.again) {letters : List Glyph}
    (each : ∀ g ∈ letters, g.isLetter = true) : text.reach? q letters = some q ∧ text.Stays q letters := by
  induction letters with
  | nil => exact ⟨rfl, trivial⟩
  | cons g letters ih =>
    obtain ⟨notBreak, notStar⟩ := not_breaks_of_isLetter (each g (by simp))
    have next : text.next q g = some q := by
      subst again
      simp [text, notBreak, notStar]
    obtain ⟨reached, stays⟩ := ih fun a member => each a (by simp [member])
    refine ⟨by rw [reach?_cons, next, Option.bind_some, reached], ?_⟩
    intro behind there
    obtain rfl := Option.some.inj (next.symm.trans there)
    refine ⟨?_, stays⟩
    subst again
    rfl

variable {name other : List Glyph} (isName : GlyphPattern.tagName.Matches name)
  (isOther : GlyphPattern.tagName.Matches other)
include isName isOther

private theorem text_stays_renamed {rest : List Glyph} (q : text.State) (stays : text.Stays q (name ++ rest)) :
    text.Stays q (other ++ rest) := by
  obtain ⟨letters, rfl, -, each⟩ := (GlyphPattern.matches_tagName_iff _).mp isName
  obtain ⟨others, rfl, -, eachOther⟩ := (GlyphPattern.matches_tagName_iff _).mp isOther
  -- A text takes in the sign, unless it is in a stretch that only stars could end.
  have sign : text.next q (.scalar '@') = none ∨
      ∃ behind, text.next q (.scalar '@') = some behind ∧ (text.final behind = true ∨ behind = TextState.again) := by
    change TextState at q
    cases q with
    | start => exact Or.inl rfl
    | lead | body => exact Or.inr ⟨TextState.body, rfl, Or.inl rfl⟩
    | stars | again => exact Or.inr ⟨TextState.again, rfl, Or.inr rfl⟩
  intro behind next
  rcases sign with stuck | ⟨_, there, final | again⟩
  · rw [stuck] at next
    cases next
  · have taken := (stays _ there).1
    rw [final] at taken
    cases taken
  · obtain rfl := Option.some.inj (next.symm.trans there)
    obtain ⟨notFinal, later⟩ := stays behind next
    obtain ⟨reached, -⟩ := text_letters again each
    obtain ⟨reachedOther, inside⟩ := text_letters again eachOther
    refine ⟨notFinal, (stays_append_iff ..).mpr ⟨inside, ?_⟩⟩
    intro last there
    obtain rfl := Option.some.inj (reachedOther.symm.trans there)
    exact ((stays_append_iff ..).mp later).2 behind reached

private theorem tagName_stays_renamed {rest : List Glyph} (q : tagName.State) (stays : tagName.Stays q (name ++ rest)) :
    tagName.Stays q (other ++ rest) := by
  obtain ⟨others, rfl, -⟩ := (GlyphPattern.matches_tagName_iff _).mp isOther
  obtain ⟨letters, rfl, nonempty, each⟩ := (GlyphPattern.matches_tagName_iff _).mp isName
  change TagNameState at q
  cases q with
  | sign | name => exact stays_of_stuck (by simp [tagName, Glyph.isLetter, Glyph.satisfies])
  | start =>
    -- From its start, a name would take in the first letter of the other.
    obtain ⟨g, letters, rfl⟩ := List.exists_cons_of_ne_nil nonempty
    have first : tagName.next TagNameState.sign g = some TagNameState.name := by simp [tagName, each g (by simp)]
    have taken := ((stays TagNameState.sign rfl).2 TagNameState.name first).1
    cases taken

end Automaton

/-- A lexeme that is recognised before a name is recognised before another name. -/
theorem Recognised.renamed {identifiers : Bool} {t : Token} {word mid name other rest : List Glyph}
    (isName : GlyphPattern.tagName.Matches name) (isOther : GlyphPattern.tagName.Matches other)
    (found : Recognised identifiers (word ++ (mid ++ (name ++ rest))) t word.length) :
    Recognised identifiers (word ++ (mid ++ (other ++ rest))) t word.length := by
  have sign {m : Automaton} (stops : ∀ q, m.next q (.scalar '@') = none)
      (found : m.longest (word ++ (mid ++ (name ++ rest))) = some word.length) :
      m.longest (word ++ (mid ++ (other ++ rest))) = some word.length := by
    obtain ⟨letters, rfl, -⟩ := (GlyphPattern.matches_tagName_iff _).mp isOther
    exact Automaton.longest_seal stops word mid (letters ++ rest) found
  refine found.replaced ?_ ?_ ?_ ?_
  · exact fun _ => Automaton.longest_replaced (Automaton.tagName_stays_renamed isName isOther) word mid
  · exact fun _ => sign Automaton.sign_stops_brace
  · exact fun _ => sign Automaton.sign_stops_identifier
  · exact fun _ => Automaton.longest_replaced (Automaton.text_stays_renamed isName isOther) word mid

/-! ## Classes -/

/-- Names that are alike in whether they ask for one parameter and whether they ask for a list of them. -/
def TagClass.Alike (name other : List Glyph) : Prop :=
  ∀ c ∈ [TagClass.single, TagClass.multiple], c.lists name = c.lists other

namespace Stage

theorem behindName_ofName (name : List Glyph) :
    behindName (TagClass.ofName name) =
      if TagClass.single.lists name then .oneParameter
      else if TagClass.multiple.lists name then .parameters else .describable := by
  unfold TagClass.ofName
  split_ifs <;> rfl

theorem next_tagName_alike {name other : List Glyph} (alike : TagClass.Alike name other) (stage : Stage) :
    stage.next (.tagName (TagClass.ofName name)) = stage.next (.tagName (TagClass.ofName other)) := by
  have same : behindName (TagClass.ofName name) = behindName (TagClass.ofName other) := by
    rw [behindName_ofName, behindName_ofName, alike .single (by simp), alike .multiple (by simp)]
  cases stage <;> simp [next, same]

end Stage

namespace Reading

/-! ## Readings under another name -/

/-- The lexeme of a tag name. -/
def nameLexeme (padding name : List Glyph) : Lexeme := ⟨.tagName (TagClass.ofName name), padding, name⟩

/-- With another name of the same class, a source is read as before up to the name and from the name on. -/
theorem Reads.renamed {atFront : Bool} {stage : Stage} {input : List Glyph} {before after : List Lexeme} {l : Lexeme}
    {e : Ending} {c : TagClass} (reads : Reads atFront stage input ⟨before ++ l :: after, e⟩)
    (isName : l.token = .tagName c) {name : List Glyph} (isOther : GlyphPattern.tagName.Matches name)
    (alike : TagClass.Alike name l.body) :
    ∃ rest, input = before.flatMap Lexeme.glyphs ++ (l.glyphs ++ rest) ∧
      Reads atFront stage (before.flatMap Lexeme.glyphs ++ ((nameLexeme l.padding name).glyphs ++ rest))
        ⟨before ++ nameLexeme l.padding name :: after, e⟩ := by
  obtain ⟨reached, behind, rest, run, split, lexed, onward⟩ := reads.lexed
  obtain ⟨fits, padded, found⟩ := lexed
  rw [isName] at fits found
  obtain ⟨matched, noLetter, rfl⟩ := Recognised.tagName_iff.mp found
  have fitsToo : reached.next (nameLexeme l.padding name).token = some behind := by
    rw [← fits]
    exact Stage.next_tagName_alike alike reached
  have paddedToo : pad (atFront && before.isEmpty) ((nameLexeme l.padding name).glyphs ++ rest) =
      (l.padding, name ++ rest) := by
    obtain ⟨letters, body, -⟩ := (GlyphPattern.matches_tagName_iff _).mp matched
    obtain ⟨others, rfl, -⟩ := (GlyphPattern.matches_tagName_iff _).mp isOther
    rw [Lexeme.glyphs, body, List.append_assoc] at padded
    rw [Lexeme.glyphs, List.append_assoc]
    exact pad_of_pad padded _
  have foundToo : Recognised reached.identifiers (name ++ rest) (nameLexeme l.padding name).token name.length :=
    Recognised.tagName_iff.mpr ⟨isOther, noLetter, rfl⟩
  refine ⟨rest, split, ?_⟩
  rw [split] at reads
  refine reads.resumed ?_ run (.lexeme ((step_glyphs_iff ..).mpr ⟨fitsToo, paddedToo, foundToo⟩) onward)
  intro identifiers front l' mid cut found
  rw [Lexeme.glyphs, List.append_assoc, ← List.append_assoc (mid.flatMap Lexeme.glyphs)] at found ⊢
  exact found.renamed matched isOther

/-- The kinds of the tokens of a reading in order. -/
def kinds (r : Reading) : List String := r.tokens.map fun t => (Symbol.ofToken t).kind

theorem kinds_renamed {r s : Reading} {before after : List Lexeme} {l : Lexeme} {c : TagClass}
    (cut : r.lexemes = before ++ l :: after) (isName : l.token = .tagName c) {padding name : List Glyph}
    (renamed : s.lexemes = before ++ nameLexeme padding name :: after) :
    s.kinds = r.kinds ∧ skeleton s.tokens = skeleton r.tokens := by
  have one (d : TagClass) : skeleton [.tagName d] = [.name] := rfl
  have tokens : r.tokens = before.map Lexeme.token ++ ([.tagName c] ++ after.map Lexeme.token) := by
    rw [Reading.tokens, cut, List.map_append, List.map_cons, isName, List.singleton_append]
  have tokensToo : s.tokens =
      before.map Lexeme.token ++ ([.tagName (TagClass.ofName name)] ++ after.map Lexeme.token) := by
    rw [Reading.tokens, renamed, List.map_append, List.map_cons, List.singleton_append]
    rfl
  constructor
  · rw [kinds, kinds, tokens, tokensToo]
    simp [Symbol.ofToken, Symbol.kind]
  · rw [tokens, tokensToo, Mark.skeleton_append, Mark.skeleton_append, Mark.skeleton_append, Mark.skeleton_append]
    rfl

end Reading

/-! ## Texts of identifiers -/

namespace Node

/-- The node is an identifier. -/
def isIdentifier (n : Node) : Bool := n.symbol == .identifier

/-- The texts of the identifiers in a tree, in order. -/
def identifierTexts (source : List UInt8) (root : Node) : List (List UInt8) :=
  (root.nodes.filter isIdentifier).map fun n => n.span.slice source

private theorem filter_leaves (ps : List Placed) :
    (ps.map leaf).filter isIdentifier = (ps.filter fun p => p.token == .identifier).map leaf := by
  have same (p : Placed) : isIdentifier (leaf p) = (p.token == .identifier) := by
    cases kind : p.token <;> simp [isIdentifier, leaf, symbol, kind, Symbol.ofToken]
  rw [List.filter_map]
  exact congrArg _ (List.filter_congr fun p _ => same p)

private theorem filter_description (description : List Placed) :
    (ofDescription description).filter isIdentifier = [] := by
  cases description with
  | nil => rfl
  | cons first rest => rfl

private theorem filter_prose {description : List Placed} (described : IsDescription Placed.token description) :
    (description.filter fun p => p.token == .identifier) = [] := by
  have prose := Comment.Stretch.prose_of_isDescription described
  refine List.filter_eq_nil_iff.mpr ?_
  intro p member isIdentifier
  have isProse := prose p member
  rw [beq_iff_eq.mp isIdentifier] at isProse
  cases isProse

private theorem filter_tags {tags : List (Tag Placed)} (derivations : ∀ t ∈ tags, t.IsDerivation Placed.token) :
    (nodesAmong (tags.map ofTag)).filter isIdentifier =
      ((tags.flatMap Tag.parts).filter fun p => p.token == .identifier).map leaf := by
  induction tags with
  | nil => rfl
  | cons t rest ih =>
    have own : (ofTag t).nodes.filter isIdentifier = (t.parts.filter fun p => p.token == .identifier).map leaf := by
      have nodes : (ofTag t).nodes =
          ofTag t :: nodesAmong ((t.name :: t.parameters).map leaf ++ ofDescription t.description) := rfl
      have other : ¬ isIdentifier (ofTag t) = true := Bool.false_ne_true
      have described := (Comment.Stretch.kinds_of_isDerivation (derivations t (by simp))).2.2
      rw [nodes, List.filter_cons_of_neg other, nodesAmong_append, nodesAmong_leaves, nodesAmong_ofDescription,
        List.filter_append, filter_leaves, filter_description, List.append_nil, Tag.parts, List.filter_append,
        filter_prose described, List.append_nil]
    rw [List.map_cons, nodesAmong, List.filter_append, own, ih fun u member => derivations u (by simp [member]),
      List.flatMap_cons, List.filter_append, List.map_append]

/-- The identifiers in the tree of a comment are those of its parts. -/
theorem filter_nodes_ofComment {c : Comment Placed} (derivation : c.IsDerivation Placed.token) (stop : Place) :
    (ofComment c stop).nodes.filter isIdentifier = (c.parts.filter fun p => p.token == .identifier).map leaf := by
  have nodes : (ofComment c stop).nodes = ofComment c stop ::
      nodesAmong ((c.opening :: c.stars).map leaf ++ ofDescription c.description ++ c.tags.map ofTag ++
        [c.closing].map leaf) := rfl
  have other : ¬ isIdentifier (ofComment c stop) = true := Bool.false_ne_true
  rw [nodes, List.filter_cons_of_neg other, nodesAmong_append, nodesAmong_append, nodesAmong_append, nodesAmong_leaves,
    nodesAmong_leaves, nodesAmong_ofDescription, Comment.parts]
  simp only [List.filter_append, filter_leaves, filter_description, filter_prose derivation.description,
    filter_tags derivation.tags, List.map_append, List.append_nil]

/-- The texts of the identifiers in the tree of a source are the bodies of its identifiers. -/
theorem identifierTexts_eq {source : List UInt8} {root : Node} (valid : ofSource? source = some root) :
    root.identifierTexts source =
      ((Reading.ofSource source).lexemes.filter fun l => l.token == .identifier).map fun l =>
        l.body.flatMap Glyph.bytes := by
  obtain ⟨c, trailing, derivation, parts, read, rfl⟩ := exists_of_ofSource? valid
  have body : ∀ p ∈ c.parts, (leaf p).span.slice source = p.lexeme.body.flatMap Glyph.bytes := by
    intro p member
    rw [parts] at member
    obtain ⟨before, after, cut⟩ := List.append_of_mem member
    have alone : Placed.inTurn .origin (Reading.ofSource source).lexemes = before ++ [p] ++ after := by simp [cut]
    have covered := Placed.slice_cover read alone
    rwa [List.flatMap_nil, List.append_nil] at covered
  have lexemes : (Reading.ofSource source).lexemes = c.parts.map Placed.lexeme := by
    rw [parts, Placed.map_lexeme_inTurn]
  rw [identifierTexts, filter_nodes_ofComment derivation, lexemes, List.filter_map, List.map_map, List.map_map]
  refine List.map_congr_left ?_
  intro p member
  exact body p (List.mem_of_mem_filter member)

end Node

/-! ## Another name in a source -/

/-- A text that starts with an ASCII character may take the place of the body of a lexeme. What is around it is decoded
as before. -/
theorem Placed.exists_spliced {source : List UInt8} {trailing : List Glyph}
    (accepted : (Reading.ofSource source).ending = .accepted trailing) {before after : List Placed} {p : Placed}
    (cut : inTurn .origin (Reading.ofSource source).lexemes = before ++ p :: after) {rest : List Glyph}
    (split : Glyph.decode source = (before.map lexeme).flatMap Lexeme.glyphs ++ (p.lexeme.glyphs ++ rest))
    {text : String} {c : Char} (starts : text.toList.head? = some c) (ascii : c.toNat < 0x80) :
    ∃ edited, Session.splice? source p.span.start.offset p.span.stop.offset (encode text) = some edited ∧
      Glyph.decode edited =
        (before.map lexeme).flatMap Lexeme.glyphs ++ (p.lexeme.padding ++ Glyph.spell text ++ rest) := by
  have bound : p.span.start.offset ≤ p.span.stop.offset ∧ p.span.stop.offset ≤ source.length := by
    refine ⟨?_, stop_le_of_read (Reading.behindAll_of_accepted accepted).2 cut⟩
    rw [(span_of_inTurn cut).2, Place.offset_afterAll]
    exact Nat.le_add_right _ _
  have stop : p.span.stop.offset = (((before.map lexeme).flatMap Lexeme.glyphs ++ p.lexeme.padding ++
      p.lexeme.body).flatMap Glyph.bytes).length := by
    rw [stop_of_inTurn cut, ← List.flatMap_map lexeme]
    simp [Lexeme.glyphs]
  refine ⟨_, by rw [Session.splice?, if_pos bound], ?_⟩
  rw [Lexeme.glyphs, List.append_assoc, ← List.append_assoc] at split
  rw [start_of_inTurn cut, stop, Glyph.decode_spliced split starts ascii, List.append_assoc, List.append_assoc,
    List.append_assoc]

/-- Any tag name of a valid source may be replaced by another name that is in the same of the lists for one parameter
and for several, or like it in neither. The source stays valid, all other lexemes stay as they are, and so do the kinds
of all tokens, the S-expression, and the texts of the identifiers. -/
theorem renamed_tag_keeps_tree {source : List UInt8} {root : Node} (valid : Node.ofSource? source = some root)
    {before after : List Placed} {p : Placed}
    (cut : Placed.inTurn .origin (Reading.ofSource source).lexemes = before ++ p :: after) {c : TagClass}
    (isName : p.token = .tagName c) {name : String} (isOther : GlyphPattern.tagName.Matches (Glyph.spell name))
    (alike : TagClass.Alike (Glyph.spell name) p.lexeme.body) :
    ∃ edited root',
      Session.splice? source p.span.start.offset p.span.stop.offset (encode name) = some edited ∧
        Node.ofSource? edited = some root' ∧
        (Reading.ofSource edited).lexemes = before.map Placed.lexeme ++
          Reading.nameLexeme p.lexeme.padding (Glyph.spell name) :: after.map Placed.lexeme ∧
        (Reading.ofSource edited).kinds = (Reading.ofSource source).kinds ∧
        root'.expression = root.expression ∧ root'.identifierTexts edited = root.identifierTexts source := by
  have lexemes := Placed.lexemes_of_cut cut
  obtain ⟨trailing, accepted⟩ := (Node.isSome_ofSource?_iff source).mp (by rw [valid]; rfl)
  obtain ⟨rest, split, renamed⟩ := (Reading.reads_ofSource lexemes).renamed isName isOther alike
  have starts : name.toList.head? = some '@' := by
    obtain ⟨letters, spelled, -⟩ := (GlyphPattern.matches_tagName_iff _).mp isOther
    have first : (Glyph.spell name).head? = some (.scalar '@') := by rw [spelled, List.head?_cons]
    simpa [Glyph.spell] using first
  obtain ⟨edited, spliced, decoded⟩ := Placed.exists_spliced accepted cut split starts (by decide)
  have read : Reading.ofSource edited = ⟨before.map Placed.lexeme ++
      Reading.nameLexeme p.lexeme.padding (Glyph.spell name) :: after.map Placed.lexeme, .accepted trailing⟩ := by
    rw [Lexeme.glyphs, Reading.nameLexeme, ← decoded, accepted] at renamed
    exact (Reading.reads_iff ..).mp renamed
  have validToo : (Node.ofSource? edited).isSome = true :=
    (Node.isSome_ofSource?_iff edited).mpr ⟨trailing, by rw [read]⟩
  obtain ⟨root', found⟩ := Option.isSome_iff_exists.mp validToo
  have lexemesToo : (Reading.ofSource edited).lexemes = _ := congrArg Reading.lexemes read
  obtain ⟨kinds, same⟩ := Reading.kinds_renamed lexemes isName lexemesToo
  refine ⟨edited, root', spliced, found, lexemesToo, kinds, (Node.expression_eq_iff found valid).mpr same, ?_⟩
  have drop (l : Lexeme) (ls : List Lexeme) {d : TagClass} (isTagName : l.token = .tagName d) :
      ((l :: ls).filter fun l => l.token == .identifier) = ls.filter fun l => l.token == .identifier := by
    refine List.filter_cons_of_neg ?_
    rw [isTagName]
    exact Bool.false_ne_true
  rw [Node.identifierTexts_eq found, Node.identifierTexts_eq valid, lexemes, lexemesToo, List.filter_append,
    List.filter_append, drop p.lexeme _ isName, drop (Reading.nameLexeme _ _) _ rfl]

/-- Behind an open brace, another tag with one parameter stands in for the first. -/
theorem renamed_tag_keeps_tree_brace :
    ∃ root before after, Node.ofSource? (encode "/*a \x7b\n*@param b\n/") = some root ∧
      Placed.inTurn .origin (Reading.ofSource (encode "/*a \x7b\n*@param b\n/")).lexemes =
        before ++ ⟨⟨.tagName .single, [], Glyph.spell "@param"⟩, ⟨⟨7, 1, 1⟩, ⟨13, 1, 7⟩⟩⟩ :: after ∧
      GlyphPattern.tagName.Matches (Glyph.spell "@includeRmd") ∧
      TagClass.Alike (Glyph.spell "@includeRmd") (Glyph.spell "@param") ∧
      ∃ edited root', Session.splice? (encode "/*a \x7b\n*@param b\n/") 7 13 (encode "@includeRmd") = some edited ∧
        Node.ofSource? edited = some root' ∧
        (Reading.ofSource edited).lexemes = before.map Placed.lexeme ++
          Reading.nameLexeme [] (Glyph.spell "@includeRmd") :: after.map Placed.lexeme ∧
        (Reading.ofSource edited).kinds = (Reading.ofSource (encode "/*a \x7b\n*@param b\n/")).kinds ∧
        root'.expression = root.expression ∧
        root'.identifierTexts edited = root.identifierTexts (encode "/*a \x7b\n*@param b\n/") := by
  have valid : (Node.ofSource? (encode "/*a \x7b\n*@param b\n/")).isSome = true := by decide +kernel
  obtain ⟨root, found⟩ := Option.isSome_iff_exists.mp valid
  have read : (Reading.ofSource (encode "/*a \x7b\n*@param b\n/")).lexemes =
      [⟨.slash, [], Glyph.spell "/"⟩, ⟨.star, [], Glyph.spell "*"⟩, ⟨.text, [], Glyph.spell "a "⟩,
        ⟨.brace, [], Glyph.spell "\x7b\n*"⟩, ⟨.tagName .single, [], Glyph.spell "@param"⟩,
        ⟨.identifier, Glyph.spell " ", Glyph.spell "b"⟩, ⟨.slash, Glyph.spell "\n", Glyph.spell "/"⟩] := by
    decide +kernel
  have cut : Placed.inTurn .origin (Reading.ofSource (encode "/*a \x7b\n*@param b\n/")).lexemes =
      [⟨⟨.slash, [], Glyph.spell "/"⟩, ⟨⟨0, 0, 0⟩, ⟨1, 0, 1⟩⟩⟩, ⟨⟨.star, [], Glyph.spell "*"⟩, ⟨⟨1, 0, 1⟩, ⟨2, 0, 2⟩⟩⟩,
        ⟨⟨.text, [], Glyph.spell "a "⟩, ⟨⟨2, 0, 2⟩, ⟨4, 0, 4⟩⟩⟩,
        ⟨⟨.brace, [], Glyph.spell "\x7b\n*"⟩, ⟨⟨4, 0, 4⟩, ⟨7, 1, 1⟩⟩⟩] ++
      ⟨⟨.tagName .single, [], Glyph.spell "@param"⟩, ⟨⟨7, 1, 1⟩, ⟨13, 1, 7⟩⟩⟩ ::
        [⟨⟨.identifier, Glyph.spell " ", Glyph.spell "b"⟩, ⟨⟨14, 1, 8⟩, ⟨15, 1, 9⟩⟩⟩,
          ⟨⟨.slash, Glyph.spell "\n", Glyph.spell "/"⟩, ⟨⟨16, 2, 0⟩, ⟨17, 2, 1⟩⟩⟩] := by
    rw [read]
    rfl
  have isOther : GlyphPattern.tagName.Matches (Glyph.spell "@includeRmd") :=
    (Automaton.tagName_accepts_iff _).mp (by decide +kernel)
  have alike : TagClass.Alike (Glyph.spell "@includeRmd") (Glyph.spell "@param") := by
    unfold TagClass.Alike
    decide +kernel
  exact ⟨root, _, _, found, cut, isOther, alike, renamed_tag_keeps_tree found cut rfl isOther alike⟩

end DocComment
