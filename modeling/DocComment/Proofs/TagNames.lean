import DocComment.Proofs.RenderedTree
import DocComment.Proofs.Tiling

/-!
# The class of a tag is told by its whole name

A name is recognised with all its letters, so no shorter name that is listed can tell its class. What a node that is a
tag name holds, which symbol it has and what its tag may have follow from that (`tag_class_by_whole_name`).
-/

namespace DocComment

/-! ## Names are recognised whole -/

/-- Names are a sign and letters, one at least. -/
theorem GlyphPattern.matches_tagName_iff (word : List Glyph) :
    tagName.Matches word ↔
      ∃ letters, word = .scalar '@' :: letters ∧ letters ≠ [] ∧ ∀ g ∈ letters, g.isLetter = true := by
  cases word with
  | nil => simp [tagName]
  | cons sign word =>
    simp only [tagName, matches_one_inTurn_cons, matches_onceOrMoreOne_iff, GlyphClass.contains_only, beq_iff_eq,
      GlyphClass.contains_letter]
    simp

namespace Automaton

private theorem tagName_next_of_final {q : tagName.State} (final : tagName.final q = true) (g : Glyph) :
    tagName.next q g = if g.isLetter then some q else none := by
  cases q with
  | name => rfl
  | start | sign => cases final

private theorem tagName_stays_iff {q : tagName.State} (final : tagName.final q = true) (rest : List Glyph) :
    tagName.Stays q rest ↔ ∀ g ∈ rest.head?, g.isLetter = false := by
  constructor
  · intro stays g head
    obtain ⟨more, rfl⟩ := List.head?_eq_some_iff.mp head
    by_contra letter
    rw [Bool.not_eq_false] at letter
    have taken := (stays q (by rw [tagName_next_of_final final, if_pos letter])).1
    rw [final] at taken
    cases taken
  · intro other
    refine stays_of_stuck ?_
    intro g head
    simp [tagName_next_of_final final, other g head]

/-- A word is the longest tag name exactly if it is a name that no letter follows. -/
theorem longest_tagName_iff (word rest : List Glyph) :
    tagName.longest (word ++ rest) = some word.length ↔
      GlyphPattern.tagName.Matches word ∧ ∀ g ∈ rest.head?, g.isLetter = false := by
  rw [longest_append_iff, ← tagName_accepts_iff, accepts, acceptsFrom_iff_reach?]
  constructor
  · rintro ⟨q, reached, final, stays⟩
    exact ⟨⟨q, reached, final⟩, (tagName_stays_iff final rest).mp stays⟩
  · rintro ⟨⟨q, reached, final⟩, other⟩
    exact ⟨q, reached, final, (tagName_stays_iff final rest).mpr other⟩

end Automaton

/-- A name is recognised exactly if no letter follows it, and its class is that of the whole of it. -/
theorem Recognised.tagName_iff {identifiers : Bool} {word rest : List Glyph} {c : TagClass} :
    Recognised identifiers (word ++ rest) (.tagName c) word.length ↔
      GlyphPattern.tagName.Matches word ∧ (∀ g ∈ rest.head?, g.isLetter = false) ∧ c = TagClass.ofName word := by
  constructor
  · intro found
    obtain ⟨sign, body, rfl⟩ := List.exists_cons_of_length_pos found.positive
    rw [List.cons_append] at found
    generalize width : (sign :: body).length = n at found
    cases found with
    | tagName longest =>
      subst width
      obtain ⟨isName, other⟩ := (Automaton.longest_tagName_iff (.scalar '@' :: body) rest).mp longest
      refine ⟨isName, other, ?_⟩
      rw [← List.cons_append, List.take_left]
  · rintro ⟨isName, other, rfl⟩
    have longest := (Automaton.longest_tagName_iff word rest).mpr ⟨isName, other⟩
    obtain ⟨letters, rfl, -⟩ := (GlyphPattern.matches_tagName_iff word).mp isName
    have found : Recognised identifiers (.scalar '@' :: (letters ++ rest)) _ _ := .tagName longest
    rwa [← List.cons_append, List.take_left] at found

/-! ## The class of a name -/

theorem encode_inj {text other : String} (same : encode text = encode other) : text = other := by
  have glyphs := congrArg Glyph.decode same
  rw [Glyph.decode_encode, Glyph.decode_encode] at glyphs
  exact Glyph.spell_inj glyphs

theorem mem_encoded_iff (names : List String) (text : String) : encode text ∈ names.map encode ↔ text ∈ names := by
  rw [List.mem_map]
  constructor
  · rintro ⟨listed, member, same⟩
    exact encode_inj same ▸ member
  · exact fun member => ⟨text, member, rfl⟩

/-- The number of a symbol says which of the lists a text is in as it stands. -/
structure TagClass.IsTold (text : List UInt8) (id : Nat) : Prop where
  single : id = 2 ↔ text ∈ single.names.map encode
  multiple : id = 3 ↔ text ∈ multiple.names.map encode
  block : id = 4 ↔ text ∈ block.names.map encode
  plain : id = 5 ↔ ∀ c : TagClass, text ∉ c.names.map encode

namespace TagClass

theorem ofName_eq_iff {c : TagClass} (listed : c ≠ .plain) (text : String) :
    ofName (Glyph.spell text) = c ↔ text ∈ c.names := by
  constructor
  · rintro rfl
    exact (lists_spell_iff ..).mp (lists_ofName _ listed)
  · exact ofName_listed

theorem ofName_eq_plain_iff (text : String) : ofName (Glyph.spell text) = .plain ↔ ∀ c : TagClass, text ∉ c.names := by
  constructor
  · intro plain c member
    have listed := (lists_spell_iff ..).mpr member
    rw [not_lists_of_plain plain] at listed
    cases listed
  · intro none
    by_contra listed
    exact none _ ((lists_spell_iff ..).mp (lists_ofName _ listed))

theorem isTold_ofName (text : String) : IsTold (encode text) (Symbol.tagName (ofName (Glyph.spell text))).id := by
  have number (c d : TagClass) : (Symbol.tagName c).id = (Symbol.tagName d).id ↔ c = d := by
    cases c <;> cases d <;> simp [Symbol.id]
  refine ⟨?_, ?_, ?_, ?_⟩
  · rw [mem_encoded_iff, ← ofName_eq_iff (by decide)]
    exact number _ .single
  · rw [mem_encoded_iff, ← ofName_eq_iff (by decide)]
    exact number _ .multiple
  · rw [mem_encoded_iff, ← ofName_eq_iff (by decide)]
    exact number _ .block
  · simp only [mem_encoded_iff]
    rw [← ofName_eq_plain_iff]
    exact number _ .plain

end TagClass

/-! ## The bytes of a name -/

/-- A byte that is a letter of a name. -/
def isLetterByte (b : UInt8) : Bool := (Glyph.scalar (Char.ofUInt8 b)).isLetter

/-- A stretch of a source that is a name in whole: the sign and all letters behind it, one at least, up to a byte that
is none or the end of the source. -/
structure Span.IsWholeName (source : List UInt8) (s : Span) : Prop where
  text : s.slice source = 0x40 :: (source.drop (s.start.offset + 1)).takeWhile isLetterByte
  nonempty : 2 ≤ (s.slice source).length
  ends : ∀ b ∈ source[s.stop.offset]?, isLetterByte b = false

namespace Glyph

private theorem encoded_of_isLetterByte {b : UInt8} (letter : isLetterByte b = true) :
    b.toNat < 0x80 ∧ String.utf8EncodeChar (Char.ofUInt8 b) = [b] := by
  have bytes : ∀ n : Fin 256, isLetterByte (UInt8.ofNat n) = true →
      n.val < 0x80 ∧ String.utf8EncodeChar (Char.ofUInt8 (UInt8.ofNat n)) = [UInt8.ofNat n] := by decide +kernel
  have told := bytes ⟨b.toNat, b.toNat_lt⟩
  rw [UInt8.ofNat_toNat] at told
  exact told letter

private theorem bytes_of_isLetter {g : Glyph} (letter : g.isLetter = true) :
    ∃ c b, g = .scalar c ∧ g.bytes = [b] ∧ isLetterByte b = true := by
  cases g with
  | stray b => cases letter
  | scalar c =>
    have small : c.toNat < 0x80 := by
      rw [← GlyphClass.contains_letter] at letter
      simp [GlyphClass.letter, GlyphClass.contains] at letter
      omega
    have letters : ∀ n : Fin 0x80, (scalar (Char.ofNat n)).isLetter = true →
        (scalar (Char.ofNat n)).bytes = [UInt8.ofNat n] ∧ isLetterByte (UInt8.ofNat n) = true := by decide +kernel
    have told := letters ⟨c.toNat, small⟩
    rw [Char.ofNat_toNat] at told
    exact ⟨c, _, rfl, told letter⟩

/-- A letter at the front of some bytes is one in front of what they are decoded as. -/
theorem isLetter_of_head {source : List UInt8} {b : UInt8} (head : source.head? = some b)
    (letter : isLetterByte b = true) : ∃ g ∈ (decode source).head?, g.isLetter = true := by
  obtain ⟨more, rfl⟩ := List.head?_eq_some_iff.mp head
  obtain ⟨ascii, encoded⟩ := encoded_of_isLetterByte letter
  have decoded := decode_around ascii encoded [] more
  rw [List.nil_append] at decoded
  rw [decoded]
  exact ⟨_, rfl, letter⟩

theorem isLetterByte_of_mem {letters : List Glyph} (each : ∀ g ∈ letters, g.isLetter = true) :
    ∀ b ∈ letters.flatMap bytes, isLetterByte b = true := by
  intro b member
  obtain ⟨g, inLetters, inGlyph⟩ := List.mem_flatMap.mp member
  obtain ⟨_, a, rfl, alone, letter⟩ := bytes_of_isLetter (each g inLetters)
  rw [alone, List.mem_singleton] at inGlyph
  exact inGlyph ▸ letter

theorem exists_spell {glyphs : List Glyph} (scalars : ∀ g ∈ glyphs, ∃ c, g = .scalar c) :
    ∃ text : String, glyphs = spell text := by
  induction glyphs with
  | nil => exact ⟨"", rfl⟩
  | cons g glyphs ih =>
    obtain ⟨c, rfl⟩ := scalars g (by simp)
    obtain ⟨text, rfl⟩ := ih fun h member => scalars h (by simp [member])
    exact ⟨String.ofList (c :: text.toList), by simp [spell]⟩

/-- Names are texts. -/
theorem exists_spell_of_matches {word : List Glyph} (isName : GlyphPattern.tagName.Matches word) :
    ∃ text : String, word = spell text := by
  obtain ⟨letters, rfl, -, each⟩ := (GlyphPattern.matches_tagName_iff word).mp isName
  refine exists_spell (List.forall_mem_cons.mpr ⟨⟨_, rfl⟩, ?_⟩)
  intro g member
  obtain ⟨c, _, same, -⟩ := bytes_of_isLetter (each g member)
  exact ⟨c, same⟩

end Glyph

namespace Placed

theorem lexemes_of_cut {lexemes : List Lexeme} {before after : List Placed} {p : Placed}
    (cut : inTurn .origin lexemes = before ++ p :: after) :
    lexemes = before.map lexeme ++ p.lexeme :: after.map lexeme := by
  rw [← map_lexeme_inTurn .origin lexemes, cut, List.map_append, List.map_cons]

/-- At the offset of a lexeme its body stands, and what stands behind that is decoded by itself. -/
theorem bytes_of_cut {source : List UInt8} {before after : List Placed} {p : Placed} {rest : List Glyph}
    (cut : inTurn .origin (Reading.ofSource source).lexemes = before ++ p :: after)
    (split : Glyph.decode source = (before.map lexeme).flatMap Lexeme.glyphs ++ (p.lexeme.glyphs ++ rest)) :
    p.span.stop.offset = p.span.start.offset + (p.lexeme.body.flatMap Glyph.bytes).length ∧
      source.drop p.span.start.offset = p.lexeme.body.flatMap Glyph.bytes ++ source.drop p.span.stop.offset ∧
      Glyph.decode (source.drop p.span.stop.offset) = rest := by
  have stopOffset : p.span.stop.offset = p.span.start.offset + (p.lexeme.body.flatMap Glyph.bytes).length := by
    rw [(span_of_inTurn cut).2, Place.offset_afterAll]
  rw [Lexeme.glyphs, List.append_assoc, ← List.append_assoc] at split
  have behind := Glyph.decode_drop split
  rw [← start_of_inTurn cut] at behind
  have later := Glyph.decode_drop behind
  rw [List.drop_drop, ← stopOffset] at later
  refine ⟨stopOffset, ?_, later⟩
  rw [← Glyph.bytes_decode (source.drop p.span.start.offset), behind, List.flatMap_append, ← later, Glyph.bytes_decode]

/-- The span of a tag name is a name in whole, and its class is that of its text. -/
theorem isWholeName_of_cut {source : List UInt8} {before after : List Placed} {p : Placed}
    (cut : inTurn .origin (Reading.ofSource source).lexemes = before ++ p :: after) {c : TagClass}
    (name : p.token = .tagName c) :
    p.span.IsWholeName source ∧ TagClass.IsTold (p.span.slice source) (Symbol.tagName c).id := by
  obtain ⟨_, _, rest, -, split, lexed, -⟩ := (Reading.reads_ofSource (lexemes_of_cut cut)).lexed
  have found := lexed.found
  rw [show p.lexeme.token = .tagName c from name] at found
  obtain ⟨isName, other, rfl⟩ := Recognised.tagName_iff.mp found
  obtain ⟨letters, body, nonempty, each⟩ := (GlyphPattern.matches_tagName_iff _).mp isName
  have bytes : p.lexeme.body.flatMap Glyph.bytes = 0x40 :: letters.flatMap Glyph.bytes := by
    have sign : Glyph.bytes (.scalar '@') = [0x40] := by decide
    rw [body, List.flatMap_cons, sign, List.singleton_append]
  obtain ⟨stop, onward, later⟩ := bytes_of_cut cut split
  have slice : p.span.slice source = p.lexeme.body.flatMap Glyph.bytes := by
    rw [Span.slice, onward, stop, Nat.add_sub_cancel_left, List.take_left]
  have noLetter : ∀ b ∈ (source.drop p.span.stop.offset).head?, isLetterByte b = false := by
    intro b head
    by_contra letter
    rw [Bool.not_eq_false] at letter
    obtain ⟨g, first, isLetter⟩ := Glyph.isLetter_of_head head letter
    rw [later] at first
    rw [other g first] at isLetter
    cases isLetter
  refine ⟨⟨?_, ?_, ?_⟩, ?_⟩
  · rw [slice, bytes, ← List.drop_drop, onward, bytes, List.cons_append, List.drop_one, List.tail_cons,
      List.takeWhile_append_of_pos (Glyph.isLetterByte_of_mem each)]
    cases tail : source.drop p.span.stop.offset with
    | nil => simp
    | cons b more =>
      rw [tail] at noLetter
      simp [noLetter b rfl]
  · obtain ⟨g, more, rfl⟩ := List.exists_cons_of_ne_nil nonempty
    have wide := g.width_pos
    rw [slice, bytes, List.flatMap_cons, List.length_cons, List.length_append, ← Glyph.width]
    omega
  · rwa [List.head?_drop] at noLetter
  · obtain ⟨text, spelled⟩ := Glyph.exists_spell_of_matches isName
    rw [slice, spelled, bytes_spell]
    exact TagClass.isTold_ofName text

end Placed

/-! ## The tag of a name -/

namespace Node

/-- A tag has no more than what a name of the class with a number lets it have: one parameter, a list of parameters and
no description, or no parameter. -/
structure IsLet (tag : Node) (id : Nat) : Prop where
  isTag : tag.symbol = .tag
  single : id = 2 → (tag.children.countP fun m => m.symbol == .identifier) ≤ 1
  multiple : id = 3 → ∀ m ∈ tag.children, m.symbol ≠ .description
  others : id = 4 ∨ id = 5 → ∀ m ∈ tag.children, m.symbol ≠ .identifier

private theorem of_mem_description {description : List Placed} {n : Node} (member : n ∈ ofDescription description) :
    n.symbol = .description ∧ n.children = [] := by
  cases description with
  | nil => cases member
  | cons first rest =>
    obtain rfl := List.mem_singleton.mp member
    exact ⟨rfl, rfl⟩

section
variable {t : Tag Placed} (derivation : t.IsDerivation Placed.token)
include derivation

/-- Of the children of a tag, only the first is a tag name. -/
theorem eq_name_of_symbol {n : Node} (member : n ∈ (ofTag t).children) {c : TagClass} (name : n.symbol = .tagName c) :
    n = leaf t.name := by
  obtain ⟨-, identifiers, -⟩ := Comment.Stretch.kinds_of_isDerivation derivation
  rcases List.mem_append.mp (show n ∈ (t.name :: t.parameters).map leaf ++ _ from member) with member | member
  · obtain ⟨p, isPart, rfl⟩ := List.mem_map.mp member
    rcases List.mem_cons.mp isPart with rfl | isParameter
    · rfl
    · rw [leaf, symbol, identifiers p isParameter] at name
      cases name
  · rw [(of_mem_description member).1] at name
    cases name

/-- The name of a tag has the class that its symbol says, and lets the tag have what it has. -/
theorem exists_class_of_tag : ∃ c, t.name.token = .tagName c ∧ (ofTag t).IsLet (Symbol.tagName c).id := by
  have noParameter (described : List Placed) {name : Placed} {c : TagClass} (isName : name.token = .tagName c) :
      ∀ m ∈ leaf name :: ofDescription described, m.symbol ≠ .identifier := by
    intro m member isIdentifier
    rcases List.mem_cons.mp member with rfl | member
    · rw [leaf, symbol, isName] at isIdentifier
      cases isIdentifier
    · rw [(of_mem_description member).1] at isIdentifier
      cases isIdentifier
  cases derivation with
  | @single name parameters description isName short identifiers described =>
    refine ⟨.single, isName, rfl, ?_, by simp [Symbol.id], by simp [Symbol.id]⟩
    intro _
    have parametersOnly : ∀ m ∈ ofDescription description, ¬ (m.symbol == .identifier) = true := by
      intro m member
      simp [(of_mem_description member).1]
    have front : (leaf name).symbol = .tagName .single := by rw [leaf, symbol, isName, Symbol.ofToken]
    show ((leaf name :: parameters.map leaf) ++ ofDescription description).countP _ ≤ 1
    rw [List.countP_append, List.countP_eq_zero.mpr parametersOnly, List.countP_cons_of_neg (by simp [front])]
    exact List.countP_le_length.trans (by simpa using short)
  | @multiple name parameters isName identifiers =>
    refine ⟨.multiple, isName, rfl, by simp [Symbol.id], ?_, by simp [Symbol.id]⟩
    intro _ m member isDescription
    have noDescription : m ∈ (name :: parameters).map leaf := by simpa [ofTag, children, ofDescription] using member
    obtain ⟨p, -, rfl⟩ := List.mem_map.mp noDescription
    cases kind : p.token <;> simp [leaf, symbol, kind, Symbol.ofToken] at isDescription
  | @block name description isName described =>
    exact ⟨.block, isName, rfl, by simp [Symbol.id], by simp [Symbol.id], fun _ => noParameter description isName⟩
  | @plain name description isName described =>
    exact ⟨.plain, isName, rfl, by simp [Symbol.id], by simp [Symbol.id], fun _ => noParameter description isName⟩

end

/-- In the tree of a comment, tag names are the names of its tags, and what they are children of are their tags. -/
theorem exists_tag_of_name {c : Comment Placed} (derivation : c.IsDerivation Placed.token) {stop : Place} {n : Node}
    {told : TagClass} (name : n.symbol = .tagName told) :
    (n ∈ (ofComment c stop).nodes → ∃ t ∈ c.tags, n = leaf t.name) ∧
      ∀ m ∈ (ofComment c stop).nodes, n ∈ m.children → ∃ t ∈ c.tags, m = ofTag t ∧ n = leaf t.name := by
  have notDescription {ps : List Placed} : n ∉ ofDescription ps := by
    intro member
    rw [(of_mem_description member).1] at name
    cases name
  have notMark {p : Placed} (isMark : p ∈ c.opening :: c.stars ++ [c.closing]) : n ≠ leaf p := by
    rintro rfl
    have kind : p.token = .slash ∨ p.token = .star := by
      rcases List.mem_append.mp isMark with member | member
      · exact front_kinds derivation p member
      · exact Or.inl (List.mem_singleton.mp member ▸ derivation.closing)
    rcases kind with slash | star
    · rw [leaf, symbol, slash] at name
      cases name
    · rw [leaf, symbol, star] at name
      cases name
  constructor
  · intro member
    cases mem_nodes_ofComment_iff.mp member with
    | root => cases name
    | mark isMark => exact absurd rfl (notMark isMark)
    | description inside => exact absurd inside notDescription
    | tag _ => cases name
    | @inTag t p inTags isPart =>
      have inside : leaf p ∈ (ofTag t).children := List.mem_append_left _ (List.mem_map_of_mem isPart)
      exact ⟨t, inTags, eq_name_of_symbol (derivation.tags t inTags) inside name⟩
    | tagDescription _ inside => exact absurd inside notDescription
  · intro m member inside
    cases mem_nodes_ofComment_iff.mp member with
    | root =>
      have children : (ofComment c stop).children =
          (c.opening :: c.stars).map leaf ++ ofDescription c.description ++ c.tags.map ofTag ++ [leaf c.closing] := rfl
      rw [children, List.mem_append, List.mem_append, List.mem_append] at inside
      rcases inside with ((inside | inside) | inside) | inside
      · obtain ⟨p, isMark, rfl⟩ := List.mem_map.mp inside
        exact absurd rfl (notMark (List.mem_append_left _ isMark))
      · exact absurd inside notDescription
      · obtain ⟨t, -, rfl⟩ := List.mem_map.mp inside
        cases name
      · exact absurd (List.mem_singleton.mp inside) (notMark (by simp))
    | mark _ => cases inside
    | description isDescription =>
      rw [(of_mem_description isDescription).2] at inside
      cases inside
    | @tag t inTags => exact ⟨t, inTags, rfl, eq_name_of_symbol (derivation.tags t inTags) inside name⟩
    | inTag _ _ => cases inside
    | tagDescription _ isDescription =>
      rw [(of_mem_description isDescription).2] at inside
      cases inside

end Node

/-- A tag name in the tree of a valid source is a sign and all letters behind it. Its symbol is that of the list which
this whole text is in, or of no list. It is the child of a tag, which has no more than a name of that class lets it
have. -/
theorem tag_class_by_whole_name {source : List UInt8} {root : Node} (valid : Node.ofSource? source = some root)
    {n : Node} (member : n ∈ root.nodes) (name : n.symbol.kind = "tag_name") :
    n.span.IsWholeName source ∧ TagClass.IsTold (n.span.slice source) n.symbol.id ∧
      (∃ tag ∈ root.nodes, n ∈ tag.children) ∧ ∀ tag ∈ root.nodes, n ∈ tag.children → tag.IsLet n.symbol.id := by
  obtain ⟨told, isName⟩ : ∃ told, n.symbol = .tagName told := by
    cases symbol : n.symbol <;> simp [symbol, Symbol.kind] at name
    exact ⟨_, rfl⟩
  obtain ⟨c, trailing, derivation, parts, -, rfl⟩ := Node.exists_of_ofSource? valid
  obtain ⟨ofTree, ofChildren⟩ := Node.exists_tag_of_name derivation isName
  obtain ⟨t, inTags, rfl⟩ := ofTree member
  obtain ⟨told, class_, -⟩ := Node.exists_class_of_tag (derivation.tags t inTags)
  have inTurn : t.name ∈ Placed.inTurn .origin (Reading.ofSource source).lexemes := by
    have inside : t.name ∈ c.tags.flatMap Tag.parts := List.mem_flatMap_of_mem inTags (by simp [Tag.parts])
    rw [← parts, Comment.parts]
    simp [inside]
  obtain ⟨before, after, cut⟩ := List.append_of_mem inTurn
  obtain ⟨whole, isTold⟩ := Placed.isWholeName_of_cut cut class_
  have child : Node.leaf t.name ∈ (Node.ofTag t).children := by simp [Node.ofTag, Node.children]
  refine ⟨whole, ?_, ⟨Node.ofTag t, Node.mem_nodes_ofComment_iff.mpr (.tag inTags), child⟩, ?_⟩
  · rwa [Node.leaf, Node.symbol, class_]
  · intro tag inTree inside
    obtain ⟨u, inTags, rfl, same⟩ := ofChildren tag inTree inside
    obtain ⟨told, class_, isLet⟩ := Node.exists_class_of_tag (derivation.tags u inTags)
    rwa [same, Node.leaf, Node.symbol, class_]

/-- A listed name in front of more letters tells nothing. -/
theorem tag_class_by_whole_name_longer :
    ∃ root n, Node.ofSource? (encode "/**\n@exampleIf a\n/") = some root ∧ n ∈ root.nodes ∧
      n.symbol.kind = "tag_name" ∧ n.symbol.id = 5 ∧ "@example" ∈ TagClass.single.names ∧
      n.span.IsWholeName (encode "/**\n@exampleIf a\n/") ∧
      TagClass.IsTold (n.span.slice (encode "/**\n@exampleIf a\n/")) n.symbol.id ∧
      (∃ tag ∈ root.nodes, n ∈ tag.children) ∧ ∀ tag ∈ root.nodes, n ∈ tag.children → tag.IsLet n.symbol.id := by
  have shown : ((Node.ofSource? (encode "/**\n@exampleIf a\n/")).any fun root =>
      root.nodes.any fun n => n.symbol.kind == "tag_name" && n.symbol.id == 5) = true := by decide +kernel
  obtain ⟨root, valid, inTree⟩ := (Option.any_eq_true ..).mp shown
  obtain ⟨n, member, told⟩ := List.any_eq_true.mp inTree
  simp only [Bool.and_eq_true, beq_iff_eq] at told
  exact ⟨root, n, valid, member, told.1, told.2, by decide, tag_class_by_whole_name valid member told.1⟩

end DocComment
