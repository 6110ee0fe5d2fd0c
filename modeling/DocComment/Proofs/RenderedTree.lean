import DocComment.Proofs.Rendering

/-!
# The tree of a rendering

Without its places, the tree of a source is told by the comment that its lexemes make up. Those of a rendered draft
make up the draft again, so the tree of the rendering is the one that the draft says.
-/

namespace DocComment

/-! ## Comments of lexemes -/

namespace Comment
variable {α β : Type}

theorem parts_map (f : α → β) (c : Comment α) : (c.map f).parts = c.parts.map f := by
  simp [parts, map, Tag.map, Tag.parts, List.map_flatMap, List.flatMap_map]

private theorem isDescription_map {token : β → Token} {f : α → β} {description : List α}
    (described : IsDescription (token ∘ f) description) : IsDescription token (description.map f) := by
  cases description with
  | nil => trivial
  | cons first rest =>
    refine ⟨described.1, ?_⟩
    simpa using described.2

/-- A derivation stays one when its parts are replaced by others of the same tokens. -/
theorem IsDerivation.map {token : β → Token} {f : α → β} {c : Comment α} (derivation : c.IsDerivation (token ∘ f)) :
    (c.map f).IsDerivation token := by
  refine ⟨derivation.opening, ?_, isDescription_map derivation.description, ?_, derivation.closing⟩
  · simpa [Comment.map] using derivation.stars
  · intro mapped member
    obtain ⟨t, inTags, rfl⟩ := List.mem_map.mp member
    cases derivation.tags t inTags with
    | single name length identifiers described =>
      exact .single name (by simpa using length) (by simpa using identifiers) (isDescription_map described)
    | multiple name identifiers => exact .multiple name (by simpa using identifiers)
    | block name described => exact .block name (isDescription_map described)
    | plain name described => exact .plain name (isDescription_map described)

end Comment

/-- The sketch of a lexeme. -/
def Lexeme.sketch (l : Lexeme) : Sketch := .leaf (.ofToken l.token) (l.body.flatMap Glyph.bytes)

/-- The sketch of a run of lexemes, if it is not empty. -/
def Lexeme.sketchAll : List Lexeme → List Sketch
  | [] => []
  | first :: rest => [.leaf .description ((first.body ++ rest.flatMap Lexeme.glyphs).flatMap Glyph.bytes)]

/-- The sketch of a tag of lexemes. -/
def Tag.sketch (t : Tag Lexeme) : Sketch :=
  .branch .tag (t.name.sketch :: t.parameters.map Lexeme.sketch ++ Lexeme.sketchAll t.description)

/-- The sketch of a comment of lexemes. -/
def Comment.sketch (c : Comment Lexeme) : Sketch :=
  .branch .document (c.opening.sketch :: c.stars.map Lexeme.sketch ++ Lexeme.sketchAll c.description ++
    c.tags.map Tag.sketch ++ [c.closing.sketch])

/-! ## Trees without their places -/

namespace Node

private theorem sketches_eq_map (source : List UInt8) (nodes : List Node) :
    sketches source nodes = nodes.map (sketch source) := by
  induction nodes with
  | nil => rfl
  | cons n rest ih => rw [sketches, ih, List.map_cons]

private theorem sketch_children (source : List UInt8) (s : Symbol) (span : Span) (first : Node) (rest : List Node) :
    sketch source (.node s span (first :: rest)) = .branch s ((first :: rest).map (sketch source)) := by
  rw [sketch, sketches_eq_map, List.map_cons]

/-- Runs of some lexemes cover the first of them without its padding, and the others. -/
def Covers (source : List UInt8) (ps : List Placed) : Prop :=
  ∀ first rest, first :: rest <:+: ps →
    (cover first rest).slice source = (first.lexeme.body ++ rest.flatMap fun p => p.lexeme.glyphs).flatMap Glyph.bytes

/-- The lexemes of a source that is read cover what they stand for. -/
theorem covers_of_read {source : List UInt8} {lexemes : List Lexeme} {trailing : List Glyph}
    (read : Glyph.decode source = lexemes.flatMap Lexeme.glyphs ++ trailing) {ps : List Placed}
    (inTurn : ps = Placed.inTurn .origin lexemes) : Covers source ps := by
  rintro first rest ⟨before, after, cut⟩
  exact Placed.slice_cover read (inTurn.symm.trans cut.symm)

variable {source : List UInt8} {ps : List Placed} (covers : Covers source ps)
include covers

private theorem sketch_leaf {p : Placed} (member : p ∈ ps) : sketch source (leaf p) = p.lexeme.sketch := by
  obtain ⟨before, after, rfl⟩ := List.append_of_mem member
  have text := covers p [] ⟨before, after, by simp⟩
  rw [List.flatMap_nil, List.append_nil] at text
  exact congrArg (Sketch.leaf _) text

theorem sketch_leaves {run : List Placed} (inside : ∀ p ∈ run, p ∈ ps) :
    (run.map leaf).map (sketch source) = (run.map Placed.lexeme).map Lexeme.sketch := by
  rw [List.map_map, List.map_map]
  exact List.map_congr_left fun p member => sketch_leaf covers (inside p member)

private theorem sketch_ofDescription {run : List Placed} (inside : run <:+: ps) :
    (ofDescription run).map (sketch source) = Lexeme.sketchAll (run.map Placed.lexeme) := by
  cases run with
  | nil => rfl
  | cons first rest =>
    have text := covers first rest inside
    rw [← List.flatMap_map Placed.lexeme] at text
    exact congrArg (fun text => [Sketch.leaf .description text]) text

private theorem sketch_ofTag {t : Tag Placed} (inside : t.parts <:+: ps) :
    sketch source (ofTag t) = (t.map Placed.lexeme).sketch := by
  have member : ∀ p ∈ t.parts, p ∈ ps := fun p member => inside.subset member
  have description : t.description <:+: ps := (List.suffix_append _ _).isInfix.trans inside
  rw [ofTag, List.cons_append, sketch_children, ← List.cons_append, ← List.map_cons, List.map_append,
    sketch_leaves covers fun p inTag => member p (List.mem_append_left _ inTag),
    sketch_ofDescription covers description]
  rfl

omit covers in
theorem sketch_tags {c : Comment Placed} (covers : Covers source c.parts) :
    (c.tags.map ofTag).map (sketch source) = (c.tags.map (Tag.map Placed.lexeme)).map Tag.sketch := by
  rw [List.map_map, List.map_map]
  refine List.map_congr_left fun t member => sketch_ofTag covers ?_
  obtain ⟨before, after, split⟩ := List.append_of_mem member
  exact ⟨c.opening :: c.stars ++ c.description ++ before.flatMap Tag.parts, after.flatMap Tag.parts ++ [c.closing],
    by simp [Comment.parts, split]⟩

omit covers in
theorem sketch_description {c : Comment Placed} (covers : Covers source c.parts) :
    (ofDescription c.description).map (sketch source) = Lexeme.sketchAll (c.description.map Placed.lexeme) := by
  refine sketch_ofDescription covers ?_
  exact ⟨c.opening :: c.stars, c.tags.flatMap Tag.parts ++ [c.closing], by simp [Comment.parts]⟩

omit covers in
/-- Without its places, the tree of a comment is told by the lexemes of the comment. -/
theorem sketch_ofComment {c : Comment Placed} (covers : Covers source c.parts) (stop : Place) :
    sketch source (ofComment c stop) = (c.map Placed.lexeme).sketch := by
  have front : ∀ p ∈ c.opening :: c.stars, p ∈ c.parts := by
    intro p member
    simp only [Comment.parts, List.mem_append]
    exact Or.inl (Or.inl (Or.inl member))
  have closing : sketch source (leaf c.closing) = c.closing.lexeme.sketch :=
    sketch_leaf covers (by simp [Comment.parts])
  rw [ofComment, List.cons_append, List.cons_append, List.cons_append, sketch_children, ← List.cons_append,
    ← List.cons_append, ← List.cons_append, ← List.map_cons, List.map_append, List.map_append, List.map_append,
    sketch_leaves covers front, sketch_description covers, sketch_tags covers, List.map_singleton, closing]
  rfl

end Node

/-! ## Drafts as comments -/

theorem bytes_spell (text : String) : (Glyph.spell text).flatMap Glyph.bytes = encode text := by
  rw [Glyph.spell, List.flatMap_map]
  rfl

/-- The tag of a draft, of the lexemes that its items are. -/
def TagDraft.tag (t : TagDraft) : Tag Lexeme :=
  ⟨t.name.lexeme, (t.parameters.map Identifier.item).map DraftItem.lexeme,
    (DescriptionDraft.items t.description).map DraftItem.lexeme⟩

/-- The comment of a draft, of the lexemes that its items are. -/
def CommentDraft.comment (d : CommentDraft) : Comment Lexeme :=
  ⟨opening, List.replicate d.stars star, (DescriptionDraft.items d.description).map DraftItem.lexeme,
    d.tags.map TagDraft.tag, closing⟩

private theorem isDescription_items (description : Option DescriptionDraft) :
    IsDescription Lexeme.token ((DescriptionDraft.items description).map DraftItem.lexeme) := by
  cases description with
  | none => trivial
  | some d =>
    refine ⟨rfl, ?_⟩
    intro l member
    obtain ⟨i, inItems, rfl⟩ := List.mem_map.mp member
    obtain ⟨piece, _, rfl⟩ := List.mem_map.mp inItems
    cases piece <;> rfl

private theorem isIdentifier_items (parameters : List Identifier) :
    ∀ l ∈ (parameters.map Identifier.item).map DraftItem.lexeme, l.token = .identifier := by
  intro l member
  obtain ⟨i, inItems, rfl⟩ := List.mem_map.mp member
  obtain ⟨p, _, rfl⟩ := List.mem_map.mp inItems
  rfl

theorem TagDraft.isDerivation_tag (t : TagDraft) : t.tag.IsDerivation Lexeme.token := by
  cases t with
  | single name parameter description apart =>
    refine .single rfl ?_ (isIdentifier_items _) (isDescription_items description)
    cases parameter <;> simp [parameters]
  | multiple name parameters => exact .multiple rfl (isIdentifier_items parameters)
  | block name description => exact .block rfl (isDescription_items description)
  | plain name description => exact .plain rfl (isDescription_items description)

namespace CommentDraft

theorem isDerivation_comment (d : CommentDraft) : d.comment.IsDerivation Lexeme.token := by
  refine ⟨rfl, ?_, isDescription_items d.description, ?_, rfl⟩
  · intro l member
    rw [List.eq_of_mem_replicate member]
    rfl
  · intro t member
    obtain ⟨draft, _, rfl⟩ := List.mem_map.mp member
    exact draft.isDerivation_tag

theorem parts_comment (d : CommentDraft) : d.comment.parts = d.lexemes := by
  have tags : (d.tags.map TagDraft.tag).flatMap Tag.parts = (d.tags.flatMap TagDraft.items).map DraftItem.lexeme := by
    rw [List.flatMap_map, List.map_flatMap]
    refine List.flatMap_congr fun t _ => ?_
    simp [TagDraft.tag, Tag.parts, TagDraft.items]
  simp only [Comment.parts, comment, tags, lexemes, items, List.map_append, List.append_assoc, List.cons_append]

private theorem sketch_items (description : Option DescriptionDraft) :
    Lexeme.sketchAll ((DescriptionDraft.items description).map DraftItem.lexeme) =
      DescriptionDraft.sketch description := by
  cases description with
  | none => rfl
  | some d =>
    have text : (Glyph.spell d.first.text ++
        ((d.rest.map Piece.item).map DraftItem.lexeme).flatMap Lexeme.glyphs).flatMap Glyph.bytes =
          encode (d.first.text ++ lines (d.rest.map fun p => p.item.text)) := by
      rw [glyphs_items, ← Glyph.spell_append, bytes_spell, List.map_map]
      rfl
    exact congrArg (fun text => [Sketch.leaf .description text]) text

private theorem sketch_item (i : DraftItem) : i.lexeme.sketch = .leaf (.ofToken i.token) (encode i.text) :=
  congrArg (Sketch.leaf _) (bytes_spell i.text)

private theorem sketch_tag (t : TagDraft) : t.tag.sketch = t.sketch := by
  have parameters : ((t.parameters.map Identifier.item).map DraftItem.lexeme).map Lexeme.sketch =
      t.parameters.map fun p => .leaf .identifier (encode p.text) := by
    rw [List.map_map, List.map_map]
    exact List.map_congr_left fun p _ => sketch_item p.item
  rw [Tag.sketch, TagDraft.tag, sketch_item, parameters, sketch_items]
  rfl

theorem sketch_comment (d : CommentDraft) : d.comment.sketch = d.sketch := by
  have slash : opening.sketch = .leaf .slash (encode "/") := congrArg (Sketch.leaf _) (bytes_spell "/")
  have asterisk : star.sketch = .leaf .star (encode "*") := congrArg (Sketch.leaf _) (bytes_spell "*")
  have tags : (d.tags.map TagDraft.tag).map Tag.sketch = d.tags.map TagDraft.sketch := by
    rw [List.map_map]
    exact List.map_congr_left fun t _ => sketch_tag t
  rw [Comment.sketch, comment, slash, List.map_replicate, asterisk, sketch_items, tags]
  rfl

/-- A rendered draft is read as its items, each of them one lexeme, and its tree is the one that the draft says: the
stars, the description, and of every tag the name, the parameters and the description, with their texts. -/
theorem read_render (d : CommentDraft) :
    Reading.ofSource (encode d.render) = ⟨d.lexemes, .accepted []⟩ ∧
      ∃ root, Node.ofSource? (encode d.render) = some root ∧ root.sketch (encode d.render) = d.sketch := by
  have reading := ofSource_render d
  have accepted : (Reading.ofSource (encode d.render)).ending = .accepted [] := by rw [reading]
  obtain ⟨c, derivation, parts, tree⟩ := Node.ofSource?_of_accepted accepted
  have read := (Reading.behindAll_of_accepted accepted).2
  have covers := Node.covers_of_read read parts
  -- A derivation is told by its parts, so the lexemes are grouped as the draft has them.
  have drafted : c.map Placed.lexeme = d.comment := by
    refine derivation.map.eq_of_parts d.isDerivation_comment ?_
    rw [Comment.parts_map, parts, Placed.map_lexeme_inTurn, parts_comment, reading]
  refine ⟨reading, _, tree, ?_⟩
  rw [Node.sketch_ofComment covers, drafted, sketch_comment]

end CommentDraft

end DocComment
