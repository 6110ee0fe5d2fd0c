import Mathlib.Data.List.SplitBy
import Mathlib.Data.List.Forall2
import Mathlib.Logic.ExistsUnique
import DocComment.Proofs.Acceptance

/-!
# The tree of a source

What the tree of a valid source looks like is said of the list of its lexemes alone: which of them are children of
which node, where descriptions stand and what they cover, and that nothing is lost, shown twice or moved
(`Node.IsTreeOf`). The tree is built from the comment that the lexemes make up, and the comment is the only
derivation of its tokens.
-/

namespace DocComment

namespace Placed

/-- What a tag owns of the lexemes behind its name: all before the next tag name or slash. -/
def owned (behind : List Placed) : List Placed :=
  behind.takeWhile fun p => !(p.token.isTagName || p.token == .slash)

/-- The tag names, each with what it owns. -/
def sections : List Placed → List (Placed × List Placed)
  | [] => []
  | p :: rest => if p.token.isTagName then (p, owned rest) :: sections rest else sections rest

/-- The lexemes in groups: the longest runs of texts and braces, and every other lexeme alone. -/
def runs (ps : List Placed) : List (List Placed) := ps.splitBy fun p q => p.token.isProse && q.token.isProse

end Placed

namespace Node

/-! ## What trees show -/

/-- A node without children shows a lexeme as its leaf, or a run of texts and braces as a description. -/
inductive Shows : List Placed → Node → Prop
  | leaf {p} : p.token.isProse = false → Shows [p] (.node (.ofToken p.token) p.span [])
  | description {run} (nonempty : run ≠ []) : (∀ p ∈ run, p.token.isProse = true) →
      Shows run (.node .description ⟨(run.head nonempty).span.start, (run.getLast nonempty).span.stop⟩ [])

/-- Exactly if a text is among some lexemes, a description reaches from the first of their texts and braces to the
last. -/
inductive Describes (ps : List Placed) : List Node → Prop
  | none : (∀ p ∈ ps, p.token ≠ .text) → Describes ps []
  | one {p} (described : (ps.filter fun p => p.token.isProse) ≠ []) : p ∈ ps → p.token = .text →
      Describes ps [.node .description
        ⟨((ps.filter fun p => p.token.isProse).head described).span.start,
          ((ps.filter fun p => p.token.isProse).getLast described).span.stop⟩ []]

/-- The node of a tag reaches from its name over all that the tag owns. Its children are the name, the identifiers
among what it owns, and the description of that. -/
structure IsTagOf (s : Placed × List Placed) (n : Node) : Prop where
  symbol : n.symbol = .tag
  start : n.span.start = s.1.span.start
  stop : n.span.stop = ((s.1 :: s.2).getLast (List.cons_ne_nil _ _)).span.stop
  children : ∃ description, Describes s.2 description ∧
    n.children = leaf s.1 :: (s.2.filter fun p => p.token == .identifier).map leaf ++ description

mutual

/-- The nodes without children in a tree, in order. -/
def frontier : Node → List Node
  | .node s span [] => [.node s span []]
  | .node _ _ (child :: rest) => frontier child ++ frontiers rest

/-- The nodes without children in some trees. -/
def frontiers : List Node → List Node
  | [] => []
  | n :: rest => frontier n ++ frontiers rest

end

/-- A tree of lexemes in a source. The children of the document are the first slash, the stars, the description of
what stands before the tags, the tags, and the last slash; the document reaches from the first slash to the end of
the source. The nodes without children show the lexemes, each alone or in a longest run, and every lexeme stands
where the sizes of those before it lead. -/
structure IsTreeOf (source : List UInt8) (ps : List Placed) (root : Node) : Prop where
  symbol : root.symbol = .document
  stop : root.span.stop.offset = source.length
  children : ∃ first last description tags, ps.head? = some first ∧ first.token = .slash ∧
    ps.getLast? = some last ∧ last.token = .slash ∧ root.span.start = first.span.start ∧
    Describes (ps.takeWhile fun p => !p.token.isTagName) description ∧
    List.Forall₂ IsTagOf (Placed.sections ps) tags ∧
    root.children =
      leaf first :: (ps.filter fun p => p.token == .star).map leaf ++ description ++ tags ++ [leaf last]
  frontier : List.Forall₂ Shows (Placed.runs ps) root.frontier
  places : ∀ before p after, ps = before ++ p :: after → p.StandsIn source before

end Node

/-! ## The lexemes of a derivation -/

private theorem not_mark_of_isProse {t : Token} (prose : t.isProse = true) : t.isTagName = false ∧ t ≠ .slash := by
  cases t <;> simp_all [Token.isProse, Token.isTagName]

private theorem alone_of_mark {t : Token} (mark : t.isTagName = true ∨ t = .slash) : t.isProse = false := by
  rcases mark with name | rfl
  · cases t <;> simp_all [Token.isTagName, Token.isProse]
  · rfl

namespace Comment
variable {c : Comment Placed}

private theorem describes_ofDescription {ps description : List Placed}
    (same : (ps.filter fun p => p.token.isProse) = description) (described : IsDescription Placed.token description) :
    Node.Describes ps (Node.ofDescription description) := by
  cases description with
  | nil =>
    refine .none ?_
    intro p member text
    have : p ∈ ps.filter fun p => p.token.isProse := List.mem_filter.mpr ⟨member, by simp [text, Token.isProse]⟩
    simp [same] at this
  | cons first rest =>
    have member : first ∈ ps.filter fun p => p.token.isProse := by simp [same]
    have nonempty : (ps.filter fun p => p.token.isProse) ≠ [] := by simp [same]
    have shown := Node.Describes.one nonempty (List.mem_of_mem_filter member) described.1
    simp only [same] at shown
    exact shown

private theorem filter_identifiers {parameters description : List Placed}
    (identifiers : ∀ p ∈ parameters, p.token = .identifier) (prose : ∀ p ∈ description, p.token.isProse = true) :
    ((parameters ++ description).filter fun p => p.token == .identifier) = parameters := by
  rw [List.filter_append, List.filter_eq_self.mpr (by simpa using identifiers), List.filter_eq_nil_iff.mpr,
    List.append_nil]
  intro p member identifier
  have := prose p member
  simp [beq_iff_eq.mp identifier, Token.isProse] at this

private theorem filter_prose {front description : List Placed} (others : ∀ p ∈ front, p.token.isProse = false)
    (prose : ∀ p ∈ description, p.token.isProse = true) :
    ((front ++ description).filter fun p => p.token.isProse) = description := by
  rw [List.filter_append, List.filter_eq_nil_iff.mpr (by simpa using others), List.filter_eq_self.mpr prose,
    List.nil_append]

/-! ### Tags and what they own -/

private theorem owned_append {body rest : List Placed}
    (inside : ∀ p ∈ body, p.token.isTagName = false ∧ p.token ≠ .slash)
    (ends : ∀ p ∈ rest.head?, p.token.isTagName = true ∨ p.token = .slash) : Placed.owned (body ++ rest) = body := by
  have goesOn : ∀ p ∈ body, (!(p.token.isTagName || p.token == .slash)) = true := by
    intro p member
    simp [inside p member]
  rw [Placed.owned, List.takeWhile_append_of_pos goesOn]
  cases rest with
  | nil => simp
  | cons p rest =>
    rcases ends p rfl with name | slash
    · simp [name]
    · simp [slash]

private theorem sections_append {front : List Placed} (noNames : ∀ p ∈ front, p.token.isTagName = false)
    (back : List Placed) : Placed.sections (front ++ back) = Placed.sections back := by
  induction front with
  | nil => rfl
  | cons p rest ih =>
    rw [List.cons_append, Placed.sections, noNames p (by simp)]
    exact ih fun p member => noNames p (by simp [member])

private theorem owned_kinds {t : Tag Placed} (derivation : t.IsDerivation Placed.token) :
    ∀ p ∈ t.parameters ++ t.description, p.token.isTagName = false ∧ p.token ≠ .slash := by
  obtain ⟨_, identifiers, described⟩ := Stretch.kinds_of_isDerivation derivation
  have prose := Stretch.prose_of_isDescription described
  intro p member
  rcases List.mem_append.mp member with member | member
  · simp [identifiers p member, Token.isTagName]
  · exact not_mark_of_isProse (prose p member)

private theorem head_of_tags {tags : List (Tag Placed)} (derivations : ∀ t ∈ tags, t.IsDerivation Placed.token)
    {closing : Placed} (closes : closing.token = .slash) :
    ∀ p ∈ (tags.flatMap Tag.parts ++ [closing]).head?, p.token.isTagName = true ∨ p.token = .slash := by
  cases tags with
  | nil => simp [closes]
  | cons t rest =>
    have name : t.name.token.isTagName = true := (Stretch.kinds_of_isDerivation (derivations t (by simp))).1
    simp [Tag.parts, name]

private theorem alone_of_tags {tags : List (Tag Placed)} (derivations : ∀ t ∈ tags, t.IsDerivation Placed.token)
    {rest : List Placed} (others : ∀ p ∈ rest.head?, p.token.isProse = false) :
    ∀ p ∈ (tags.flatMap Tag.parts ++ rest).head?, p.token.isProse = false := by
  cases tags with
  | nil => exact others
  | cons t more =>
    have name : t.name.token.isTagName = true := (Stretch.kinds_of_isDerivation (derivations t (by simp))).1
    simpa [Tag.parts] using alone_of_mark (Or.inl name)

private theorem sections_tags {tags : List (Tag Placed)} (derivations : ∀ t ∈ tags, t.IsDerivation Placed.token)
    {closing : Placed} (closes : closing.token = .slash) :
    Placed.sections (tags.flatMap Tag.parts ++ [closing]) =
      tags.map fun t => (t.name, t.parameters ++ t.description) := by
  induction tags with
  | nil => simp [Placed.sections, closes, Token.isTagName]
  | cons t rest ih =>
    have derivation := derivations t (by simp)
    have later : ∀ u ∈ rest, u.IsDerivation Placed.token := fun u member => derivations u (by simp [member])
    have name : t.name.token.isTagName = true := (Stretch.kinds_of_isDerivation derivation).1
    have inside := owned_kinds derivation
    rw [List.flatMap_cons, Tag.parts, List.cons_append, List.cons_append, List.cons_append, List.append_assoc,
      Placed.sections, name, if_pos rfl, owned_append inside (head_of_tags later closes),
      sections_append fun p member => (inside p member).1]
    rw [ih later]
    rfl

private theorem isTagOf_ofTag {t : Tag Placed} (derivation : t.IsDerivation Placed.token) :
    Node.IsTagOf (t.name, t.parameters ++ t.description) (Node.ofTag t) := by
  obtain ⟨_, identifiers, described⟩ := Stretch.kinds_of_isDerivation derivation
  have prose := Stretch.prose_of_isDescription described
  have others : ∀ p ∈ t.parameters, p.token.isProse = false := by
    intro p member
    simp [identifiers p member, Token.isProse]
  refine ⟨rfl, rfl, rfl, Node.ofDescription t.description, ?_, ?_⟩
  · exact describes_ofDescription (filter_prose others prose) described
  · rw [filter_identifiers identifiers prose]
    rfl

end Comment

/-! ### The nodes without children -/

namespace Node

/-- Some nodes without children show some lexemes, run by run. -/
private def ShowAll (ps : List Placed) (nodes : List Node) : Prop := List.Forall₂ Shows (Placed.runs ps) nodes

private theorem showAll_leaf {p : Placed} (alone : p.token.isProse = false) {rest : List Placed} {nodes : List Node}
    (shown : ShowAll rest nodes) : ShowAll (p :: rest) (leaf p :: nodes) := by
  have split : Placed.runs ([p] ++ rest) = Placed.runs [p] ++ Placed.runs rest := by
    refine List.splitBy_append ?_
    intro q last r _
    obtain rfl : p = q := by simpa using last
    simp [alone]
  rw [ShowAll, ← List.singleton_append, split]
  exact .cons (.leaf alone) shown

private theorem showAll_leaves {ps : List Placed} (alone : ∀ p ∈ ps, p.token.isProse = false) {rest : List Placed}
    {nodes : List Node} (shown : ShowAll rest nodes) : ShowAll (ps ++ rest) (ps.map leaf ++ nodes) := by
  induction ps with
  | nil => exact shown
  | cons p ps ih => exact showAll_leaf (alone p (by simp)) (ih fun q member => alone q (by simp [member]))

private theorem showAll_description {description rest : List Placed} {nodes : List Node}
    (prose : ∀ p ∈ description, p.token.isProse = true) (others : ∀ p ∈ rest.head?, p.token.isProse = false)
    (shown : ShowAll rest nodes) : ShowAll (description ++ rest) (ofDescription description ++ nodes) := by
  cases description with
  | nil => exact shown
  | cons first more =>
    have split : Placed.runs ((first :: more) ++ rest) = Placed.runs (first :: more) ++ Placed.runs rest := by
      refine List.splitBy_append ?_
      intro p _ q head
      simp [others q head]
    have one : Placed.runs (first :: more) = [first :: more] := by
      refine List.splitBy_of_isChain (List.cons_ne_nil _ _) ?_
      refine (List.isChain_isInfix (first :: more)).imp_of_mem_imp ?_
      intro p q inRun inRun' _
      simp [prose p inRun, prose q inRun']
    rw [ShowAll, split, one]
    exact .cons (.description (List.cons_ne_nil _ _) prose) shown

private theorem frontiers_append (front back : List Node) :
    frontiers (front ++ back) = frontiers front ++ frontiers back := by
  induction front with
  | nil => rfl
  | cons n rest ih => rw [List.cons_append, frontiers, frontiers, ih, List.append_assoc]

private theorem frontiers_leaves (ps : List Placed) : frontiers (ps.map leaf) = ps.map leaf := by
  induction ps with
  | nil => rfl
  | cons p rest ih =>
    rw [List.map_cons, frontiers, ih]
    rfl

private theorem frontiers_ofDescription (description : List Placed) :
    frontiers (ofDescription description) = ofDescription description := by
  cases description <;> rfl

theorem frontier_ofTag (t : Tag Placed) :
    frontier (ofTag t) = leaf t.name :: t.parameters.map leaf ++ ofDescription t.description := by
  have children : frontier (ofTag t) =
      frontiers (leaf t.name :: t.parameters.map leaf ++ ofDescription t.description) := rfl
  rw [children, ← List.map_cons, frontiers_append, frontiers_leaves, frontiers_ofDescription]

theorem frontier_ofComment (c : Comment Placed) (stop : Place) :
    frontier (ofComment c stop) = (c.opening :: c.stars).map leaf ++
      (ofDescription c.description ++ (frontiers (c.tags.map ofTag) ++ [leaf c.closing])) := by
  have children : frontier (ofComment c stop) = frontiers
      ((c.opening :: c.stars).map leaf ++ ofDescription c.description ++ c.tags.map ofTag ++ [c.closing].map leaf) :=
    rfl
  rw [children, frontiers_append, frontiers_append, frontiers_append, frontiers_leaves, frontiers_leaves,
    frontiers_ofDescription]
  simp

private theorem showAll_tags {tags : List (Tag Placed)} (derivations : ∀ t ∈ tags, t.IsDerivation Placed.token)
    {rest : List Placed} {nodes : List Node} (others : ∀ p ∈ rest.head?, p.token.isProse = false)
    (shown : ShowAll rest nodes) :
    ShowAll (tags.flatMap Tag.parts ++ rest) (frontiers (tags.map ofTag) ++ nodes) := by
  -- A description ends its run, because what follows it is a tag name or no part of a description.
  induction tags with
  | nil => exact shown
  | cons t more ih =>
    have later : ∀ u ∈ more, u.IsDerivation Placed.token := fun u member => derivations u (by simp [member])
    obtain ⟨name, identifiers, described⟩ := Comment.Stretch.kinds_of_isDerivation (derivations t (by simp))
    have alone : ∀ p ∈ t.name :: t.parameters, p.token.isProse = false := by
      intro p member
      rcases List.mem_cons.mp member with rfl | member
      · exact alone_of_mark (Or.inl name)
      · simp [identifiers p member, Token.isProse]
    have shown := showAll_leaves alone (showAll_description (Comment.Stretch.prose_of_isDescription described)
      (Comment.alone_of_tags later others) (ih later))
    rw [List.map_cons, frontiers, frontier_ofTag]
    simpa [Tag.parts] using shown

/-! ## The tree of a derivation -/

section
variable {c : Comment Placed} (derivation : c.IsDerivation Placed.token)
include derivation

/-- The parts of a derivation before its tags. -/
theorem front_kinds : ∀ p ∈ c.opening :: c.stars, p.token = .slash ∨ p.token = .star := by
  intro p member
  rcases List.mem_cons.mp member with rfl | member
  · exact Or.inl derivation.opening
  · exact Or.inr (derivation.stars p member)

private theorem front_alone : ∀ p ∈ c.opening :: c.stars, p.token.isProse = false := by
  intro p member
  rcases front_kinds derivation p member with slash | star
  · simp [slash, Token.isProse]
  · simp [star, Token.isProse]

private theorem showAll_stretch {rest : List Placed} {nodes : List Node}
    (others : ∀ p ∈ rest.head?, p.token.isProse = false) (shown : ShowAll rest nodes) :
    ShowAll (c.stretch.parts ++ rest)
      (ofDescription c.description ++ (frontiers (c.tags.map ofTag) ++ nodes)) := by
  have prose := Comment.Stretch.prose_of_isDescription derivation.description
  have tags := showAll_tags derivation.tags others shown
  have whole := showAll_description prose (Comment.alone_of_tags derivation.tags others) tags
  simpa [Comment.stretch, Comment.Stretch.parts] using whole

private theorem showAll_ofComment (stop : Place) : ShowAll c.parts (frontier (ofComment c stop)) := by
  have closing : c.closing.token.isProse = false := alone_of_mark (Or.inr derivation.closing)
  have nothing : ShowAll [] [] := .nil
  have stretch := showAll_stretch derivation (by simpa using closing) (showAll_leaf closing nothing)
  have whole := showAll_leaves (front_alone derivation) stretch
  rw [frontier_ofComment, Comment.parts_eq]
  simpa using whole

/-- The description and the nodes without children in the tags show what stands between the stars and the closing
slash. -/
theorem shows_stretch :
    List.Forall₂ Shows (Placed.runs c.stretch.parts) (ofDescription c.description ++ frontiers (c.tags.map ofTag)) := by
  have nothing : ShowAll [] [] := .nil
  have whole := showAll_stretch derivation (by simp) nothing
  rwa [List.append_nil, List.append_nil] at whole

private theorem front_noNames : ∀ p ∈ c.opening :: c.stars ++ c.description, p.token.isTagName = false := by
  intro p member
  rcases List.mem_append.mp member with member | member
  · rcases front_kinds derivation p member with slash | star
    · simp [slash, Token.isTagName]
    · simp [star, Token.isTagName]
  · exact (not_mark_of_isProse (Comment.Stretch.prose_of_isDescription derivation.description p member)).1

private theorem sections_parts :
    Placed.sections c.parts = c.tags.map fun t => (t.name, t.parameters ++ t.description) := by
  rw [Comment.parts, List.append_assoc, Comment.sections_append (front_noNames derivation),
    Comment.sections_tags derivation.tags derivation.closing]

private theorem filter_stars : (c.parts.filter fun p => p.token == .star) = c.stars := by
  have stars : (c.stars.filter fun p => p.token == .star) = c.stars :=
    List.filter_eq_self.mpr (by simpa using derivation.stars)
  have others : (c.stretch.parts.filter fun p => p.token == .star) = [] :=
    List.filter_eq_nil_iff.mpr (by simpa using Comment.Stretch.noStar_of_fits (Comment.fits_stretch derivation))
  rw [Comment.parts_eq, List.filter_cons_of_neg (by simp [derivation.opening]), List.filter_append, List.filter_append,
    stars, others]
  simp [derivation.closing]

private theorem filter_front :
    ((c.parts.takeWhile fun p => !p.token.isTagName).filter fun p => p.token.isProse) = c.description := by
  have noNames := front_noNames derivation
  have prose := Comment.Stretch.prose_of_isDescription derivation.description
  have rest : (((c.tags.flatMap Tag.parts ++ [c.closing]).takeWhile fun p => !p.token.isTagName).filter
      fun p => p.token.isProse) = [] := by
    cases tags : c.tags with
    | nil => simp [derivation.closing, Token.isTagName, Token.isProse]
    | cons t rest =>
      have name : t.name.token.isTagName = true :=
        (Comment.Stretch.kinds_of_isDerivation (derivation.tags t (by simp [tags]))).1
      simp [Tag.parts, name]
  rw [Comment.parts, List.append_assoc, List.takeWhile_append_of_pos (by simpa using noNames), List.filter_append, rest,
    Comment.filter_prose (front_alone derivation) prose, List.append_nil]

/-- The tree of a derivation is a tree of its parts. -/
theorem isTreeOf_ofComment {source : List UInt8} {stop : Place} (ends : stop.offset = source.length)
    (places : ∀ before p after, c.parts = before ++ p :: after → p.StandsIn source before) :
    (ofComment c stop).IsTreeOf source c.parts := by
  -- Lexemes and nodes are two views of the same derivation: each field reads both of them off its groups.
  refine ⟨rfl, ends, ?_, showAll_ofComment derivation stop, places⟩
  refine ⟨c.opening, c.closing, ofDescription c.description, c.tags.map ofTag, rfl, derivation.opening, ?_,
    derivation.closing, rfl, ?_, ?_, ?_⟩
  · rw [Comment.parts, List.getLast?_append_of_ne_nil _ (List.cons_ne_nil _ _)]
    rfl
  · exact Comment.describes_ofDescription (filter_front derivation) derivation.description
  · rw [sections_parts derivation, List.forall₂_map_left_iff, List.forall₂_map_right_iff, List.forall₂_same]
    exact fun t member => Comment.isTagOf_ofTag (derivation.tags t member)
  · rw [filter_stars derivation]
    rfl

end

/-- The tree of a valid source is that of the only derivation of its tokens. -/
theorem tree_of_derivation {source : List UInt8} {root : Node} (valid : ofSource? source = some root) :
    (∃! c : Comment Token, c.IsDerivation id ∧ c.parts = (Reading.ofSource source).tokens) ∧
      root.IsTreeOf source (Placed.inTurn .origin (Reading.ofSource source).lexemes) := by
  obtain ⟨c, trailing, derivation, parts, read, rfl⟩ := exists_of_ofSource? valid
  constructor
  · have run := Comment.behindAll_parts derivation
    rw [parts, Placed.map_token_inTurn] at run
    obtain ⟨d, derived, same⟩ := (isSentence_iff _).mpr run
    exact ⟨d, ⟨derived, same⟩, fun other ⟨otherDerived, otherSame⟩ =>
      otherDerived.eq_of_parts derived (otherSame.trans same.symm)⟩
  · rw [← parts]
    refine isTreeOf_ofComment derivation ?_ ?_
    · rw [Reading.reached, ← Place.afterAll_append, ← read, Place.offset_afterAll, Glyph.bytes_decode]
      exact Nat.zero_add _
    · intro before p after cut
      exact Placed.standsIn_of_read read (parts ▸ cut)

/-- A description runs over lines, up to the name of the next tag. -/
theorem tree_of_derivation_lines :
    ∃ root, ofSource? (encode "/** a\nb {c}\n@param x d\n@noRd\n/ ") = some root ∧
      (∃! c : Comment Token, c.IsDerivation id ∧
        c.parts = (Reading.ofSource (encode "/** a\nb {c}\n@param x d\n@noRd\n/ ")).tokens) ∧
      root.IsTreeOf (encode "/** a\nb {c}\n@param x d\n@noRd\n/ ")
        (Placed.inTurn .origin (Reading.ofSource (encode "/** a\nb {c}\n@param x d\n@noRd\n/ ")).lexemes) := by
  have valid : (ofSource? (encode "/** a\nb {c}\n@param x d\n@noRd\n/ ")).isSome = true := by decide +kernel
  obtain ⟨root, found⟩ := Option.isSome_iff_exists.mp valid
  exact ⟨root, found, tree_of_derivation found⟩

end Node

end DocComment
