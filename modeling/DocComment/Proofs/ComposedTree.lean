import DocComment.Proofs.Composition
import DocComment.Proofs.Moving

/-!
# The tree of two bodies

Where a second body starts with a tag, its tags stand behind those of the first, so many bytes and rows further on, and
nothing else of the first changes (`tags_compose`).
-/

namespace DocComment

/-! ## Children of a kind -/

namespace Node

/-- The children of a node with a symbol, in order. -/
def childrenOf (s : Symbol) (n : Node) : List Node := n.children.filter fun child => child.symbol == s

private theorem filter_symbol {nodes : List Node} {s : Symbol} (alike : ∀ n ∈ nodes, n.symbol = s) (t : Symbol) :
    (nodes.filter fun n => n.symbol == t) = if s = t then nodes else [] := by
  split
  · next same =>
    subst same
    exact List.filter_eq_self.mpr fun n member => by simp [alike n member]
  · next other => exact List.filter_eq_nil_iff.mpr fun n member => by simpa [alike n member] using other

section
variable {c : Comment Placed} (derivation : c.IsDerivation Placed.token) (stop : Place)
include derivation

theorem childrenOf_ofComment (s : Symbol) :
    (ofComment c stop).childrenOf s =
      (if Symbol.slash = s then [leaf c.opening] else []) ++ (if Symbol.star = s then c.stars.map leaf else []) ++
        (if Symbol.description = s then ofDescription c.description else []) ++
        (if Symbol.tag = s then c.tags.map ofTag else []) ++ if Symbol.slash = s then [leaf c.closing] else [] := by
  have slash {p : Placed} (slash : p.token = .slash) : ∀ n ∈ [leaf p], n.symbol = .slash := by
    intro n member
    rw [List.mem_singleton.mp member, leaf, Node.symbol, slash]
    rfl
  have stars : ∀ n ∈ c.stars.map leaf, n.symbol = .star := by
    intro n member
    obtain ⟨p, isStar, rfl⟩ := List.mem_map.mp member
    rw [leaf, Node.symbol, derivation.stars p isStar]
    rfl
  have description : ∀ n ∈ ofDescription c.description, n.symbol = .description := by
    intro n member
    cases described : c.description with
    | nil => simp [described, ofDescription] at member
    | cons first rest =>
      rw [described, ofDescription, List.mem_singleton] at member
      rw [member]
      rfl
  have tags : ∀ n ∈ c.tags.map ofTag, n.symbol = .tag := by
    intro n member
    obtain ⟨t, _, rfl⟩ := List.mem_map.mp member
    rfl
  have children : (ofComment c stop).children = [leaf c.opening] ++ c.stars.map leaf ++ ofDescription c.description ++
      c.tags.map ofTag ++ [leaf c.closing] := rfl
  simp only [childrenOf, children, List.filter_append, filter_symbol (slash derivation.opening),
    filter_symbol (slash derivation.closing), filter_symbol stars, filter_symbol description, filter_symbol tags]

theorem childrenOf_star : (ofComment c stop).childrenOf .star = c.stars.map leaf := by
  simp [childrenOf_ofComment derivation]

theorem childrenOf_description : (ofComment c stop).childrenOf .description = ofDescription c.description := by
  simp [childrenOf_ofComment derivation]

theorem childrenOf_tag : (ofComment c stop).childrenOf .tag = c.tags.map ofTag := by
  simp [childrenOf_ofComment derivation]

end

end Node

/-! ## Comments with an opening line -/

/-- If a tag name is the first part behind stars, the tags and the closing slash are all that is left. -/
theorem Comment.tags_of_parts {α : Type} {token : α → Token} {c : Comment α} (derivation : c.IsDerivation token)
    {opening name : α} {stars rest : List α} (areStars : ∀ part ∈ stars, token part = .star)
    (isName : (token name).isTagName = true) (parts : c.parts = opening :: (stars ++ name :: rest)) :
    c.tags.flatMap Tag.parts ++ [c.closing] = name :: rest := by
  have behindStars {front back : List α} (areStars : ∀ part ∈ front, token part = .star)
      (others : ∀ part ∈ back.head?, token part ≠ .star) :
      (front ++ back).dropWhile (token · == .star) = back := by
    rw [List.dropWhile_append_of_pos fun part member => by simp [areStars part member]]
    cases back with
    | nil => rfl
    | cons first back => simp [others first rfl]
  have noStar : ∀ part ∈ (c.stretch.parts ++ [c.closing]).head?, token part ≠ .star := by
    intro part head
    rcases List.mem_append.mp (List.mem_of_mem_head? head) with member | member
    · exact Stretch.noStar_of_fits (fits_stretch derivation) part member
    · rw [List.mem_singleton.mp member, derivation.closing]
      exact Token.noConfusion
  have noName : ∀ part ∈ (name :: rest).head?, token part ≠ .star := by
    intro part head star
    obtain rfl := Option.some.inj head
    rw [star] at isName
    cases isName
  rw [parts_eq] at parts
  have same := congrArg (List.dropWhile (token · == .star)) (List.cons.inj parts).2
  rw [List.append_assoc, behindStars derivation.stars noStar, behindStars areStars noName] at same
  cases described : c.description with
  | nil => simpa [Stretch.parts, stretch, described] using same
  | cons first more =>
    have text : token first = .text := by
      have described := described ▸ derivation.description
      exact described.1
    have starts : first = name := by
      simp only [Stretch.parts, stretch, described, List.nil_append, List.cons_append, List.cons.injEq] at same
      exact same.1
    rw [← starts, text] at isName
    cases isName

/-! ## Blanks before a tag -/

/-- The lexeme with blanks before its padding, in the same place. -/
def Placed.behindBlanks (blanks : List Glyph) (p : Placed) : Placed :=
  ⟨⟨p.lexeme.token, blanks ++ p.lexeme.padding, p.lexeme.body⟩, p.span⟩

/-- The tag with blanks before its name. -/
def Tag.behindBlanks (blanks : List Glyph) (t : Tag Placed) : Tag Placed :=
  ⟨t.name.behindBlanks blanks, t.parameters, t.description⟩

theorem Tag.isDerivation_behindBlanks {blanks : List Glyph} {t : Tag Placed} (derivation : t.IsDerivation Placed.token) :
    (t.behindBlanks blanks).IsDerivation Placed.token := by
  cases derivation with
  | single name length identifiers described => exact .single name length identifiers described
  | multiple name identifiers => exact .multiple name identifiers
  | block name described => exact .block name described
  | plain name described => exact .plain name described

/-- A tag shows nothing of the blanks before its name. -/
theorem Node.ofTag_behindBlanks (blanks : List Glyph) (t : Tag Placed) :
    ofTag (t.behindBlanks blanks) = ofTag t := by
  have cover (p : Placed) (rest : List Placed) : cover (p.behindBlanks blanks) rest = Node.cover p rest := by
    cases rest <;> rfl
  rw [ofTag, ofTag, Tag.behindBlanks, cover]
  rfl

private theorem map_modifyHead {α β : Type} {f : α → α} {g : α → β} (same : ∀ a, g (f a) = g a) (as : List α) :
    (as.modifyHead f).map g = as.map g := by
  cases as with
  | nil => rfl
  | cons first rest => simp [same]

/-- Where padding leads to places that are taken elsewhere, so do lexemes behind it. -/
theorem Placed.inTurn_behindBlanks {f : Place → Place} (along : ∀ p g, (f p).after g = f (p.after g)) {p q : Place}
    {blanks : List Glyph} {l : Lexeme} (meet : p.afterAll (blanks ++ l.padding) = f (q.afterAll l.padding))
    (more : List Lexeme) :
    inTurn p (⟨l.token, blanks ++ l.padding, l.body⟩ :: more) =
      ((inTurn q (l :: more)).map (relocated f)).modifyHead (behindBlanks blanks) := by
  simp only [inTurn, meet, Place.afterAll_along along, inTurn_relocated along, List.map_cons, List.modifyHead_cons]
  rfl

/-! ## Joining -/

namespace Comment

/-- The first comment with the tags of the second, and blanks before them. -/
def joined (blanks : List Glyph) (c d : Comment Placed) : Comment Placed :=
  ⟨c.opening, c.stars, c.description, c.tags ++ d.tags.modifyHead (Tag.behindBlanks blanks), d.closing⟩

variable {blanks : List Glyph} {c d : Comment Placed}

theorem isDerivation_joined (left : c.IsDerivation Placed.token) (right : d.IsDerivation Placed.token) :
    (joined blanks c d).IsDerivation Placed.token := by
  refine ⟨left.opening, left.stars, left.description, ?_, right.closing⟩
  intro t member
  rcases List.mem_append.mp member with member | member
  · exact left.tags t member
  · have later := right.tags
    cases tags : d.tags with
    | nil => simp [tags] at member
    | cons first rest =>
      rw [tags] at member later
      rcases List.mem_cons.mp member with rfl | member
      · exact Tag.isDerivation_behindBlanks (later first (by simp))
      · exact later t (by simp [member])

theorem parts_joined {front rest : List Placed} {closing name : Placed} (left : c.parts = front ++ [closing])
    (right : d.tags.flatMap Tag.parts ++ [d.closing] = name :: rest) (isName : name.token ≠ d.closing.token) :
    (joined blanks c d).parts = front ++ (name :: rest).modifyHead (Placed.behindBlanks blanks) := by
  have front : c.opening :: c.stars ++ c.description ++ c.tags.flatMap Tag.parts = front :=
    (List.append_singleton_inj.mp left).1
  cases tags : d.tags with
  | nil =>
    rw [tags] at right
    obtain ⟨rfl, _⟩ := List.cons.inj right
    contradiction
  | cons first more =>
    rw [tags, List.flatMap_cons, Tag.parts] at right
    obtain ⟨rfl, rfl⟩ := List.cons.inj right
    rw [← front]
    simp [parts, joined, tags, Tag.behindBlanks, Tag.parts]

/-- The tags of the joined comment are those of the first and then those of the second, where these stand. -/
theorem ofTag_joined (bytes rows : Nat) :
    (joined blanks c (d.map (Placed.moved bytes rows))).tags.map Node.ofTag =
      c.tags.map Node.ofTag ++ (d.tags.map Node.ofTag).map (Node.moved bytes rows) := by
  have moved : (d.tags.map (Tag.map (Placed.moved bytes rows))).map Node.ofTag =
      (d.tags.map Node.ofTag).map (Node.moved bytes rows) := by
    rw [List.map_map, List.map_map]
    exact List.map_congr_left fun t _ => Node.ofTag_moved bytes rows t
  rw [joined, List.map_append, map_modifyHead (Node.ofTag_behindBlanks blanks)]
  exact congrArg _ moved

/-- What the stars, the description and the tags of a comment are without their places. -/
def innerSketch (c : Comment Lexeme) : List Sketch :=
  c.stars.map Lexeme.sketch ++ Lexeme.sketchAll c.description ++ c.tags.map Tag.sketch

theorem innerSketch_joined (bytes rows : Nat) :
    ((joined blanks c (d.map (Placed.moved bytes rows))).map Placed.lexeme).innerSketch =
      (c.map Placed.lexeme).innerSketch ++ (d.map Placed.lexeme).tags.map Tag.sketch := by
  have moved : (d.tags.map (Tag.map (Placed.moved bytes rows))).map (Tag.map Placed.lexeme) =
      d.tags.map (Tag.map Placed.lexeme) := by
    rw [List.map_map]
    refine List.map_congr_left fun t _ => ?_
    simp only [Tag.map, Function.comp, List.map_map]
    rfl
  have tags : (((d.tags.map (Tag.map (Placed.moved bytes rows))).modifyHead (Tag.behindBlanks blanks)).map
      (Tag.map Placed.lexeme)).map Tag.sketch = (d.tags.map (Tag.map Placed.lexeme)).map Tag.sketch := by
    have unseen (t : Tag Placed) : (Tag.sketch ∘ Tag.map Placed.lexeme) (t.behindBlanks blanks) =
        (Tag.sketch ∘ Tag.map Placed.lexeme) t := rfl
    rw [List.map_map, map_modifyHead unseen, ← List.map_map, moved]
  simp only [innerSketch, map, joined, List.map_append, List.append_assoc, tags]

end Comment

namespace Node

theorem innerSketch_ofComment {source : List UInt8} {c : Comment Placed} (derivation : c.IsDerivation Placed.token)
    (covers : Covers source c.parts) (stop : Place) :
    ((ofComment c stop).childrenOf .star ++ (ofComment c stop).childrenOf .description ++
      (ofComment c stop).childrenOf .tag).map (sketch source) = (c.map Placed.lexeme).innerSketch := by
  have stars : ∀ p ∈ c.stars, p ∈ c.parts := by
    intro p member
    simp [Comment.parts, member]
  rw [childrenOf_star derivation, childrenOf_description derivation, childrenOf_tag derivation, List.map_append,
    List.map_append, sketch_leaves covers stars, sketch_description covers, sketch_tags covers]
  rfl

end Node

/-! ## Two bodies -/

/-- Parts that are those of one comment up to its closing slash, and then those of another behind its opening line,
make up the first with the tags of the second. -/
private theorem Comment.eq_joined {c d e : Comment Placed} (left : c.IsDerivation Placed.token)
    (right : d.IsDerivation Placed.token) (derivation : e.IsDerivation Placed.token) {before more : List Lexeme}
    {closing name : Lexeme} {blanks : List Glyph} {bytes rows : Nat}
    (partsLeft : c.parts = Placed.inTurn .origin (before ++ [closing]))
    (partsRight : d.parts = Placed.inTurn .origin (Reading.openingLine ++ name :: more))
    (parts : e.parts = Placed.inTurn .origin (before ++ ⟨name.token, blanks ++ name.padding, name.body⟩ :: more))
    (isName : name.token.isTagName = true)
    (meet : (Place.origin.afterAll (before.flatMap Lexeme.glyphs)).afterAll (blanks ++ name.padding) =
      ((Place.origin.afterAll (Reading.openingLine.flatMap Lexeme.glyphs)).afterAll name.padding).moved bytes rows) :
    e = joined blanks c (d.map (Placed.moved bytes rows)) := by
  have rightMoved : (d.map (Placed.moved bytes rows)).IsDerivation Placed.token :=
    IsDerivation.map (f := Placed.moved bytes rows) right
  refine derivation.eq_of_parts (isDerivation_joined left rightMoved) ?_
  rw [Placed.inTurn_append] at partsLeft partsRight parts
  have behind : Placed.inTurn _ (⟨name.token, blanks ++ name.padding, name.body⟩ :: more) =
      ((Placed.inTurn _ (name :: more)).map (Placed.moved bytes rows)).modifyHead (Placed.behindBlanks blanks) :=
    Placed.inTurn_behindBlanks (Place.after_moved bytes rows) meet more
  rw [behind] at parts
  obtain ⟨opening, stars, opened, areStars⟩ : ∃ opening stars,
      Placed.inTurn .origin Reading.openingLine = opening :: stars ∧ ∀ p ∈ stars, p.token = .star := by
    refine ⟨_, _, rfl, ?_⟩
    intro p member
    simp only [Placed.inTurn, List.mem_cons, List.not_mem_nil, or_false] at member
    rcases member with rfl | rfl <;> rfl
  generalize Place.origin.afterAll (Reading.openingLine.flatMap Lexeme.glyphs) = q at partsRight parts
  obtain ⟨first, rest, named, token⟩ : ∃ first rest, Placed.inTurn q (name :: more) = first :: rest ∧
      first.token = name.token := ⟨_, _, rfl, rfl⟩
  rw [← token] at isName
  rw [named] at parts
  rw [opened, named] at partsRight
  have tags := tags_of_parts right areStars isName partsRight
  have tagsMoved : (d.map (Placed.moved bytes rows)).tags.flatMap Tag.parts ++
      [(d.map (Placed.moved bytes rows)).closing] = first.moved bytes rows :: rest.map (Placed.moved bytes rows) := by
    have mapped := congrArg (List.map (Placed.moved bytes rows)) tags
    simpa [map, Tag.map, Tag.parts, List.map_flatMap, List.flatMap_map] using mapped
  have notSlash : (first.moved bytes rows).token ≠ (d.map (Placed.moved bytes rows)).closing.token := by
    intro same
    have slash : first.token = .slash := same.trans rightMoved.closing
    rw [slash] at isName
    cases isName
  rw [parts, parts_joined partsLeft tagsMoved notSlash, List.map_cons]

/-- The line feed behind the first body leads where that of an opening line leads, behind the bytes and rows of the
body. -/
private theorem after_body {first : List UInt8} {glyphs blanks : List Glyph}
    (taken : glyphs ++ blanks = Glyph.spell "/**\n" ++ Glyph.decode first) (white : List Glyph) :
    (Place.origin.afterAll glyphs).afterAll (blanks ++ .scalar '\n' :: white) =
      ((Place.origin.afterAll (Reading.openingLine.flatMap Lexeme.glyphs)).afterAll (.scalar '\n' :: white)).moved
        (first.length + 1) ((Glyph.decode first).count (.scalar '\n') + 1) := by
  have opened : (Place.origin.afterAll (Reading.openingLine.flatMap Lexeme.glyphs)).afterAll [.scalar '\n'] =
      ⟨4, 1, 0⟩ := rfl
  have bytes : ((Glyph.spell "/**\n" ++ Glyph.decode first).flatMap Glyph.bytes).length = 4 + first.length := by
    rw [List.flatMap_append, List.length_append, Glyph.bytes_decode]
    rfl
  have rows : (Glyph.spell "/**\n" ++ Glyph.decode first).count (.scalar '\n') =
      1 + (Glyph.decode first).count (.scalar '\n') := by
    rw [List.count_append]
    rfl
  have lineFeed (front : List Glyph) : front ++ .scalar '\n' :: white = front ++ [.scalar '\n'] ++ white :=
    List.append_cons ..
  rw [← Place.afterAll_append, ← List.append_assoc, taken, lineFeed, Place.afterAll_append, Place.afterAll_lineFeed,
    bytes, rows, ← List.nil_append (.scalar '\n' :: white), lineFeed, List.nil_append, Place.afterAll_append, opened,
    ← Place.afterAll_moved]
  congr 1
  simp only [Place.origin, Place.moved, Place.mk.injEq, and_true]
  omega

/-- The second of two bodies starts with a tag. They make up one comment with the stars and the description of the
first and the tags of both; those of the second stand as many bytes and rows further on as the first body and its line
feed take up, and nothing else of them is other than by itself. -/
theorem tags_compose {first second rest : List UInt8} {white : String} {a b : Node}
    (validFirst : Node.ofSource? (onLines first) = some a) (validSecond : Node.ofSource? (onLines second) = some b)
    (sign : second = encode (white ++ "@") ++ rest) (blank : ∀ c ∈ white.toList, (Glyph.scalar c).isBlank = true) :
    ∃ root, Node.ofSource? (onLines (first ++ encode "\n" ++ second)) = some root ∧
      root.childrenOf .star = a.childrenOf .star ∧
      root.childrenOf .description = a.childrenOf .description ∧
      root.childrenOf .tag = a.childrenOf .tag ++
        (b.childrenOf .tag).map (Node.moved (first.length + 1) ((Glyph.decode first).count (.scalar '\n') + 1)) ∧
      (root.childrenOf .star ++ root.childrenOf .description ++ root.childrenOf .tag).map
          (Node.sketch (onLines (first ++ encode "\n" ++ second))) =
        (a.childrenOf .star ++ a.childrenOf .description ++ a.childrenOf .tag).map (Node.sketch (onLines first)) ++
          (b.childrenOf .tag).map (Node.sketch (onLines second)) := by
  have acceptedFirst := (Node.isSome_ofSource?_iff _).mp (by rw [validFirst]; rfl)
  have acceptedSecond := (Node.isSome_ofSource?_iff _).mp (by rw [validSecond]; rfl)
  obtain ⟨c, _, left, partsFirst, readFirst, rfl⟩ := Node.exists_of_ofSource? validFirst
  obtain ⟨d, _, right, partsSecond, readSecond, rfl⟩ := Node.exists_of_ofSource? validSecond
  obtain ⟨before, blanks, name, more, first_eq, taken, second_eq, isName, padding, composed⟩ :=
    Reading.ofSource_composed sign blank acceptedFirst acceptedSecond
  have coversFirst := Node.covers_of_read readFirst partsFirst
  have coversSecond := Node.covers_of_read readSecond partsSecond
  obtain ⟨e, derivation, parts, tree⟩ := Node.ofSource?_of_accepted (congrArg Reading.ending composed)
  have read := (Reading.behindAll_of_accepted (congrArg Reading.ending composed)).2
  have covers := Node.covers_of_read read parts
  generalize bytes : first.length + 1 = n
  generalize rows : (Glyph.decode first).count (.scalar '\n') + 1 = m
  -- The lexemes make up the first comment with the tags of the second, and of nothing else.
  have meet := after_body taken (Glyph.spell white)
  rw [← padding, bytes, rows] at meet
  rw [first_eq] at partsFirst
  rw [second_eq] at partsSecond
  rw [composed] at parts
  obtain rfl := Comment.eq_joined left right derivation partsFirst partsSecond parts isName meet
  refine ⟨_, tree, ?_, ?_, ?_, ?_⟩
  · rw [Node.childrenOf_star derivation, Node.childrenOf_star left]
    rfl
  · rw [Node.childrenOf_description derivation, Node.childrenOf_description left]
    rfl
  · rw [Node.childrenOf_tag derivation, Node.childrenOf_tag left, Node.childrenOf_tag right, Comment.ofTag_joined]
  · rw [Node.innerSketch_ofComment derivation covers, Node.innerSketch_ofComment left coversFirst,
      Node.childrenOf_tag right, Node.sketch_tags coversSecond, Comment.innerSketch_joined]
    rfl

/-- A body with a tag of its own, and a tag behind it: fourteen bytes and two rows come before the second. -/
theorem tags_compose_noRd :
    ∃ a b, Node.ofSource? (onLines (encode "Adds\n@param x")) = some a ∧
      Node.ofSource? (onLines (encode " @noRd")) = some b ∧ encode " @noRd" = encode (" " ++ "@") ++ encode "noRd" ∧
      (∀ c ∈ " ".toList, (Glyph.scalar c).isBlank = true) ∧
      ∃ root, Node.ofSource? (onLines (encode "Adds\n@param x" ++ encode "\n" ++ encode " @noRd")) = some root ∧
        root.childrenOf .star = a.childrenOf .star ∧
        root.childrenOf .description = a.childrenOf .description ∧
        root.childrenOf .tag = a.childrenOf .tag ++ (b.childrenOf .tag).map (Node.moved 14 2) ∧
        (root.childrenOf .star ++ root.childrenOf .description ++ root.childrenOf .tag).map
            (Node.sketch (onLines (encode "Adds\n@param x" ++ encode "\n" ++ encode " @noRd"))) =
          (a.childrenOf .star ++ a.childrenOf .description ++ a.childrenOf .tag).map
              (Node.sketch (onLines (encode "Adds\n@param x"))) ++
            (b.childrenOf .tag).map (Node.sketch (onLines (encode " @noRd"))) := by
  have validFirst : (Node.ofSource? (onLines (encode "Adds\n@param x"))).isSome = true := by decide +kernel
  have validSecond : (Node.ofSource? (onLines (encode " @noRd"))).isSome = true := by decide +kernel
  obtain ⟨a, foundFirst⟩ := Option.isSome_iff_exists.mp validFirst
  obtain ⟨b, foundSecond⟩ := Option.isSome_iff_exists.mp validSecond
  have sign : encode " @noRd" = encode (" " ++ "@") ++ encode "noRd" := by decide +kernel
  have bytes : (encode "Adds\n@param x").length + 1 = 14 := by decide +kernel
  have rows : (Glyph.decode (encode "Adds\n@param x")).count (.scalar '\n') + 1 = 2 := by decide +kernel
  have composed := tags_compose foundFirst foundSecond sign Glyph.isBlank_of_mem_space
  rw [bytes, rows] at composed
  exact ⟨a, b, foundFirst, foundSecond, sign, Glyph.isBlank_of_mem_space, composed⟩

end DocComment
