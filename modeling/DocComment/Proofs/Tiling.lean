import Mathlib.Algebra.GroupWithZero.Nat
import DocComment.Proofs.Highlighting

/-!
# Lexemes tile their source

The lexemes of any source stand one behind the other from its front, blanks and a nonempty body each, and every place
that is told of a lexeme or of a node is the one that counting in the bytes of the source leads to (`lexemes_tile`).
Rows and columns are kept glyph by glyph; that the bytes give the same is shown by induction on the glyphs from the
back, since the last glyph decides on the column.
-/

namespace DocComment

/-! ## Counting in the bytes of a source -/

/-- The place at an offset as the bytes before it tell: how many line feeds there are, and how many bytes stand behind
the last of them. -/
def Place.counted (source : List UInt8) (offset : Nat) : Place :=
  ⟨offset, (source.take offset).count 0x0a, ((source.take offset).reverse.takeWhile fun b => b != 0x0a).length⟩

namespace Glyph

private theorem lineFeed_of_scalar {c : Char} (member : 0x0a ∈ String.utf8EncodeChar c) : c = '\n' := by
  have found : scalar '\n' ∈ decode (String.utf8EncodeChar c ++ []) := by
    rw [List.append_nil]
    exact mem_decode_of_mem (by decide) (by decide) member
  rw [decode_utf8EncodeChar_append] at found
  have alone : scalar '\n' = scalar c := by simpa [decode, decodeFrom] using found
  exact (scalar.inj alone).symm

/-- The byte of a line feed is in no other glyph of a source. -/
theorem lineFeed_of_mem {source : List UInt8} {g : Glyph} (inSource : g ∈ decode source) (member : 0x0a ∈ g.bytes) :
    g = .scalar '\n' := by
  cases g with
  | scalar c => rw [lineFeed_of_scalar member]
  | stray b =>
    obtain rfl : 0x0a = b := by simpa [bytes] using member
    obtain ⟨front, back, split⟩ := List.append_of_mem inSource
    have alone := decode_drop split
    have spelled := bytes_decode (source.drop (front.flatMap bytes).length)
    rw [alone, List.flatMap_cons] at spelled
    have lineFeed := decode_around (c := '\n') (b := 0x0a) (by decide) (by decide) [] (back.flatMap bytes)
    rw [← spelled] at alone
    cases alone.symm.trans lineFeed

end Glyph

namespace Place

private theorem counted_length (bytes : List UInt8) :
    counted bytes bytes.length =
      ⟨bytes.length, bytes.count 0x0a, (bytes.reverse.takeWhile fun b => b != 0x0a).length⟩ := by
  rw [counted, List.take_length]

/-- Glyphs that hold no line feed but as one of their own lead where counting in their bytes leads. -/
private theorem afterAll_bytes {glyphs : List Glyph} (alone : ∀ g ∈ glyphs, 0x0a ∈ g.bytes → g = .scalar '\n') :
    origin.afterAll glyphs = counted (glyphs.flatMap Glyph.bytes) (glyphs.flatMap Glyph.bytes).length := by
  induction glyphs using List.reverseRecOn with
  | nil => rfl
  | append_singleton front g ih =>
    have earlier := ih fun h member => alone h (by simp [member])
    have last : origin.afterAll (front ++ [g]) = (origin.afterAll front).after g := by simp [afterAll]
    rw [last, earlier, List.flatMap_append, List.flatMap_singleton, counted_length, counted_length, List.length_append,
      List.count_append, List.reverse_append]
    by_cases lineFeed : g = .scalar '\n'
    · have byte : (Glyph.scalar '\n').bytes = [0x0a] := by decide
      subst lineFeed
      simp [after, byte, Glyph.width]
    · have none : 0x0a ∉ g.bytes := fun member => lineFeed (alone g (by simp) member)
      have passed : ∀ b ∈ g.bytes.reverse, (b != 0x0a) = true := by
        intro b member
        simp only [bne_iff_ne, ne_eq]
        rintro rfl
        exact none (List.mem_reverse.mp member)
      rw [List.takeWhile_append_of_pos passed, List.count_eq_zero.mpr none, List.length_append, List.length_reverse]
      simp [after, lineFeed, Glyph.width, Nat.add_comm]

/-- The place behind some glyphs of a source is the one that counting in its bytes leads to. -/
theorem afterAll_eq_counted {source : List UInt8} {front back : List Glyph} (read : Glyph.decode source = front ++ back) :
    origin.afterAll front = counted source (front.flatMap Glyph.bytes).length := by
  have whole : source = front.flatMap Glyph.bytes ++ back.flatMap Glyph.bytes := by
    rw [← List.flatMap_append, ← read, Glyph.bytes_decode]
  rw [afterAll_bytes]
  · rw [counted, counted, List.take_length, congrArg (List.take _) whole, List.take_left]
  · intro g member
    have inSource : g ∈ Glyph.decode source := by simp [read, member]
    exact Glyph.lineFeed_of_mem inSource

end Place

/-! ## Lexemes -/

/-- Behind others, a lexeme is what as many bytes as its size are decoded as: padding, and a body that starts with no
blank. -/
structure Lexeme.IsTile (source : List UInt8) (before : List Lexeme) (l : Lexeme) : Prop where
  decoded : Glyph.decode ((source.drop (before.map Lexeme.size).sum).take l.size) = l.padding ++ l.body
  padding : Reading.IsPadding before.isEmpty l.padding
  body : ∃ g rest, l.body = g :: rest ∧ g.isBlank = false

namespace Reading

theorem sum_size (lexemes : List Lexeme) :
    (lexemes.map Lexeme.size).sum = ((lexemes.flatMap Lexeme.glyphs).flatMap Glyph.bytes).length := by
  induction lexemes with
  | nil => rfl
  | cons l rest ih =>
    rw [List.map_cons, List.sum_cons, ih, List.flatMap_cons, List.flatMap_append, List.length_append]
    rfl

theorem isTile_of_cut {source : List UInt8} {before after : List Lexeme} {l : Lexeme}
    (cut : (ofSource source).lexemes = before ++ l :: after) : l.IsTile source before := by
  obtain ⟨_, _, rest, _, split, lexed, _⟩ := (reads_ofSource cut).lexed
  obtain ⟨g, more, body⟩ := List.exists_cons_of_length_pos lexed.found.positive
  refine ⟨?_, ?_, g, more, body, ?_⟩
  · rw [sum_size]
    exact Glyph.decode_take (Glyph.decode_drop split)
  · have padding := isPadding_pad (true && before.isEmpty) (l.glyphs ++ rest)
    rwa [lexed.padded, Bool.true_and] at padding
  · have found := lexed.found
    rw [body, List.cons_append] at found
    exact found.notBlank

/-- What the lexemes leave of a source is decoded by itself, and the place behind them is where it starts. -/
theorem reached_eq_counted (source : List UInt8) :
    (ofSource source).reached = .counted source ((ofSource source).lexemes.map Lexeme.size).sum ∧
      ((ofSource source).lexemes.map Lexeme.size).sum ≤ source.length := by
  obtain ⟨_, _, split, _⟩ := step_behind source
  rw [sum_size]
  refine ⟨Place.afterAll_eq_counted split, ?_⟩
  have whole := congrArg List.length (Glyph.bytes_decode source)
  rw [split, List.flatMap_append, List.length_append] at whole
  omega

/-- What trails the lexemes of an accepted source leads to its end. -/
theorem end_eq_counted {source : List UInt8} {trailing : List Glyph}
    (split : Glyph.decode source = (ofSource source).lexemes.flatMap Lexeme.glyphs ++ trailing) :
    (ofSource source).reached.afterAll trailing = .counted source source.length := by
  have whole : Glyph.decode source = Glyph.decode source ++ [] := (List.append_nil _).symm
  rw [reached, ← Place.afterAll_append, ← split, Place.afterAll_eq_counted whole, Glyph.bytes_decode]

end Reading

/-! ## Nodes -/

/-- A stretch of a source: it is not empty, and its ends are the places that counting leads to. -/
structure Span.IsExact (source : List UInt8) (s : Span) : Prop where
  start : s.start = .counted source s.start.offset
  stop : s.stop = .counted source s.stop.offset
  nonempty : s.start.offset < s.stop.offset
  bounded : s.stop.offset ≤ source.length

namespace Node

/-- A node has its place in a source: its ends are exact, its children lie inside it, and they stand in order, apart
from each other. -/
structure IsPlaced (source : List UInt8) (n : Node) : Prop where
  span : n.span.IsExact source
  inside : ∀ child ∈ n.children, n.span.start.offset ≤ child.span.start.offset ∧
    child.span.stop.offset ≤ n.span.stop.offset
  ordered : n.children.Pairwise fun a b => a.span.stop.offset ≤ b.span.start.offset

/-- Nodes cover lexemes in turn: each reaches from the first of a run to the last, and the runs make up the lexemes. -/
inductive CoverInTurn : List Placed → List Node → Prop
  | nil : CoverInTurn [] []
  | cons {first rest more n nodes} : n.span = cover first rest → CoverInTurn more nodes →
      CoverInTurn (first :: rest ++ more) (n :: nodes)

namespace CoverInTurn

theorem append {front back : List Placed} {before after : List Node} (first : CoverInTurn front before)
    (second : CoverInTurn back after) : CoverInTurn (front ++ back) (before ++ after) := by
  induction first with
  | nil => exact second
  | cons span _ ih =>
    rw [List.append_assoc]
    exact .cons span ih

theorem leaves (ps : List Placed) : CoverInTurn ps (ps.map leaf) := by
  induction ps with
  | nil => exact .nil
  | cons p rest ih =>
    have alone : (leaf p).span = cover p [] := rfl
    exact .cons alone ih

theorem description (ps : List Placed) : CoverInTurn ps (ofDescription ps) := by
  cases ps with
  | nil => exact .nil
  | cons first rest =>
    have one : CoverInTurn (first :: rest ++ []) (ofDescription (first :: rest)) := .cons rfl .nil
    rwa [List.append_nil] at one

theorem tags (ts : List (Tag Placed)) : CoverInTurn (ts.flatMap Tag.parts) (ts.map ofTag) := by
  induction ts with
  | nil => exact .nil
  | cons t rest ih => exact .cons rfl ih

theorem exists_run {ps : List Placed} {nodes : List Node} (covered : CoverInTurn ps nodes) {n : Node}
    (member : n ∈ nodes) : ∃ first rest, n.span = cover first rest ∧ (first :: rest).Sublist ps := by
  induction covered with
  | nil => cases member
  | cons span _ ih =>
    rcases List.mem_cons.mp member with rfl | member
    · exact ⟨_, _, span, List.sublist_append_left _ _⟩
    · obtain ⟨first, rest, same, run⟩ := ih member
      exact ⟨first, rest, same, run.trans (List.sublist_append_right _ _)⟩

end CoverInTurn

private theorem isPlaced_leaf {source : List UInt8} {p : Placed} (span : p.span.IsExact source) :
    (leaf p).IsPlaced source :=
  ⟨span, by simp [leaf, children], .nil⟩

section
variable {source : List UInt8} {ps : List Placed} (ordered : ps.Pairwise fun p q => p.span.stop.offset ≤ q.span.start.offset)
  (exactly : ∀ p ∈ ps, p.span.IsExact source)
include ordered exactly

/-- A run of lexemes in order lies between the ends of what covers it. -/
private theorem inside_cover {first : Placed} {rest : List Placed} (run : (first :: rest).Sublist ps) :
    ∀ p ∈ first :: rest, (cover first rest).start.offset ≤ p.span.start.offset ∧
      p.span.stop.offset ≤ (cover first rest).stop.offset := by
  have inOrder := ordered.sublist run
  intro p member
  constructor
  · rcases List.mem_cons.mp member with rfl | member
    · exact Nat.le_refl _
    · have later := (List.pairwise_cons.mp inOrder).1 p member
      have nonempty := (exactly first (run.subset (by simp))).nonempty
      exact (Nat.le_of_lt nonempty).trans later
  · obtain ⟨front, last, split⟩ : ∃ front last, first :: rest = front ++ [last] :=
      ⟨_, _, (List.dropLast_concat_getLast (List.cons_ne_nil _ _)).symm⟩
    have isLast : (cover first rest).stop = last.span.stop := by simp [cover, split]
    rw [isLast]
    rw [split] at member inOrder
    rcases List.mem_append.mp member with member | member
    · have earlier := (List.pairwise_append.mp inOrder).2.2 p member last (by simp)
      have nonempty := (exactly last (run.subset (by simp [split]))).nonempty
      exact earlier.trans (Nat.le_of_lt nonempty)
    · rw [List.mem_singleton.mp member]

theorem isExact_cover {first : Placed} {rest : List Placed} (run : (first :: rest).Sublist ps) :
    (cover first rest).IsExact source := by
  have begins := exactly first (run.subset (by simp))
  have ends := exactly _ (run.subset (List.getLast_mem (List.cons_ne_nil first rest)))
  have inside := inside_cover ordered exactly run first (by simp)
  exact ⟨begins.start, ends.stop, begins.nonempty.trans_le inside.2, ends.bounded⟩

theorem pairwise_of_coverInTurn {nodes : List Node} (covered : CoverInTurn ps nodes) :
    nodes.Pairwise fun a b => a.span.stop.offset ≤ b.span.start.offset := by
  induction covered with
  | nil => exact .nil
  | @cons first rest more n nodes span later ih =>
    rw [List.pairwise_append] at ordered
    obtain ⟨_, behind, across⟩ := ordered
    refine .cons ?_ (ih behind fun p member => exactly p (by simp [member]))
    intro m member
    obtain ⟨start, run, same, inMore⟩ := later.exists_run member
    rw [span, same]
    exact across _ (List.getLast_mem (List.cons_ne_nil first rest)) start (inMore.subset (by simp))

/-- A node with exact ends has its place, if its children cover lexemes between these ends in turn. -/
theorem isPlaced_of_coverInTurn {n : Node} (span : n.span.IsExact source) (covered : CoverInTurn ps n.children)
    (between : ∀ p ∈ ps, n.span.start.offset ≤ p.span.start.offset ∧ p.span.stop.offset ≤ n.span.stop.offset) :
    n.IsPlaced source := by
  refine ⟨span, ?_, pairwise_of_coverInTurn ordered exactly covered⟩
  intro child member
  obtain ⟨first, rest, same, run⟩ := covered.exists_run member
  have last := List.getLast_mem (List.cons_ne_nil first rest)
  rw [same]
  exact ⟨(between first (run.subset (by simp))).1, (between _ (run.subset last)).2⟩

private theorem isPlaced_ofDescription {description : List Placed} (run : description.Sublist ps) {n : Node}
    (member : n ∈ ofDescription description) : n.IsPlaced source := by
  cases description with
  | nil => cases member
  | cons first rest =>
    obtain rfl := List.mem_singleton.mp member
    exact ⟨isExact_cover ordered exactly run, by simp [children], .nil⟩

private theorem isPlaced_ofTag {t : Tag Placed} (run : t.parts.Sublist ps) : (ofTag t).IsPlaced source := by
  refine isPlaced_of_coverInTurn (ordered.sublist run) (fun p member => exactly p (run.subset member))
    (isExact_cover ordered exactly run) ?_ (inside_cover ordered exactly run)
  exact (CoverInTurn.leaves (t.name :: t.parameters)).append (.description t.description)

end

theorem mem_nodesAmong_iff {ns : List Node} {n : Node} : n ∈ nodesAmong ns ↔ ∃ m ∈ ns, n ∈ m.nodes := by
  induction ns with
  | nil => simp [nodesAmong]
  | cons first rest ih => rw [nodesAmong, List.mem_append, ih, List.exists_mem_cons_iff]

/-- What the nodes of the tree of a comment are: the root, leaves, descriptions and tags. -/
inductive IsNodeOf (c : Comment Placed) (stop : Place) : Node → Prop
  | root : IsNodeOf c stop (ofComment c stop)
  | mark {p} : p ∈ c.opening :: c.stars ++ [c.closing] → IsNodeOf c stop (leaf p)
  | description {n} : n ∈ ofDescription c.description → IsNodeOf c stop n
  | tag {t} : t ∈ c.tags → IsNodeOf c stop (ofTag t)
  | inTag {t p} : t ∈ c.tags → p ∈ t.name :: t.parameters → IsNodeOf c stop (leaf p)
  | tagDescription {t n} : t ∈ c.tags → n ∈ ofDescription t.description → IsNodeOf c stop n

private theorem mem_nodes_ofTag_iff {t : Tag Placed} {n : Node} :
    n ∈ (ofTag t).nodes ↔
      n = ofTag t ∨ n ∈ (t.name :: t.parameters).map leaf ∨ n ∈ ofDescription t.description := by
  have nodes : (ofTag t).nodes =
      ofTag t :: nodesAmong ((t.name :: t.parameters).map leaf ++ ofDescription t.description) := rfl
  rw [nodes, nodesAmong_append, nodesAmong_leaves, nodesAmong_ofDescription, List.mem_cons, List.mem_append]

theorem mem_nodes_ofComment_iff {c : Comment Placed} {stop : Place} {n : Node} :
    n ∈ (ofComment c stop).nodes ↔ IsNodeOf c stop n := by
  have nodes : (ofComment c stop).nodes = ofComment c stop ::
      nodesAmong ((c.opening :: c.stars).map leaf ++ ofDescription c.description ++ c.tags.map ofTag ++
        [c.closing].map leaf) := rfl
  rw [nodes, nodesAmong_append, nodesAmong_append, nodesAmong_append, nodesAmong_leaves, nodesAmong_leaves,
    nodesAmong_ofDescription, List.mem_cons, List.mem_append, List.mem_append, List.mem_append, mem_nodesAmong_iff]
  constructor
  · rintro (rfl | ((member | member) | ⟨m, isTag, member⟩) | member)
    · exact .root
    · obtain ⟨p, isMark, rfl⟩ := List.mem_map.mp member
      exact .mark (List.mem_append_left _ isMark)
    · exact .description member
    · obtain ⟨t, inTags, rfl⟩ := List.mem_map.mp isTag
      rcases mem_nodes_ofTag_iff.mp member with rfl | member | member
      · exact .tag inTags
      · obtain ⟨p, isPart, rfl⟩ := List.mem_map.mp member
        exact .inTag inTags isPart
      · exact .tagDescription inTags member
    · obtain ⟨p, isClosing, rfl⟩ := List.mem_map.mp member
      exact .mark (List.mem_append_right _ isClosing)
  · have inTag {t : Tag Placed} (inTags : t ∈ c.tags) {m : Node} (member : m ∈ (ofTag t).nodes) :
        ∃ m' ∈ c.tags.map ofTag, m ∈ m'.nodes := ⟨_, List.mem_map_of_mem inTags, member⟩
    intro isNode
    cases isNode with
    | root => exact Or.inl rfl
    | mark member =>
      rcases List.mem_append.mp member with member | member
      · exact Or.inr (Or.inl (Or.inl (Or.inl (List.mem_map_of_mem member))))
      · exact Or.inr (Or.inr (List.mem_map_of_mem member))
    | description member => exact Or.inr (Or.inl (Or.inl (Or.inr member)))
    | tag inTags => exact Or.inr (Or.inl (Or.inr (inTag inTags (mem_nodes_ofTag_iff.mpr (Or.inl rfl)))))
    | inTag inTags member =>
      have inside := mem_nodes_ofTag_iff.mpr (Or.inr (Or.inl (List.mem_map_of_mem member)))
      exact Or.inr (Or.inl (Or.inr (inTag inTags inside)))
    | tagDescription inTags member =>
      have inside := mem_nodes_ofTag_iff.mpr (Or.inr (Or.inr member))
      exact Or.inr (Or.inl (Or.inr (inTag inTags inside)))

section
variable {source : List UInt8} {c : Comment Placed} {stop : Place}
  (ordered : c.parts.Pairwise fun p q => p.span.stop.offset ≤ q.span.start.offset)
  (exactly : ∀ p ∈ c.parts, p.span.IsExact source) (ends : stop = .counted source source.length)
include ordered exactly ends

/-- The root reaches from the opening slash to the end of the source. -/
private theorem isPlaced_root : (ofComment c stop).IsPlaced source := by
  have opening := exactly c.opening (by simp [Comment.parts])
  have first : ∀ p ∈ c.parts, c.opening.span.start.offset ≤ p.span.start.offset := by
    intro p member
    rcases List.mem_cons.mp (show p ∈ c.opening :: _ from member) with rfl | member
    · exact Nat.le_refl _
    · exact (Nat.le_of_lt opening.nonempty).trans ((List.pairwise_cons.mp ordered).1 p member)
  refine isPlaced_of_coverInTurn ordered exactly ⟨opening.start, ?_, ?_, ?_⟩ ?_ ?_
  · show stop = .counted source stop.offset
    rw [ends]
    rfl
  · show c.opening.span.start.offset < stop.offset
    rw [ends]
    exact opening.nonempty.trans_le opening.bounded
  · show stop.offset ≤ source.length
    rw [ends]
    exact Nat.le_refl _
  · exact (((CoverInTurn.leaves (c.opening :: c.stars)).append (.description c.description)).append
      (.tags c.tags)).append (.leaves [c.closing])
  · intro p member
    refine ⟨first p member, ?_⟩
    show p.span.stop.offset ≤ stop.offset
    rw [ends]
    exact (exactly p member).bounded

/-- If the lexemes of a comment are exact and in order, so are the nodes of its tree. -/
theorem isPlaced_ofComment {n : Node} (member : n ∈ (ofComment c stop).nodes) : n.IsPlaced source := by
  have run {t : Tag Placed} (inTags : t ∈ c.tags) : t.parts.Sublist c.parts := by
    have whole : t.parts.Sublist (c.tags.flatMap Tag.parts) := List.sublist_flatten_of_mem (List.mem_map_of_mem inTags)
    rw [Comment.parts]
    exact whole.trans ((List.sublist_append_right _ _).trans (List.sublist_append_left _ _))
  cases mem_nodes_ofComment_iff.mp member with
  | root => exact isPlaced_root ordered exactly ends
  | @mark p isMark =>
    refine isPlaced_leaf (exactly p ?_)
    simp only [Comment.parts, List.mem_append] at isMark ⊢
    tauto
  | description member =>
    refine isPlaced_ofDescription ordered exactly ?_ member
    rw [Comment.parts, List.append_assoc, List.append_assoc]
    exact (List.sublist_append_left _ _).trans (List.sublist_append_right _ _)
  | tag inTags => exact isPlaced_ofTag ordered exactly (run inTags)
  | @inTag t p inTags isPart => exact isPlaced_leaf (exactly p ((run inTags).subset (List.mem_append_left _ isPart)))
  | tagDescription inTags member =>
    exact isPlaced_ofDescription ordered exactly ((List.sublist_append_right _ _).trans (run inTags)) member

end

end Node

theorem Placed.isExact_of_mem {source : List UInt8} {p : Placed}
    (member : p ∈ inTurn .origin (Reading.ofSource source).lexemes) : p.span.IsExact source := by
  obtain ⟨before, after, cut⟩ := List.append_of_mem member
  obtain ⟨_, _, split, _⟩ := Reading.step_behind source
  obtain ⟨start, stop⟩ := span_of_inTurn cut
  have lexemes := map_lexeme_inTurn .origin (Reading.ofSource source).lexemes
  rw [cut] at lexemes
  generalize Glyph.decode (source.drop (Reading.ofSource source).reached.offset) = left at split
  have bounded := stop_le_of_read split cut
  rw [← lexemes] at split
  have startSplit : Glyph.decode source = ((before.flatMap fun b => b.lexeme.glyphs) ++ p.lexeme.padding) ++
      (p.lexeme.body ++ ((after.map lexeme).flatMap Lexeme.glyphs ++ left)) := by
    rw [split]
    simp [List.flatMap_map, Lexeme.glyphs]
  have stopSplit := startSplit
  rw [← List.append_assoc] at stopSplit
  have startCounted := Place.afterAll_eq_counted startSplit
  have stopCounted := Place.afterAll_eq_counted stopSplit
  rw [← start] at startCounted
  rw [Place.afterAll_append, ← start, ← stop] at stopCounted
  refine ⟨?_, ?_, start_lt_stop_of_mem member, bounded⟩
  · rw [startCounted]
    rfl
  · rw [stopCounted]
    rfl

/-- The lexemes of any source stand one behind the other from its front, each of them padding and a body that is not
empty. On acceptance only blanks are behind them, and the place behind them is always where their sizes lead. The nodes
of the tree of a valid source have exact ends, and the children of each lie inside it, in order and apart. -/
theorem lexemes_tile (source : List UInt8) :
    (∀ before l after, (Reading.ofSource source).lexemes = before ++ l :: after → l.IsTile source before) ∧
      ((Reading.ofSource source).lexemes.map Lexeme.size).sum ≤ source.length ∧
      (Reading.ofSource source).reached =
        .counted source ((Reading.ofSource source).lexemes.map Lexeme.size).sum ∧
      ((∃ trailing, (Reading.ofSource source).ending = .accepted trailing) →
        ∀ g ∈ Glyph.decode (source.drop ((Reading.ofSource source).lexemes.map Lexeme.size).sum), g.isBlank = true) ∧
      ∀ root, Node.ofSource? source = some root → ∀ n ∈ root.nodes, n.IsPlaced source := by
  obtain ⟨reached, bounded⟩ := Reading.reached_eq_counted source
  refine ⟨fun _ _ _ => Reading.isTile_of_cut, bounded, reached, ?_, ?_⟩
  · intro accepted
    have blank := ((Reading.ending_eq_accepted_iff source).mp accepted).2
    rwa [reached] at blank
  · intro root valid n member
    obtain ⟨c, trailing, _, parts, split, rfl⟩ := Node.exists_of_ofSource? valid
    refine Node.isPlaced_ofComment ?_ ?_ ?_ member
    · rw [parts]
      exact (Placed.ordered_inTurn _ _).2
    · rw [parts]
      exact fun p => Placed.isExact_of_mem
    · exact Reading.end_eq_counted split

end DocComment
