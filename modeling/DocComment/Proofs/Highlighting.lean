import DocComment.Proofs.TreeShape
import DocComment.Tree.Query

/-!
# Highlights

The highlighting query captures every tag name, every identifier and every description of the tree of a valid source,
each once and nothing else (`highlights_exact`). It asks for identifiers inside tags only, which is where all of them
stand (`Node.captures_eq`). The captures mark the runs of lexemes between the stars and the closing slash, one each.
-/

namespace DocComment

/-! ## What is to be captured -/

namespace Highlight

/-- The pattern for nodes of a symbol and the name that it gives. -/
def ofSymbol? : Symbol → Option (Nat × String)
  | .tagName _ => some (0, "keyword")
  | .identifier => some (1, "variable.parameter")
  | .description => some (2, "comment")
  | _ => none

/-- The capture of a node, if its symbol is one to be captured. -/
def ofNode? (n : Node) : Option Capture := (ofSymbol? n.symbol).map fun (pattern, name) => ⟨pattern, name, n.span⟩

/-- The pattern for what a token starts. -/
def index : Token → Nat
  | .tagName _ => 0
  | .identifier => 1
  | _ => 2

/-- The patterns that some tokens spell: slashes and stars are dropped, a longest run of texts and braces spells one
pattern, and every other token one of its own. -/
def spelling (tokens : List Token) : List Nat :=
  ((tokens.filter fun t => !(t == .slash || t == .star)).splitBy fun s t => s.isProse && t.isProse).filterMap
    fun run => run.head?.map index

theorem query_eq :
    query = [⟨0, 21, [], "tag_name", "keyword"⟩, ⟨21, 63, ["tag"], "identifier", "variable.parameter"⟩,
      ⟨63, 86, [], "description", "comment"⟩] := by decide +kernel

/-- Inside a tag, or for any other symbol than that of identifiers, the query captures what is to be captured. -/
theorem capturesAt_eq {enclosing : List String} {s : Symbol} (inTag : s = .identifier → enclosing.head? = some "tag")
    (span : Span) :
    query.capturesAt enclosing s span =
      ((ofSymbol? s).map fun (pattern, name) => (⟨pattern, name, span⟩ : Capture)).toList := by
  rw [Query.capturesAt, query_eq]
  cases s with
  | identifier =>
    obtain ⟨more, rfl⟩ := List.head?_eq_some_iff.mp (inTag rfl)
    simp [Pattern.admits, Symbol.isNamed, Symbol.isVisible, Symbol.kind, ofSymbol?, List.zipIdx]
  | _ => simp [Pattern.admits, Symbol.isNamed, Symbol.isVisible, Symbol.kind, ofSymbol?, List.zipIdx]

end Highlight

/-! ## Captures in a tree -/

namespace Node

mutual

/-- All nodes of a tree, each before its children. -/
def nodes : Node → List Node
  | .node s span children => .node s span children :: nodesAmong children

/-- All nodes of some trees in order. -/
def nodesAmong : List Node → List Node
  | [] => []
  | first :: rest => nodes first ++ nodesAmong rest

end

mutual

/-- Identifiers are children of tags. The tree itself stands inside a node of the kind given, if there is one. -/
def HasParameters (enclosing : Option String) : Node → Prop
  | .node s _ children => (s = .identifier → enclosing = some "tag") ∧ HaveParameters (some s.kind) children

/-- Identifiers are children of tags in some siblings. -/
def HaveParameters (enclosing : Option String) : List Node → Prop
  | [] => True
  | first :: rest => HasParameters enclosing first ∧ HaveParameters enclosing rest

end

mutual

/-- If identifiers are children of tags, the query captures each node that is to be captured, in order. -/
theorem capturesIn_eq (enclosing : List String) :
    ∀ {n : Node}, HasParameters enclosing.head? n →
      Highlight.query.capturesIn enclosing n = n.nodes.filterMap Highlight.ofNode?
  | .node s span children, ⟨inTag, inside⟩ => by
    rw [Query.capturesIn, Highlight.capturesAt_eq inTag, capturesAmong_eq (s.kind :: enclosing) inside, nodes,
      List.filterMap_cons]
    cases found : Highlight.ofSymbol? s with
    | none => simp [Highlight.ofNode?, Node.symbol, found]
    | some given => simp [Highlight.ofNode?, Node.symbol, Node.span, found]

theorem capturesAmong_eq (enclosing : List String) :
    ∀ {ns : List Node}, HaveParameters enclosing.head? ns →
      Highlight.query.capturesAmong enclosing ns = (nodesAmong ns).filterMap Highlight.ofNode?
  | [], _ => rfl
  | first :: rest, ⟨inFirst, inRest⟩ => by
    rw [Query.capturesAmong, capturesIn_eq enclosing inFirst, capturesAmong_eq enclosing inRest, nodesAmong,
      List.filterMap_append]

end

/-! ## The tree of a derivation -/

theorem haveParameters_iff (enclosing : Option String) (ns : List Node) :
    HaveParameters enclosing ns ↔ ∀ n ∈ ns, HasParameters enclosing n := by
  induction ns with
  | nil => simp [HaveParameters]
  | cons first rest ih => rw [HaveParameters, ih, List.forall_mem_cons]

theorem hasParameters_leaf (enclosing : Option String) (p : Placed) :
    HasParameters enclosing (leaf p) ↔ (p.token = .identifier → enclosing = some "tag") := by
  cases kind : p.token <;> simp [leaf, HasParameters, HaveParameters, Symbol.ofToken, kind]

theorem hasParameters_ofDescription (enclosing : Option String) (description : List Placed) :
    ∀ n ∈ ofDescription description, HasParameters enclosing n := by
  cases description with
  | nil => simp [ofDescription]
  | cons first rest => simp [ofDescription, HasParameters, HaveParameters]

theorem hasParameters_ofTag (enclosing : Option String) (t : Tag Placed) : HasParameters enclosing (ofTag t) := by
  refine ⟨Symbol.noConfusion, (haveParameters_iff _ _).mpr ?_⟩
  intro n member
  rcases List.mem_append.mp member with member | member
  · rw [← List.map_cons] at member
    obtain ⟨p, _, rfl⟩ := List.mem_map.mp member
    exact (hasParameters_leaf _ p).mpr fun _ => rfl
  · exact hasParameters_ofDescription _ _ n member

theorem nodesAmong_append (front back : List Node) : nodesAmong (front ++ back) = nodesAmong front ++ nodesAmong back := by
  induction front with
  | nil => rfl
  | cons first rest ih => rw [List.cons_append, nodesAmong, nodesAmong, ih, List.append_assoc]

theorem nodesAmong_leaves (ps : List Placed) : nodesAmong (ps.map leaf) = ps.map leaf := by
  induction ps with
  | nil => rfl
  | cons p rest ih =>
    rw [List.map_cons, nodesAmong, ih]
    rfl

theorem nodesAmong_ofDescription (description : List Placed) :
    nodesAmong (ofDescription description) = ofDescription description := by
  cases description <;> rfl

/-- In tags, only nodes without children are to be captured. -/
theorem filterMap_nodes_tags (tags : List (Tag Placed)) :
    (nodesAmong (tags.map ofTag)).filterMap Highlight.ofNode? =
      (frontiers (tags.map ofTag)).filterMap Highlight.ofNode? := by
  induction tags with
  | nil => rfl
  | cons t rest ih =>
    have own : (nodes (ofTag t)).filterMap Highlight.ofNode? = (frontier (ofTag t)).filterMap Highlight.ofNode? := by
      have children : nodes (ofTag t) =
          ofTag t :: nodesAmong ((t.name :: t.parameters).map leaf ++ ofDescription t.description) := rfl
      rw [children, nodesAmong_append, nodesAmong_leaves, nodesAmong_ofDescription, frontier_ofTag, List.map_cons]
      rfl
    rw [List.map_cons, nodesAmong, frontiers, List.filterMap_append, List.filterMap_append, own, ih]

section
variable {c : Comment Placed} (derivation : c.IsDerivation Placed.token) (stop : Place)
include derivation

private theorem marks_not_captured :
    ((c.opening :: c.stars).map leaf).filterMap Highlight.ofNode? = [] ∧
      ([c.closing].map leaf).filterMap Highlight.ofNode? = [] := by
  have none {p : Placed} (mark : p.token = .slash ∨ p.token = .star) : Highlight.ofNode? (leaf p) = none := by
    rcases mark with slash | star
    · simp [Highlight.ofNode?, leaf, Node.symbol, slash, Symbol.ofToken, Highlight.ofSymbol?]
    · simp [Highlight.ofNode?, leaf, Node.symbol, star, Symbol.ofToken, Highlight.ofSymbol?]
  constructor
  · rw [List.filterMap_eq_nil_iff]
    intro n member
    obtain ⟨p, isMark, rfl⟩ := List.mem_map.mp member
    exact none (front_kinds derivation p isMark)
  · simpa using none (Or.inl derivation.closing)

private theorem hasParameters_ofComment : HasParameters none (ofComment c stop) := by
  have mark {p : Placed} (mark : p.token = .slash ∨ p.token = .star) : HasParameters (some "document") (leaf p) := by
    refine (hasParameters_leaf _ p).mpr fun identifier => ?_
    rcases mark with slash | star
    · rw [slash] at identifier
      cases identifier
    · rw [star] at identifier
      cases identifier
  refine ⟨Symbol.noConfusion, (haveParameters_iff _ _).mpr ?_⟩
  intro n member
  rw [List.mem_append, List.mem_append, List.mem_append, ← List.map_cons] at member
  rcases member with ((member | member) | member) | member
  · obtain ⟨p, isMark, rfl⟩ := List.mem_map.mp member
    exact mark (front_kinds derivation p isMark)
  · exact hasParameters_ofDescription _ _ n member
  · obtain ⟨t, _, rfl⟩ := List.mem_map.mp member
    exact hasParameters_ofTag _ t
  · obtain rfl := List.mem_singleton.mp member
    exact mark (Or.inl derivation.closing)

/-- The captures in the tree of a derivation are those of its description and of the nodes without children in its
tags, which are all that is to be captured. -/
theorem captures_ofComment :
    Highlight.query.captures (ofComment c stop) = (ofComment c stop).nodes.filterMap Highlight.ofNode? ∧
      (ofComment c stop).nodes.filterMap Highlight.ofNode? =
        (ofDescription c.description ++ frontiers (c.tags.map ofTag)).filterMap Highlight.ofNode? := by
  have children : nodes (ofComment c stop) = ofComment c stop ::
      nodesAmong ((c.opening :: c.stars).map leaf ++ ofDescription c.description ++ c.tags.map ofTag ++
        [c.closing].map leaf) := rfl
  obtain ⟨front, back⟩ := marks_not_captured derivation
  refine ⟨capturesIn_eq [] (hasParameters_ofComment derivation stop), ?_⟩
  rw [children, List.filterMap_cons_none rfl, nodesAmong_append, nodesAmong_append, nodesAmong_append,
    nodesAmong_leaves, nodesAmong_leaves, nodesAmong_ofDescription, List.filterMap_append, List.filterMap_append,
    List.filterMap_append, front, back, filterMap_nodes_tags, List.filterMap_append, List.nil_append, List.append_nil]

end

end Node

/-! ## What captures mark -/

namespace Highlight

/-- A capture marks a run of lexemes: it has the pattern for the first, and reaches from that to the last. -/
def Marks (run : List Placed) (c : Capture) : Prop :=
  ∃ first rest, run = first :: rest ∧ c.pattern = index first.token ∧ c.span = Node.cover first rest

/-- The node that shows a run is captured, if the run is no slash and no star. -/
theorem marks_of_shows {run : List Placed} {n : Node} (shown : Node.Shows run n)
    (noMark : ∀ p ∈ run, p.token ≠ .slash ∧ p.token ≠ .star) : ∃ c, ofNode? n = some c ∧ Marks run c := by
  cases shown with
  | @leaf p alone =>
    obtain ⟨notSlash, notStar⟩ := noMark p (by simp)
    cases kind : p.token with
    | tagName c => exact ⟨⟨0, "keyword", p.span⟩, by simp [ofNode?, Node.symbol, Node.span, ofSymbol?, Symbol.ofToken],
        p, [], rfl, by simp [index, kind], rfl⟩
    | identifier => exact ⟨⟨1, "variable.parameter", p.span⟩,
        by simp [ofNode?, Node.symbol, Node.span, ofSymbol?, Symbol.ofToken], p, [], rfl, by simp [index, kind], rfl⟩
    | slash => exact absurd kind notSlash
    | star => exact absurd kind notStar
    | text | brace => simp [kind, Token.isProse] at alone
  | description nonempty prose =>
    obtain ⟨first, rest, rfl⟩ := List.exists_cons_of_ne_nil nonempty
    have pattern : index first.token = 2 := by
      have isProse := prose first (by simp)
      cases kind : first.token <;> simp [kind, Token.isProse] at isProse <;> rfl
    exact ⟨⟨2, "comment", Node.cover first rest⟩, rfl, first, rest, rfl, pattern.symm, rfl⟩

/-- Nodes that show runs are captured each, in order. -/
theorem forall₂_marks {runs : List (List Placed)} {nodes : List Node} (shown : List.Forall₂ Node.Shows runs nodes)
    (noMark : ∀ run ∈ runs, ∀ p ∈ run, p.token ≠ .slash ∧ p.token ≠ .star) :
    List.Forall₂ Marks runs (nodes.filterMap ofNode?) := by
  induction shown with
  | nil => exact .nil
  | cons first _ ih =>
    obtain ⟨c, captured, marks⟩ := marks_of_shows first (noMark _ (by simp))
    rw [List.filterMap_cons_some captured]
    exact .cons marks (ih fun run member => noMark run (by simp [member]))

section
variable {runs : List (List Placed)} {captures : List Capture} (marks : List.Forall₂ Marks runs captures)
include marks

theorem patterns_of_marks :
    captures.map Capture.pattern = runs.filterMap fun run => run.head?.map fun p => index p.token := by
  induction marks with
  | nil => rfl
  | cons first _ ih =>
    obtain ⟨p, rest, rfl, pattern, _⟩ := first
    rw [List.map_cons, ih, pattern]
    rfl

theorem exists_run_of_mem {c : Capture} (member : c ∈ captures) : ∃ run ∈ runs, Marks run c := by
  induction marks with
  | nil => cases member
  | cons first _ ih =>
    rcases List.mem_cons.mp member with rfl | member
    · exact ⟨_, by simp, first⟩
    · obtain ⟨run, inRuns, marks⟩ := ih member
      exact ⟨run, by simp [inRuns], marks⟩

end

/-- A capture that marks a run starts where the first lexeme of the run does, and stops where the last does. -/
theorem span_of_marks {run : List Placed} {c : Capture} (marks : Marks run c) :
    ∃ first ∈ run, ∃ last ∈ run, c.span.start = first.span.start ∧ c.span.stop = last.span.stop ∧
      (first = last ∨ ∃ front, run = first :: front ++ [last]) := by
  obtain ⟨first, rest, rfl, _, span⟩ := marks
  refine ⟨first, by simp, (first :: rest).getLast (List.cons_ne_nil _ _), List.getLast_mem _, ?_, ?_, ?_⟩
  · rw [span]
    rfl
  · rw [span]
    rfl
  · rcases List.eq_nil_or_concat rest with rfl | ⟨front, last, rfl⟩
    · exact Or.inl rfl
    · exact Or.inr ⟨front, by simp⟩

section
variable {runs : List (List Placed)} {captures : List Capture} (marks : List.Forall₂ Marks runs captures)
  (ordered : runs.flatten.Pairwise fun p q => p.span.stop.offset ≤ q.span.start.offset)
include marks ordered

/-- Captures of runs in order stand in order, apart from each other. -/
theorem pairwise_of_marks : captures.Pairwise fun a b => a.span.stop.offset ≤ b.span.start.offset := by
  induction marks with
  | nil => exact .nil
  | cons first later ih =>
    rw [List.flatten_cons, List.pairwise_append] at ordered
    obtain ⟨_, behind, across⟩ := ordered
    refine .cons ?_ (ih behind)
    intro c member
    obtain ⟨run, inRuns, marks⟩ := exists_run_of_mem later member
    obtain ⟨_, _, last, isLast, _, stop, _⟩ := span_of_marks first
    obtain ⟨start, isFirst, _, _, begins, _, _⟩ := span_of_marks marks
    rw [stop, begins]
    exact across last isLast start (List.mem_flatten_of_mem inRuns isFirst)

/-- A capture is not empty, if no lexeme is. -/
theorem start_lt_stop (nonempty : ∀ p ∈ runs.flatten, p.span.start.offset < p.span.stop.offset) {c : Capture}
    (member : c ∈ captures) : c.span.start.offset < c.span.stop.offset := by
  obtain ⟨run, inRuns, marks⟩ := exists_run_of_mem marks member
  obtain ⟨first, isFirst, last, isLast, start, stop, same | ⟨front, split⟩⟩ := span_of_marks marks
  · rw [start, stop, ← same]
    exact nonempty first (List.mem_flatten_of_mem inRuns isFirst)
  · have inOrder := (List.pairwise_flatten.mp ordered).1 run inRuns
    have before : first.span.stop.offset ≤ last.span.start.offset := by
      rw [split, List.cons_append] at inOrder
      exact (List.pairwise_cons.mp inOrder).1 last (by simp)
    have firstIs := nonempty first (List.mem_flatten_of_mem inRuns isFirst)
    have lastIs := nonempty last (List.mem_flatten_of_mem inRuns isLast)
    rw [start, stop]
    omega

end

/-! ## What tokens spell -/

private theorem splitBy_map {α β : Type} (f : α → β) (r : β → β → Bool) (as : List α) :
    (as.map f).splitBy r = (as.splitBy fun a b => r (f a) (f b)).map (List.map f) := by
  rw [List.splitBy_eq_iff]
  refine ⟨?_, ?_, ?_, ?_⟩
  · rw [← List.map_flatten, List.flatten_splitBy]
  · simp
  · intro run member
    obtain ⟨run, inRuns, rfl⟩ := List.mem_map.mp member
    rw [List.isChain_map]
    exact List.isChain_of_mem_splitBy inRuns
  · rw [List.isChain_map]
    refine (List.isChain_getLast_head_splitBy _ as).imp ?_
    rintro run next ⟨nonempty, nextNonempty, apart⟩
    exact ⟨by simpa using nonempty, by simpa using nextNonempty, by simpa using apart⟩

/-- The tokens of a derivation spell the patterns of the runs between the stars and the closing slash. -/
theorem spelling_parts {c : Comment Placed} (derivation : c.IsDerivation Placed.token) :
    spelling (c.parts.map Placed.token) =
      (Placed.runs c.stretch.parts).filterMap fun run => run.head?.map fun p => index p.token := by
  have stretch : ((c.stretch.parts.map Placed.token).filter fun t => !(t == .slash || t == .star)) =
      c.stretch.parts.map Placed.token := by
    refine List.filter_eq_self.mpr ?_
    intro t member
    obtain ⟨p, inStretch, rfl⟩ := List.mem_map.mp member
    have noMark := Comment.Stretch.noMark_of_fits (Comment.fits_stretch derivation) p inStretch
    simpa using noMark
  have stars : ((c.stars.map Placed.token).filter fun t => !(t == .slash || t == .star)) = [] := by
    refine List.filter_eq_nil_iff.mpr ?_
    intro t member
    obtain ⟨p, isStar, rfl⟩ := List.mem_map.mp member
    simp [derivation.stars p isStar]
  have dropped : ((c.parts.map Placed.token).filter fun t => !(t == .slash || t == .star)) =
      c.stretch.parts.map Placed.token := by
    rw [Comment.parts_eq, List.map_cons, derivation.opening, List.filter_cons_of_neg (by simp), List.map_append,
      List.map_append, List.filter_append, List.filter_append, stars, stretch, List.map_singleton, derivation.closing]
    simp
  rw [spelling, dropped, splitBy_map, List.filterMap_map]
  refine List.filterMap_congr fun run _ => ?_
  cases run <;> rfl

end Highlight

/-- What stands between the stars and the closing slash of a source stands there in order, and no part of it is
empty. -/
private theorem Comment.stretch_inTurn {source : List UInt8} {c : Comment Placed} {trailing : List Glyph}
    (parts : c.parts = Placed.inTurn .origin (Reading.ofSource source).lexemes)
    (read : Glyph.decode source = (Reading.ofSource source).lexemes.flatMap Lexeme.glyphs ++ trailing) :
    (c.stretch.parts.Pairwise fun p q => p.span.stop.offset ≤ q.span.start.offset) ∧
      ∀ p ∈ c.stretch.parts, p.span.start.offset < p.span.stop.offset ∧ p.span.stop.offset ≤ source.length := by
  have inside : c.stretch.parts.Sublist (Placed.inTurn .origin (Reading.ofSource source).lexemes) := by
    rw [← parts, Comment.parts_eq, List.append_assoc]
    exact .cons _ ((List.sublist_append_left _ _).trans (List.sublist_append_right _ _))
  refine ⟨List.Pairwise.sublist inside (Placed.ordered_inTurn _ _).2, fun p member => ?_⟩
  obtain ⟨before, after, cut⟩ := List.append_of_mem (inside.subset member)
  exact ⟨Placed.start_lt_stop_of_mem (inside.subset member), Placed.stop_le_of_read read cut⟩

/-- The captures in the tree of a valid source are those of its tag names, identifiers and descriptions, in order,
with the bytes that they cover. None of them is empty, none reaches into another, and the tokens of the source spell
their patterns. -/
theorem highlights_exact {source : List UInt8} {root : Node} (valid : Node.ofSource? source = some root) :
    ∃ captures, highlights? source = some captures ∧
      captures.map Prod.fst = root.nodes.filterMap Highlight.ofNode? ∧
      (∀ c ∈ captures, c.2 = c.1.span.slice source ∧ c.1.span.start.offset < c.1.span.stop.offset ∧
        c.1.span.stop.offset ≤ source.length) ∧
      captures.Pairwise (fun a b => a.1.span.stop.offset ≤ b.1.span.start.offset) ∧
      captures.map (fun c => c.1.pattern) = Highlight.spelling (Reading.ofSource source).tokens := by
  obtain ⟨c, trailing, derivation, parts, read, rfl⟩ := Node.exists_of_ofSource? valid
  obtain ⟨captured, found⟩ := Node.captures_ofComment derivation ((Reading.ofSource source).reached.afterAll trailing)
  have flat : (Placed.runs c.stretch.parts).flatten = c.stretch.parts := List.flatten_splitBy ..
  have noMark : ∀ run ∈ Placed.runs c.stretch.parts, ∀ p ∈ run, p.token ≠ .slash ∧ p.token ≠ .star := by
    intro run inRuns p member
    refine Comment.Stretch.noMark_of_fits (Comment.fits_stretch derivation) p ?_
    rw [← flat]
    exact List.mem_flatten_of_mem inRuns member
  have marks := Highlight.forall₂_marks (Node.shows_stretch derivation) noMark
  rw [← found, ← captured] at marks
  obtain ⟨ordered, bounds⟩ := Comment.stretch_inTurn parts read
  rw [← flat] at ordered bounds
  have shown := congrArg (Option.map fun tree => (Highlight.query.captures tree).map fun c => (c, c.span.slice source))
    valid
  refine ⟨_, shown, ?_, ?_, ?_, ?_⟩
  · rw [List.map_map, ← captured]
    exact List.map_id _
  · intro entry member
    obtain ⟨capture, isCapture, rfl⟩ := List.mem_map.mp member
    obtain ⟨run, inRuns, marksRun⟩ := Highlight.exists_run_of_mem marks isCapture
    obtain ⟨_, _, last, isLast, _, stop, _⟩ := Highlight.span_of_marks marksRun
    refine ⟨rfl, Highlight.start_lt_stop marks ordered (fun p member => (bounds p member).1) isCapture, ?_⟩
    rw [stop]
    exact (bounds last (List.mem_flatten_of_mem inRuns isLast)).2
  · rw [List.pairwise_map]
    exact Highlight.pairwise_of_marks marks ordered
  · rw [List.map_map, Reading.tokens, ← Placed.map_token_inTurn .origin, ← parts, Highlight.spelling_parts derivation,
      ← Highlight.patterns_of_marks marks]
    rfl

/-- A description, a tag name, its parameter and its own description are highlighted in that order. -/
theorem highlights_exact_param :
    ∃ root, Node.ofSource? (encode "/** a\n@param x y\n/") = some root ∧
      ∃ captures, highlights? (encode "/** a\n@param x y\n/") = some captures ∧
        captures.map Prod.fst = root.nodes.filterMap Highlight.ofNode? ∧
        (∀ c ∈ captures, c.2 = c.1.span.slice (encode "/** a\n@param x y\n/") ∧
          c.1.span.start.offset < c.1.span.stop.offset ∧
          c.1.span.stop.offset ≤ (encode "/** a\n@param x y\n/").length) ∧
        captures.Pairwise (fun a b => a.1.span.stop.offset ≤ b.1.span.start.offset) ∧
        captures.map (fun c => c.1.pattern) = [2, 0, 1, 2] := by
  have valid : (Node.ofSource? (encode "/** a\n@param x y\n/")).isSome = true := by decide +kernel
  obtain ⟨root, found⟩ := Option.isSome_iff_exists.mp valid
  have spelled : Highlight.spelling (Reading.ofSource (encode "/** a\n@param x y\n/")).tokens = [2, 0, 1, 2] := by
    decide +kernel
  obtain ⟨captures, shown, nodes, bounds, ordered, patterns⟩ := highlights_exact found
  exact ⟨root, found, captures, shown, nodes, bounds, ordered, patterns.trans spelled⟩

end DocComment
