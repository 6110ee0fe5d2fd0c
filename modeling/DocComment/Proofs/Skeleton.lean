import Mathlib.Data.List.SplitBy
import DocComment.Proofs.Acceptance

/-!
# Skeletons: what an S-expression tells

The skeleton of a comment is its tokens without the slashes and stars, where a run of texts and braces counts as one.
It can be put together token by token (`skeleton`) or read off the longest runs (`Mark.spelling`), which comes to the
same (`skeleton_eq_spelling`). The S-expression of a tree is a rendering of the skeleton (`Node.expression_ofComment`),
and the skeleton can be read off it (`Mark.scan_render`). So two trees have one S-expression exactly if their tokens
have one skeleton (`Node.expression_eq_iff`).
-/

namespace DocComment

/-- What a skeleton is made of. -/
inductive Mark where
  | description
  | name
  | parameter
  deriving DecidableEq

namespace Mark

/-- The mark of a token; slashes and stars have none. -/
def ofToken? : Token → Option Mark
  | .slash | .star => none
  | .tagName _ => some .name
  | .identifier => some .parameter
  | .text | .brace => some .description

/-- One more mark before others; a description becomes one with a description behind it. -/
def push (m : Mark) (rest : List Mark) : List Mark :=
  if m = .description ∧ rest.head? = some .description then rest else m :: rest

def pushAll (tokens : List Token) (rest : List Mark) : List Mark := (tokens.filterMap ofToken?).foldr push rest

/-- The mark of a run of texts and braces, if it is not empty. -/
def ofProse {α : Type} : List α → List Mark
  | [] => []
  | _ :: _ => [.description]

end Mark

/-- The skeleton that some tokens spell. -/
def skeleton (tokens : List Token) : List Mark := Mark.pushAll tokens []

def Tag.skeleton {α : Type} (t : Tag α) : List Mark :=
  .name :: t.parameters.map (fun _ => .parameter) ++ Mark.ofProse t.description

def Comment.skeleton {α : Type} (c : Comment α) : List Mark :=
  Mark.ofProse c.description ++ c.tags.flatMap Tag.skeleton

/-! ## The tokens of a comment -/

namespace Mark

theorem pushAll_append (front back : List Token) (rest : List Mark) :
    pushAll (front ++ back) rest = pushAll front (pushAll back rest) := by
  rw [pushAll, List.filterMap_append, List.foldr_append]
  rfl

theorem skeleton_append (front back : List Token) : skeleton (front ++ back) = pushAll front (skeleton back) :=
  pushAll_append front back []

section
variable {α : Type} {token : α → Token}

theorem pushAll_stars {stars : List α} (kinds : ∀ p ∈ stars, token p = .star) (rest : List Mark) :
    pushAll (stars.map token) rest = rest := by
  have none : (stars.map token).filterMap ofToken? = [] := by
    rw [List.filterMap_eq_nil_iff]
    intro t member
    obtain ⟨p, isStar, rfl⟩ := List.mem_map.mp member
    rw [kinds p isStar]
    rfl
  rw [pushAll, none, List.foldr_nil]

theorem pushAll_identifiers {parameters : List α} (kinds : ∀ p ∈ parameters, token p = .identifier) (rest : List Mark) :
    pushAll (parameters.map token) rest = parameters.map (fun _ => .parameter) ++ rest := by
  induction parameters with
  | nil => rfl
  | cons p more ih =>
    have first : token p = .identifier := kinds p (by simp)
    have later := ih fun q member => kinds q (by simp [member])
    simp [pushAll, first, ofToken?, push] at later ⊢
    exact later

theorem pushAll_prose {run : List α} (kinds : ∀ p ∈ run, (token p).isProse = true) {rest : List Mark}
    (apart : rest.head? ≠ some .description) : pushAll (run.map token) rest = ofProse run ++ rest := by
  induction run with
  | nil => rfl
  | cons p more ih =>
    have mark : ofToken? (token p) = some .description := by
      have prose := kinds p (by simp)
      cases kind : token p <;> simp [kind, Token.isProse] at prose <;> rfl
    have later := ih fun q member => kinds q (by simp [member])
    have first : pushAll ((p :: more).map token) rest = push .description (ofProse more ++ rest) := by
      rw [← later]
      simp [pushAll, mark]
    rw [first]
    cases more with
    | nil => simp [push, ofProse, apart]
    | cons q more => simp [push, ofProse]

/-- No mark but a description is ever lost. -/
theorem countP_foldr_push (marks rest : List Mark) :
    (marks.foldr push rest).countP (· != .description) =
      marks.countP (· != .description) + rest.countP (· != .description) := by
  induction marks with
  | nil => simp
  | cons m marks ih =>
    rw [List.foldr_cons, push]
    by_cases joined : m = .description ∧ (marks.foldr push rest).head? = some .description
    · have lost : (m != .description) = false := by simp [joined.1]
      rw [if_pos joined, ih, List.countP_cons_of_neg (by simp [lost])]
    · rw [if_neg joined, List.countP_cons, List.countP_cons, ih]
      omega

/-- What follows a text adds nothing to the skeleton exactly if it is prose. -/
theorem skeleton_text_iff (front : List Token) {after : List Token} (noMark : ∀ t ∈ after, t ≠ .slash ∧ t ≠ .star) :
    skeleton (front ++ .text :: after) = skeleton (front ++ [.text]) ↔ ∀ t ∈ after, t.isProse = true := by
  rw [skeleton_append, skeleton_append]
  constructor
  · intro same t member
    have counted := congrArg (List.countP (· != .description)) same
    rw [pushAll, pushAll, countP_foldr_push, countP_foldr_push, skeleton, skeleton, pushAll, pushAll, countP_foldr_push,
      countP_foldr_push] at counted
    have alone : List.countP (· != Mark.description) ([Token.text].filterMap ofToken?) = 0 := rfl
    have none : List.countP (· != Mark.description) ((Token.text :: after).filterMap ofToken?) = 0 := by omega
    obtain ⟨notSlash, notStar⟩ := noMark t member
    have described : ∀ m, ofToken? t = some m → m = .description := by
      intro m mark
      have inMarks : m ∈ (Token.text :: after).filterMap ofToken? := List.mem_filterMap.mpr ⟨t, by simp [member], mark⟩
      simpa using List.countP_eq_zero.mp none m inMarks
    cases t with
    | slash => exact absurd rfl notSlash
    | star => exact absurd rfl notStar
    | text | brace => rfl
    | tagName c => cases described .name rfl
    | identifier => cases described .parameter rfl
  · intro prose
    have all : ∀ t ∈ Token.text :: after, (id t).isProse = true := List.forall_mem_cons.mpr ⟨rfl, prose⟩
    have nothing : ([] : List Mark).head? ≠ some .description := by simp
    have one := pushAll_prose all nothing
    rw [List.map_id, List.append_nil] at one
    rw [skeleton, one]
    rfl

private theorem head_ne_description (tags : List (Tag α)) :
    (tags.flatMap Tag.skeleton).head? ≠ some .description := by
  cases tags <;> simp [Tag.skeleton]

private theorem pushAll_tags {tags : List (Tag α)} (derivations : ∀ t ∈ tags, t.IsDerivation token) :
    pushAll ((tags.flatMap Tag.parts).map token) [] = tags.flatMap Tag.skeleton := by
  induction tags with
  | nil => rfl
  | cons t more ih =>
    obtain ⟨name, identifiers, described⟩ := Comment.Stretch.kinds_of_isDerivation (derivations t (by simp))
    have later := ih fun u member => derivations u (by simp [member])
    have mark : ofToken? (token t.name) = some .name := by
      cases kind : token t.name <;> simp [kind, Token.isTagName] at name
      rfl
    have prose := Comment.Stretch.prose_of_isDescription described
    have whole : ((t :: more).flatMap Tag.parts).map token =
        [token t.name] ++ (t.parameters.map token ++ (t.description.map token ++ (more.flatMap Tag.parts).map token)) := by
      simp [Tag.parts]
    rw [whole, pushAll_append, pushAll_append, pushAll_append, later, pushAll_prose prose (head_ne_description more),
      pushAll_identifiers identifiers]
    simp [pushAll, mark, push, Tag.skeleton]

end

end Mark

/-- The tokens of a derivation spell its skeleton. -/
theorem Comment.skeleton_parts {α : Type} {token : α → Token} {c : Comment α} (derivation : c.IsDerivation token) :
    DocComment.skeleton (c.parts.map token) = c.skeleton := by
  have prose := Stretch.prose_of_isDescription derivation.description
  have whole : c.parts.map token = [token c.opening] ++ (c.stars.map token ++ (c.description.map token ++
      ((c.tags.flatMap Tag.parts).map token ++ [token c.closing]))) := by
    simp [Comment.parts]
  have closing : DocComment.skeleton [Token.slash] = [] := rfl
  rw [whole, Mark.skeleton_append, Mark.skeleton_append, Mark.skeleton_append, Mark.skeleton_append, derivation.opening,
    derivation.closing, Mark.pushAll_stars derivation.stars, closing, Mark.pushAll_tags derivation.tags,
    Mark.pushAll_prose prose (Mark.head_ne_description c.tags)]
  rfl

/-! ## Longest runs -/

section
variable {α : Type} (r : α → α → Bool) {a b : α} {l : List α}

/-- What goes with the element behind it joins the first run. -/
private theorem splitBy_cons_of_rel (goes : r a b = true) {run : List α} {runs : List (List α)}
    (split : (b :: l).splitBy r = run :: runs) : (a :: b :: l).splitBy r = (a :: run) :: runs := by
  rw [List.splitBy_eq_iff] at split ⊢
  obtain ⟨flat, nonempty, chains, apart⟩ := split
  obtain ⟨first, more, rfl⟩ : ∃ first more, run = first :: more :=
    List.exists_cons_of_ne_nil fun isEmpty => nonempty (by simp [isEmpty])
  obtain rfl : b = first := by
    rw [List.flatten_cons, List.cons_append] at flat
    exact (List.cons.inj flat).1
  refine ⟨?_, ?_, ?_, ?_⟩
  · rw [flat]
    rfl
  · simpa using nonempty
  · intro m member
    rcases List.mem_cons.mp member with rfl | member
    · exact .cons_cons goes (chains _ (List.mem_cons_self ..))
    · exact chains m (List.mem_cons_of_mem _ member)
  · cases runs with
    | nil => simp
    | cons next runs =>
      rw [List.isChain_cons_cons] at apart ⊢
      simpa using apart

private theorem splitBy_cons_of_not_rel (parts : r a b = false) : (a :: b :: l).splitBy r = [a] :: (b :: l).splitBy r := by
  rw [← List.singleton_append, List.splitBy_append_cons]
  · rfl
  · simpa using parts

private theorem exists_splitBy_cons (a : α) (l : List α) :
    ∃ run runs, (a :: l).splitBy r = (a :: run) :: runs := by
  induction l generalizing a with
  | nil => exact ⟨[], [], rfl⟩
  | cons b l ih =>
    by_cases goes : r a b = true
    · obtain ⟨run, runs, split⟩ := ih b
      exact ⟨_, _, splitBy_cons_of_rel r goes split⟩
    · exact ⟨_, _, splitBy_cons_of_not_rel r (Bool.not_eq_true _ ▸ goes)⟩

end

namespace Mark

/-- Side by side, two tokens are of one run: both are texts or braces. -/
def sameRun (s t : Token) : Bool := s.isProse && t.isProse

/-- The marks of the longest runs of texts and braces among some tokens, and of every other token. -/
def ofRuns (tokens : List Token) : List Mark :=
  (tokens.splitBy sameRun).filterMap fun run => run.head?.bind ofToken?

/-- The skeleton said by runs: slashes and stars are dropped, a longest run of texts and braces is one description, and
every other token has a mark of its own. -/
def spelling (tokens : List Token) : List Mark := ofRuns (tokens.filter fun t => !(t == .slash || t == .star))

theorem ofToken?_eq_description_iff (t : Token) : ofToken? t = some .description ↔ t.isProse = true := by
  cases t <;> simp [ofToken?, Token.isProse]

theorem ofToken?_eq_none_iff (t : Token) : ofToken? t = none ↔ t = .slash ∨ t = .star := by
  cases t <;> simp [ofToken?]

/-- One more token before others adds its mark to theirs. -/
theorem ofRuns_cons {t : Token} {m : Mark} (mark : ofToken? t = some m) {rest : List Token}
    (marked : ∀ u ∈ rest, ofToken? u ≠ none) : ofRuns (t :: rest) = push m (ofRuns rest) := by
  cases rest with
  | nil =>
    have alone : [t].splitBy sameRun = [[t]] := rfl
    simp [ofRuns, alone, mark, push]
  | cons u rest =>
    obtain ⟨n, markBehind⟩ := Option.ne_none_iff_exists'.mp (marked u (List.mem_cons_self ..))
    obtain ⟨run, runs, split⟩ := exists_splitBy_cons sameRun u rest
    have behind : ofRuns (u :: rest) = n :: runs.filterMap fun run => run.head?.bind ofToken? := by
      simp [ofRuns, split, markBehind]
    have isSame : sameRun t u = true ↔ m = .description ∧ n = .description := by
      rw [sameRun, Bool.and_eq_true, ← ofToken?_eq_description_iff, ← ofToken?_eq_description_iff, mark, markBehind,
        Option.some_inj, Option.some_inj]
    by_cases goes : sameRun t u = true
    · obtain ⟨rfl, rfl⟩ := isSame.mp goes
      have joined : ofRuns (t :: u :: rest) = ofRuns (u :: rest) := by
        simp [ofRuns, splitBy_cons_of_rel sameRun goes split, split, mark, markBehind]
      rw [joined, behind, push, if_pos ⟨rfl, rfl⟩]
    · have apart : ofRuns (t :: u :: rest) = m :: ofRuns (u :: rest) := by
        simp [ofRuns, splitBy_cons_of_not_rel sameRun (Bool.not_eq_true _ ▸ goes), mark]
      rw [apart, behind, push, if_neg]
      simpa [isSame] using goes

end Mark

/-- A skeleton is what its tokens spell by runs. -/
theorem skeleton_eq_spelling (tokens : List Token) : skeleton tokens = Mark.spelling tokens := by
  induction tokens with
  | nil => rfl
  | cons t rest ih =>
    rw [skeleton, Mark.pushAll] at ih ⊢
    by_cases dropped : t = .slash ∨ t = .star
    · rw [List.filterMap_cons_none ((Mark.ofToken?_eq_none_iff t).mpr dropped), ih, Mark.spelling, Mark.spelling,
        List.filter_cons_of_neg (by rcases dropped with rfl | rfl <;> simp)]
    · obtain ⟨m, mark⟩ := Option.ne_none_iff_exists'.mp (mt (Mark.ofToken?_eq_none_iff t).mp dropped)
      rw [List.filterMap_cons_some mark, List.foldr_cons, ih, Mark.spelling, Mark.spelling,
        List.filter_cons_of_pos (by simpa using dropped), Mark.ofRuns_cons mark]
      intro u member
      have kept := (List.mem_filter.mp member).2
      simpa [Mark.ofToken?_eq_none_iff] using kept

/-! ## S-expressions -/

namespace Mark

/-- Writes out a skeleton as an S-expression does. A tag is open until the next name or the end. -/
def render (inTag : Bool) : List Mark → String
  | [] => if inTag then ")" else ""
  | .description :: rest => " (description)" ++ render inTag rest
  | .parameter :: rest => " (identifier)" ++ render inTag rest
  | .name :: rest => (if inTag then ")" else "") ++ " (tag (tag_name)" ++ render true rest

/-- The mark whose node is opened at the front of a text. -/
def opened? : List Char → Option Mark
  | '(' :: 'd' :: 'e' :: _ => some .description
  | '(' :: 'i' :: _ => some .parameter
  | '(' :: 't' :: 'a' :: 'g' :: '_' :: _ => some .name
  | _ => none

/-- The marks whose nodes are opened anywhere in a text, in order. -/
def scan : List Char → List Mark
  | [] => []
  | c :: rest => (opened? (c :: rest)).toList ++ scan rest

/-- A skeleton is read off what it is written out to. -/
theorem scan_render (inTag : Bool) (marks : List Mark) (rest : List Char) :
    scan ((render inTag marks).toList ++ rest) = marks ++ scan rest := by
  induction marks generalizing inTag with
  | nil => cases inTag <;> rfl
  | cons m marks ih =>
    cases m with
    | description => simp [render, scan, opened?, ih]
    | parameter => simp [render, scan, opened?, ih]
    | name => cases inTag <;> simp [render, scan, opened?, ih]

end Mark

namespace Node

theorem expressions_append (front back : List Node) : expressions (front ++ back) = expressions front ++ expressions back := by
  induction front with
  | nil => simp [expressions]
  | cons n rest ih => rw [List.cons_append, expressions, expressions, ih, String.append_assoc]

private theorem expressions_unnamed {ps : List Placed} (marks : ∀ p ∈ ps, p.token = .slash ∨ p.token = .star) :
    expressions (ps.map leaf) = "" := by
  induction ps with
  | nil => rfl
  | cons p rest ih =>
    have unnamed : (leaf p).symbol.isNamed = false := by
      rcases marks p (by simp) with kind | kind <;>
        simp [leaf, symbol, Symbol.ofToken, kind, Symbol.isNamed]
    rw [List.map_cons, expressions, unnamed, ih fun q member => marks q (by simp [member])]
    rfl

private theorem expression_name {p : Placed} (name : p.token.isTagName = true) :
    (leaf p).symbol.isNamed = true ∧ expression (leaf p) = "(tag_name)" := by
  cases kind : p.token <;> simp [kind, Token.isTagName] at name
  constructor
  · simp [leaf, symbol, Symbol.ofToken, kind, Symbol.isNamed, Symbol.isVisible]
  · simp [leaf, expression, expressions, Symbol.ofToken, kind, Symbol.isNamed, Symbol.isVisible, Symbol.kind]

theorem render_identifiers (inTag : Bool) {ps : List Placed} (kinds : ∀ p ∈ ps, p.token = .identifier) (rest : List Mark) :
    Mark.render inTag (ps.map (fun _ => .parameter) ++ rest) = expressions (ps.map leaf) ++ Mark.render inTag rest := by
  induction ps with
  | nil => simp [expressions]
  | cons p more ih =>
    have first : expressions [leaf p] = " (identifier)" := by
      simp [leaf, expressions, expression, symbol, Symbol.ofToken, kinds p (by simp), Symbol.isNamed, Symbol.isVisible,
        Symbol.kind]
    have whole : expressions ((p :: more).map leaf) = " (identifier)" ++ expressions (more.map leaf) := by
      rw [← first, ← expressions_append]
      rfl
    rw [whole, List.map_cons, List.cons_append, Mark.render, ih fun q member => kinds q (by simp [member]),
      String.append_assoc]

theorem render_description (inTag : Bool) (description : List Placed) (rest : List Mark) :
    Mark.render inTag (Mark.ofProse description ++ rest) =
      expressions (ofDescription description) ++ Mark.render inTag rest := by
  cases description with
  | nil => simp [Mark.ofProse, ofDescription, expressions]
  | cons first more =>
    have one : expressions (ofDescription (first :: more)) = " (description)" := by
      simp [ofDescription, expressions, expression, symbol, Symbol.isNamed, Symbol.isVisible, Symbol.kind]
    rw [one]
    rfl

theorem render_tags (inTag : Bool) {tags : List (Tag Placed)} (derivations : ∀ t ∈ tags, t.IsDerivation Placed.token) :
    Mark.render inTag (tags.flatMap Tag.skeleton) =
      (if inTag then ")" else "") ++ expressions (tags.map ofTag) := by
  induction tags generalizing inTag with
  | nil => simp [Mark.render, expressions]
  | cons t more ih =>
    obtain ⟨name, identifiers, _⟩ := Comment.Stretch.kinds_of_isDerivation (derivations t (by simp))
    obtain ⟨named, isName⟩ := expression_name name
    have tag : expression (ofTag t) =
        "(tag" ++ (" (tag_name)" ++ expressions (t.parameters.map leaf) ++ expressions (ofDescription t.description)) ++ ")" := by
      rw [ofTag, expression, List.cons_append, expressions, expressions_append, named, isName]
      simp [Symbol.isNamed, Symbol.isVisible, Symbol.kind, String.append_assoc]
    have visible : (ofTag t).symbol.isNamed = true := rfl
    have later := ih true fun u member => derivations u (by simp [member])
    have opens : " (tag (tag_name)" = " " ++ ("(tag" ++ " (tag_name)") := rfl
    rw [List.map_cons, expressions, visible, tag, List.flatMap_cons, Tag.skeleton, List.cons_append, List.cons_append,
      List.append_assoc, Mark.render, render_identifiers true identifiers, render_description, later,
      opens]
    simp only [if_true, String.append_assoc]

/-- The S-expression of a derivation is its skeleton, written out. -/
theorem expression_ofComment {c : Comment Placed} (derivation : c.IsDerivation Placed.token) (stop : Place) :
    (ofComment c stop).expression = "(document" ++ Mark.render false c.skeleton ++ ")" := by
  have front : expressions ((c.opening :: c.stars).map leaf) = "" := by
    refine expressions_unnamed ?_
    intro p member
    rcases List.mem_cons.mp member with rfl | member
    · exact Or.inl derivation.opening
    · exact Or.inr (derivation.stars p member)
  have back : expressions ([c.closing].map leaf) = "" := expressions_unnamed (by simp [derivation.closing])
  have children : (ofComment c stop).expression = "(document" ++
      expressions ((c.opening :: c.stars).map leaf ++ ofDescription c.description ++ c.tags.map ofTag ++
        [c.closing].map leaf) ++ ")" := rfl
  rw [children, expressions_append, expressions_append, expressions_append, front, back, Comment.skeleton,
    render_description, render_tags false derivation.tags]
  simp

theorem expression_of_ofSource? {source : List UInt8} {root : Node} (valid : ofSource? source = some root) :
    root.expression = "(document" ++ Mark.render false (skeleton (Reading.ofSource source).tokens) ++ ")" := by
  obtain ⟨c, _, derivation, parts, _, rfl⟩ := exists_of_ofSource? valid
  have spelled := Comment.skeleton_parts derivation
  rw [parts, Placed.map_token_inTurn] at spelled
  rw [expression_ofComment derivation, Reading.tokens, spelled]

/-- Two valid sources have one S-expression exactly if their tokens spell one skeleton. -/
theorem expression_eq_iff {source other : List UInt8} {root second : Node} (valid : ofSource? source = some root)
    (validOther : ofSource? other = some second) :
    root.expression = second.expression ↔
      skeleton (Reading.ofSource source).tokens = skeleton (Reading.ofSource other).tokens := by
  rw [expression_of_ofSource? valid, expression_of_ofSource? validOther]
  constructor
  · intro same
    have read (marks : List Mark) : Mark.scan ("(document" ++ Mark.render false marks ++ ")").toList = marks := by
      have scanned := Mark.scan_render false marks [')']
      simp only [String.toList_append, List.append_assoc]
      simp [Mark.scan, Mark.opened?] at scanned ⊢
      exact scanned
    rw [← read (skeleton _), same, read]
  · intro same
    rw [same]

/-- The S-expressions of two valid sources are equal exactly if their tokens spell the same marks by runs. -/
theorem expression_tells_skeleton {source other : List UInt8} {root second : Node}
    (valid : ofSource? source = some root) (validOther : ofSource? other = some second) :
    root.expression = second.expression ↔
      Mark.spelling (Reading.ofSource source).tokens = Mark.spelling (Reading.ofSource other).tokens := by
  rw [← skeleton_eq_spelling, ← skeleton_eq_spelling]
  exact expression_eq_iff valid validOther

/-- Stars, braces, names and line breaks may differ. -/
theorem expression_tells_skeleton_names :
    ∃ root second, ofSource? (encode "/** a {b} c\n@param x y\n@noRd\n/") = some root ∧
      ofSource? (encode "/* d\n@slot  y1 z\nw\n@export\n/") = some second ∧
      Mark.spelling (Reading.ofSource (encode "/** a {b} c\n@param x y\n@noRd\n/")).tokens =
        [.description, .name, .parameter, .description, .name] ∧
      root.expression = second.expression := by
  have valid : (ofSource? (encode "/** a {b} c\n@param x y\n@noRd\n/")).isSome = true := by decide +kernel
  have validOther : (ofSource? (encode "/* d\n@slot  y1 z\nw\n@export\n/")).isSome = true := by decide +kernel
  obtain ⟨root, found⟩ := Option.isSome_iff_exists.mp valid
  obtain ⟨second, foundOther⟩ := Option.isSome_iff_exists.mp validOther
  have marks : Mark.spelling (Reading.ofSource (encode "/** a {b} c\n@param x y\n@noRd\n/")).tokens =
      [.description, .name, .parameter, .description, .name] := by decide +kernel
  have marksOther : Mark.spelling (Reading.ofSource (encode "/* d\n@slot  y1 z\nw\n@export\n/")).tokens =
      [.description, .name, .parameter, .description, .name] := by decide +kernel
  exact ⟨root, second, found, foundOther, marks,
    (expression_tells_skeleton found foundOther).mpr (marks.trans marksOther.symm)⟩

end Node

end DocComment
