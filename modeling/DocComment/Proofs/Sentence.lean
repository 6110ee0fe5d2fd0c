import Mathlib.Data.List.TakeWhile
import DocComment.Comment
import DocComment.Proofs.Reads

/-!
# Sentences: the grammar of comments

The tokens of a comment are a slash, stars, a description that may be missing, tags, and a slash. A comment whose
parts are grouped as the grammar says is a derivation of its parts, and the tokens of a derivation are a sentence.
The stages lead from the first to the last exactly over sentences (`isSentence_iff`), and grouping the parts of a
sentence gives its only derivation (`exists_of_behindAll`, `ofParts?_parts`).
-/

namespace DocComment

section
variable {α : Type} (token : α → Token)

/-! ## The grammar -/

/-- A description that may be missing: nothing, or text and then any number of texts and braces. -/
def IsDescription : List α → Prop
  | [] => True
  | first :: rest => token first = .text ∧ ∀ part ∈ rest, (token part).isProse = true

/-- The parts of a tag are those that its name asks for: a parameter and a description, either of which may be
missing, any number of parameters, or a description that may be missing. -/
inductive Tag.IsDerivation : Tag α → Prop
  | single {name parameters description} : token name = .tagName .single → parameters.length ≤ 1 →
      (∀ part ∈ parameters, token part = .identifier) → IsDescription token description →
      IsDerivation ⟨name, parameters, description⟩
  | multiple {name parameters} : token name = .tagName .multiple →
      (∀ part ∈ parameters, token part = .identifier) → IsDerivation ⟨name, parameters, []⟩
  | block {name description} : token name = .tagName .block → IsDescription token description →
      IsDerivation ⟨name, [], description⟩
  | plain {name description} : token name = .tagName .plain → IsDescription token description →
      IsDerivation ⟨name, [], description⟩

/-- The parts of a comment are a slash, stars, a description that may be missing, tags, and a slash. -/
structure Comment.IsDerivation (c : Comment α) : Prop where
  opening : token c.opening = .slash
  stars : ∀ part ∈ c.stars, token part = .star
  description : IsDescription token c.description
  tags : ∀ t ∈ c.tags, t.IsDerivation token
  closing : token c.closing = .slash

end

/-- The tokens of a derivation, which are what the grammar's own rule of comments derives (`derives_document_iff`). -/
def IsSentence (ts : List Token) : Prop := ∃ c : Comment Token, c.IsDerivation id ∧ c.parts = ts

/-- What a sentence may start with. -/
def IsSentencePrefix (ts : List Token) : Prop := ∃ more, IsSentence (ts ++ more)

/-! ## Stretches and stages -/

namespace Comment.Stretch
variable {α : Type} {token : α → Token}

/-- The parts of a stretch in order. -/
def parts (s : Stretch α) : List α := s.parameters ++ s.description ++ s.tags.flatMap Tag.parts

/-- The parameters and the description that a stage lets follow. -/
def Follows (token : α → Token) (parameters description : List α) : Stage → Prop
  | .oneParameter =>
    parameters.length ≤ 1 ∧ (∀ part ∈ parameters, token part = .identifier) ∧ IsDescription token description
  | .parameters => (∀ part ∈ parameters, token part = .identifier) ∧ description = []
  | .describable => parameters = [] ∧ IsDescription token description
  | .description => parameters = [] ∧ ∀ part ∈ description, (token part).isProse = true
  | _ => False

/-- A stretch that a stage lets follow, all of whose tags are as the grammar says. -/
structure Fits (token : α → Token) (stage : Stage) (s : Stretch α) : Prop where
  follows : Follows token s.parameters s.description stage
  tags : ∀ t ∈ s.tags, t.IsDerivation token

theorem isDerivation_iff (t : Tag α) :
    t.IsDerivation token ↔
      ∃ c, token t.name = .tagName c ∧ Follows token t.parameters t.description (.behindName c) := by
  obtain ⟨name, parameters, description⟩ := t
  constructor
  · intro derivation
    cases derivation with
    | single h length identifiers described => exact ⟨.single, h, length, identifiers, described⟩
    | multiple h identifiers => exact ⟨.multiple, h, identifiers, rfl⟩
    | block h described => exact ⟨.block, h, rfl, described⟩
    | plain h described => exact ⟨.plain, h, rfl, described⟩
  · rintro ⟨c, h, follows⟩
    cases c with
    | single => exact .single h follows.1 follows.2.1 follows.2.2
    | multiple =>
      obtain ⟨identifiers, rfl⟩ := follows
      exact .multiple h identifiers
    | block =>
      obtain ⟨rfl, described⟩ := follows
      exact .block h described
    | plain =>
      obtain ⟨rfl, described⟩ := follows
      exact .plain h described

/-! ### Grouping the parts of a stretch -/

private theorem foldr_identifiers {parameters : List α} (s : Stretch α)
    (identifiers : ∀ part ∈ parameters, token part = .identifier) :
    parameters.foldr (push token) s = ⟨parameters ++ s.parameters, s.description, s.tags⟩ := by
  induction parameters with
  | nil => rfl
  | cons p rest ih =>
    rw [List.foldr_cons, ih fun part member => identifiers part (by simp [member])]
    simp [push, identifiers p (by simp)]

private theorem foldr_prose {description : List α} (s : Stretch α)
    (prose : ∀ part ∈ description, (token part).isProse = true) :
    description.foldr (push token) s = ⟨s.parameters, description ++ s.description, s.tags⟩ := by
  induction description with
  | nil => rfl
  | cons p rest ih =>
    have first := prose p (by simp)
    rw [List.foldr_cons, ih fun part member => prose part (by simp [member])]
    cases kind : token p <;> simp [kind, Token.isProse] at first <;> simp [push, kind]

theorem prose_of_isDescription {description : List α} (described : IsDescription token description) :
    ∀ part ∈ description, (token part).isProse = true := by
  cases description with
  | nil => simp
  | cons first rest =>
    obtain ⟨text, prose⟩ := described
    intro part member
    rcases List.mem_cons.mp member with rfl | member
    · simp [text, Token.isProse]
    · exact prose part member

theorem parts_of_follows {parameters description : List α} {stage : Stage}
    (follows : Follows token parameters description stage) :
    (∀ part ∈ parameters, token part = .identifier) ∧ ∀ part ∈ description, (token part).isProse = true := by
  cases stage with
  | oneParameter => exact ⟨follows.2.1, prose_of_isDescription follows.2.2⟩
  | parameters => exact ⟨follows.1, by simp [follows.2]⟩
  | describable => exact ⟨by simp [follows.1], prose_of_isDescription follows.2⟩
  | description => exact ⟨by simp [follows.1], follows.2⟩
  | _ => exact follows.elim

/-- Whatever its name asks for, a tag has identifiers for parameters, and a description that may be missing. -/
theorem kinds_of_isDerivation {t : Tag α} (derivation : t.IsDerivation token) :
    (token t.name).isTagName = true ∧ (∀ part ∈ t.parameters, token part = .identifier) ∧
      IsDescription token t.description := by
  cases derivation with
  | single name _ identifiers described => exact ⟨by simp [name, Token.isTagName], identifiers, described⟩
  | multiple name identifiers => exact ⟨by simp [name, Token.isTagName], identifiers, trivial⟩
  | block name described => exact ⟨by simp [name, Token.isTagName], by simp, described⟩
  | plain name described => exact ⟨by simp [name, Token.isTagName], by simp, described⟩

private theorem foldr_follows {parameters description : List α} {stage : Stage} (tags : List (Tag α))
    (follows : Follows token parameters description stage) :
    (parameters ++ description).foldr (push token) ⟨[], [], tags⟩ = ⟨parameters, description, tags⟩ := by
  obtain ⟨identifiers, prose⟩ := parts_of_follows follows
  rw [List.foldr_append, foldr_prose _ prose, foldr_identifiers _ identifiers]
  simp

private theorem foldr_tags {tags : List (Tag α)} (derivations : ∀ t ∈ tags, t.IsDerivation token) :
    (tags.flatMap Tag.parts).foldr (push token) ⟨[], [], []⟩ = ⟨[], [], tags⟩ := by
  induction tags with
  | nil => rfl
  | cons t rest ih =>
    obtain ⟨c, name, follows⟩ := (isDerivation_iff t).mp (derivations t (by simp))
    rw [List.flatMap_cons, List.foldr_append, ih fun t member => derivations t (by simp [member]), Tag.parts,
      List.cons_append, List.foldr_cons, foldr_follows rest follows]
    simp [push, name]

/-- The parts of a stretch are grouped as they were. -/
theorem ofParts_parts {stage : Stage} {s : Stretch α} (fits : s.Fits token stage) : ofParts token s.parts = s := by
  rw [ofParts, parts, List.foldr_append, foldr_tags fits.tags, foldr_follows s.tags fits.follows]

/-! ### Stages over a stretch -/

private theorem identifiers_ofParts (token : α → Token) (body : List α) :
    ∀ part ∈ (ofParts token body).parameters, token part = .identifier := by
  induction body with
  | nil => simp [ofParts]
  | cons p rest ih =>
    rw [ofParts, List.foldr_cons, ← ofParts]
    cases kind : token p with
    | tagName c => simp [push, kind]
    | _ => simpa [push, kind] using ih

/-- A stage inside a comment, where no more stars may come. -/
def Inside (stage : Stage) : Prop := stage ≠ .start ∧ stage ≠ .opening ∧ stage ≠ .closed

private theorem fits_iff {stage : Stage} {parameters description : List α} {tags : List (Tag α)} :
    Fits token stage ⟨parameters, description, tags⟩ ↔
      Follows token parameters description stage ∧ ∀ t ∈ tags, t.IsDerivation token :=
  ⟨fun fits => ⟨fits.follows, fits.tags⟩, fun ⟨follows, tags⟩ => ⟨follows, tags⟩⟩

private theorem inside_behindName (c : TagClass) : Inside (.behindName c) := by
  cases c <;> simp [Stage.behindName, Inside]

private theorem next_tagName {stage : Stage} (inside : Inside stage) (c : TagClass) :
    stage.next (.tagName c) = some (.behindName c) := by
  obtain ⟨notStart, notOpening, notClosed⟩ := inside
  cases stage <;> first | contradiction | rfl

private theorem follows_nothing {stage : Stage} (inside : Inside stage) : Follows token ([] : List α) [] stage := by
  obtain ⟨notStart, notOpening, notClosed⟩ := inside
  cases stage <;> first | contradiction | simp [Follows, IsDescription]

private theorem notParameter {p : α} (other : token p ≠ .identifier) {parameters others rest : List α}
    (identifiers : ∀ part ∈ parameters, token part = .identifier) (cut : parameters ++ others = p :: rest) :
    parameters = [] := by
  cases parameters with
  | nil => rfl
  | cons first front =>
    obtain ⟨rfl, _⟩ := List.cons.inj cut
    exact absurd (identifiers _ (by simp)) other

private theorem next_prose {stage behind : Stage} {t : Token} (prose : t.isProse = true)
    (next : stage.next t = some behind) : behind = .description := by
  cases t <;> simp [Token.isProse] at prose <;> cases stage <;> simp_all [Stage.next]

private theorem follows_prose_iff {stage : Stage} (inside : Inside stage) {p : α} (prose : (token p).isProse = true)
    {description : List α} :
    Follows token [] (p :: description) stage ↔
      stage.next (token p) = some .description ∧ ∀ part ∈ description, (token part).isProse = true := by
  obtain ⟨notStart, notOpening, notClosed⟩ := inside
  cases kind : token p <;> simp [kind, Token.isProse] at prose <;>
    cases stage <;> first
      | contradiction
      | simp [Follows, IsDescription, Stage.next, kind, Token.isProse]

/-- A part in front of a stretch makes one that fits exactly if the part fits and the stretch fits behind it. -/
private theorem fits_push_iff {stage : Stage} (inside : Inside stage) {p : α} {s : Stretch α}
    (identifiers : ∀ part ∈ s.parameters, token part = .identifier) (rest : List α) :
    (push token p s).Fits token stage ∧ (push token p s).parts = p :: rest ↔
      ∃ behind, stage.next (token p) = some behind ∧ Inside behind ∧ s.Fits token behind ∧ s.parts = rest := by
  obtain ⟨parameters, description, tags⟩ := s
  have ⟨notStart, notOpening, notClosed⟩ := inside
  cases kind : token p with
  | slash | star =>
    cases stage <;> first
      | contradiction
      | simp [Stage.next, Inside, push, kind, fits_iff, Follows, IsDescription, Token.isProse]
  | tagName c =>
    have name : Tag.IsDerivation token ⟨p, parameters, description⟩ ↔
        Follows token parameters description (.behindName c) := by simp [isDerivation_iff, kind]
    simp [push, kind, fits_iff, name, follows_nothing inside, next_tagName inside, inside_behindName, parts, Tag.parts,
      and_assoc]
  | identifier =>
    cases stage <;> first
      | contradiction
      | simp +contextual [Stage.next, Inside, push, kind, fits_iff, Follows, parts]
  | text | brace =>
    -- The part joins the description, which keeps the order only if no parameter stands before it.
    have other : token p ≠ .identifier := by simp [kind]
    have prose : (token p).isProse = true := by simp [kind, Token.isProse]
    simp only [push, kind, parts, List.append_assoc]
    rw [← kind]
    constructor
    · rintro ⟨fits, cut⟩
      obtain rfl := notParameter other identifiers cut
      obtain ⟨follows, derivations⟩ := fits_iff.mp fits
      obtain ⟨next, described⟩ := (follows_prose_iff inside prose).mp follows
      exact ⟨.description, next, by simp [Inside], fits_iff.mpr ⟨⟨rfl, described⟩, derivations⟩, by simpa using cut⟩
    · rintro ⟨behind, next, _, fits, rfl⟩
      obtain rfl := next_prose prose next
      obtain ⟨⟨rfl, described⟩, derivations⟩ := fits_iff.mp fits
      exact ⟨fits_iff.mpr ⟨(follows_prose_iff inside prose).mpr ⟨next, described⟩, derivations⟩, by simp⟩

private theorem inside_of_run {stage behind : Stage} (inside : Inside stage) {t : Token} {rest : List Token}
    (next : stage.next t = some behind) (run : behind.behindAll (rest ++ [.slash]) = some .closed) :
    Inside behind := by
  have notClosed : behind ≠ .closed := by
    rintro rfl
    cases rest <;> simp [Stage.next] at run
  cases t with
  | tagName c =>
    obtain rfl : Stage.behindName c = behind := by simpa [next_tagName inside] using next
    exact inside_behindName c
  | _ =>
    obtain ⟨notStart, notOpening, _⟩ := inside
    refine ⟨?_, ?_, notClosed⟩ <;> rintro rfl <;> cases stage <;> simp [Stage.next] at next notStart notOpening

/-- From inside a comment, the stages lead over some parts and a slash to the end exactly if grouping keeps the
parts in order and the stretch fits. -/
theorem behindAll_body_iff {stage : Stage} (inside : Inside stage) (body : List α) :
    stage.behindAll (body.map token ++ [.slash]) = some .closed ↔
      (ofParts token body).Fits token stage ∧ (ofParts token body).parts = body := by
  -- Grouping puts parts in front, so the stretch behind a part is the one that the stage behind it lets follow.
  induction body generalizing stage with
  | nil =>
    simp only [List.map_nil, List.nil_append, Stage.behindAll_cons, Stage.behindAll_nil, ofParts, List.foldr_nil, parts]
    have nothing : Fits token stage (⟨[], [], []⟩ : Stretch α) := ⟨follows_nothing inside, by simp⟩
    obtain ⟨notStart, notOpening, notClosed⟩ := inside
    cases stage <;> first | contradiction | simp [Stage.next, nothing]
  | cons p rest ih =>
    have step := fits_push_iff inside (p := p) (identifiers_ofParts token rest) rest
    rw [ofParts, List.foldr_cons, ← ofParts, step, List.map_cons, List.cons_append, Stage.behindAll_cons]
    constructor
    · intro run
      obtain ⟨behind, fits, run⟩ := Option.bind_eq_some_iff.mp run
      have inside : Inside behind := inside_of_run inside fits run
      exact ⟨behind, fits, inside, (ih inside).mp run⟩
    · rintro ⟨behind, fits, inside, fitting⟩
      rw [fits]
      exact (ih inside).mpr fitting

/-- A stretch has only tag names, identifiers, texts and braces. -/
theorem kinds_of_fits {stage : Stage} {s : Stretch α} (fits : s.Fits token stage) :
    ∀ part ∈ s.parts, (token part).isTagName = true ∨ token part = .identifier ∨ (token part).isProse = true := by
  have kinds {stage : Stage} {parameters description : List α} (follows : Follows token parameters description stage) :
      ∀ part ∈ parameters ++ description, token part = .identifier ∨ (token part).isProse = true := by
    obtain ⟨identifiers, prose⟩ := parts_of_follows follows
    intro part member
    rcases List.mem_append.mp member with member | member
    · exact Or.inl (identifiers part member)
    · exact Or.inr (prose part member)
  intro part member
  rcases List.mem_append.mp member with member | member
  · exact Or.inr (kinds fits.follows part member)
  · obtain ⟨t, inTags, member⟩ := List.mem_flatMap.mp member
    obtain ⟨c, name, follows⟩ := (isDerivation_iff t).mp (fits.tags t inTags)
    rcases List.mem_cons.mp member with rfl | member
    · exact Or.inl (by simp [name, Token.isTagName])
    · exact Or.inr (kinds follows part member)

theorem noMark_of_fits {stage : Stage} {s : Stretch α} (fits : s.Fits token stage) :
    ∀ part ∈ s.parts, token part ≠ .slash ∧ token part ≠ .star := by
  intro part member
  have kinds := kinds_of_fits fits part member
  constructor <;> intro mark <;> simp [mark, Token.isTagName, Token.isProse] at kinds

theorem noStar_of_fits {stage : Stage} {s : Stretch α} (fits : s.Fits token stage) :
    ∀ part ∈ s.parts, token part ≠ .star := fun part member => (noMark_of_fits fits part member).2

private theorem behindAll_opening_iff (token : α → Token) (body : List α) :
    Stage.opening.behindAll (body.map token ++ [.slash]) = some .closed ↔
      (ofParts token (body.dropWhile (token · == .star))).Fits token .describable ∧
        (ofParts token (body.dropWhile (token · == .star))).parts = body.dropWhile (token · == .star) := by
  induction body with
  | nil =>
    have inside : Inside .describable := by simp [Inside]
    exact behindAll_body_iff inside []
  | cons p rest ih =>
    by_cases star : token p = .star
    · rw [List.dropWhile_cons_of_pos (by simp [star]), ← ih]
      simp [star, Stage.next]
    · rw [List.dropWhile_cons_of_neg (by simp [star]), ← behindAll_body_iff (by simp [Inside])]
      have same : Stage.opening.next (token p) = Stage.describable.next (token p) := by
        cases kind : token p <;> first | contradiction | rfl
      simp [same]

end Comment.Stretch

/-! ## Derivations and stages -/

namespace Comment
variable {α : Type} {token : α → Token}

private theorem ofParts?_body (opening closing : α) (body : List α) (last : token closing ≠ .star) :
    ofParts? token (opening :: (body ++ [closing])) =
      some ⟨opening, body.takeWhile (token · == .star),
        (Stretch.ofParts token (body.dropWhile (token · == .star))).description,
        (Stretch.ofParts token (body.dropWhile (token · == .star))).tags, closing⟩ := by
  have stars : (body ++ [closing]).takeWhile (token · == .star) = body.takeWhile (token · == .star) := by
    induction body with
    | nil => simp [last]
    | cons p rest ih => simp only [List.cons_append, List.takeWhile_cons, ih]
  have others : (body ++ [closing]).dropWhile (token · == .star) = body.dropWhile (token · == .star) ++ [closing] := by
    rw [List.dropWhile_append]
    simp [last]
  simp [ofParts?, stars, others]

/-- The stretch between the stars of a comment and its closing slash. -/
def stretch (c : Comment α) : Stretch α := ⟨[], c.description, c.tags⟩

theorem fits_stretch {c : Comment α} (derivation : c.IsDerivation token) :
    c.stretch.Fits token .describable :=
  ⟨⟨rfl, derivation.description⟩, derivation.tags⟩

theorem parts_eq (c : Comment α) : c.parts = c.opening :: (c.stars ++ c.stretch.parts ++ [c.closing]) := by
  simp [parts, stretch, Stretch.parts]

private theorem stars_stretch {c : Comment α} (derivation : c.IsDerivation token) :
    (c.stars ++ c.stretch.parts).takeWhile (token · == .star) = c.stars ∧
      (c.stars ++ c.stretch.parts).dropWhile (token · == .star) = c.stretch.parts := by
  have stars : ∀ part ∈ c.stars, (token part == .star) = true := by simpa using derivation.stars
  have others := Stretch.noStar_of_fits (fits_stretch derivation)
  rw [List.takeWhile_append_of_pos stars, List.dropWhile_append_of_pos stars]
  cases split : c.stretch.parts with
  | nil => simp
  | cons first rest =>
    have other : token first ≠ .star := others first (by simp [split])
    simp [other]

/-- Grouping the parts of a derivation gives the derivation again. -/
theorem ofParts?_parts {c : Comment α} (derivation : c.IsDerivation token) : ofParts? token c.parts = some c := by
  obtain ⟨stars, others⟩ := stars_stretch derivation
  rw [parts_eq, ofParts?_body _ _ _ (by simp [derivation.closing]), stars, others,
    Stretch.ofParts_parts (fits_stretch derivation)]
  rfl

/-- The tokens of a derivation lead from the first stage to the last. -/
theorem behindAll_parts {c : Comment α} (derivation : c.IsDerivation token) :
    Stage.start.behindAll (c.parts.map token) = some .closed := by
  obtain ⟨_, others⟩ := stars_stretch derivation
  have fits := fits_stretch derivation
  have run := (Stretch.behindAll_opening_iff token (c.stars ++ c.stretch.parts)).mpr
    (by rw [others, Stretch.ofParts_parts fits]; exact ⟨fits, rfl⟩)
  rw [parts_eq]
  simpa [derivation.opening, derivation.closing, Stage.next] using run

private theorem next_eq_closed {stage : Stage} {t : Token} (next : stage.next t = some .closed) : t = .slash := by
  cases t with
  | tagName c => cases c <;> cases stage <;> simp [Stage.next, Stage.behindName] at next
  | slash => rfl
  | _ => cases stage <;> simp [Stage.next] at next

private theorem ends_of_behindAll {ps : List α} (run : Stage.start.behindAll (ps.map token) = some .closed) :
    ∃ opening body closing, ps = opening :: (body ++ [closing]) ∧ token opening = .slash ∧ token closing = .slash ∧
      Stage.opening.behindAll (body.map token ++ [.slash]) = some .closed := by
  cases ps with
  | nil => simp at run
  | cons opening rest =>
    rw [List.map_cons, Stage.behindAll_cons] at run
    obtain ⟨behind, first, run⟩ := Option.bind_eq_some_iff.mp run
    have slash : token opening = .slash := by
      cases kind : token opening <;> simp [kind, Stage.next] at first
      rfl
    obtain rfl : Stage.opening = behind := by simpa [slash, Stage.next] using first
    rcases List.eq_nil_or_concat rest with rfl | ⟨body, closing, rfl⟩
    · simp at run
    · have last := run
      rw [List.concat_eq_append, List.map_append, Stage.behindAll_append] at last
      obtain ⟨reached, _, last⟩ := Option.bind_eq_some_iff.mp last
      have last : reached.next (token closing) = some .closed := by simpa using last
      have closed := next_eq_closed last
      exact ⟨opening, body, closing, by simp, slash, closed, by simpa [closed] using run⟩

/-- Parts whose tokens lead from the first stage to the last are those of the derivation that grouping them gives. -/
theorem exists_of_behindAll {ps : List α} (run : Stage.start.behindAll (ps.map token) = some .closed) :
    ∃ c, ofParts? token ps = some c ∧ c.IsDerivation token ∧ c.parts = ps := by
  obtain ⟨opening, body, closing, rfl, first, last, run⟩ := ends_of_behindAll run
  obtain ⟨fits, parts⟩ := (Stretch.behindAll_opening_iff token body).mp run
  obtain ⟨noParameters, described⟩ := fits.follows
  rw [Stretch.parts, noParameters, List.nil_append] at parts
  have whole : body.takeWhile (token · == .star) ++ body.dropWhile (token · == .star) = body :=
    List.takeWhile_append_dropWhile
  rw [← parts] at whole
  refine ⟨_, ofParts?_body opening closing body (by simp [last]), ⟨first, ?_, described, fits.tags, last⟩, ?_⟩
  · intro part member
    simpa using List.mem_takeWhile_imp member
  · simpa [Comment.parts] using congrArg (· ++ [closing]) whole

end Comment

/-- A derivation is the only one of its parts. -/
theorem Comment.IsDerivation.eq_of_parts {α : Type} {token : α → Token} {c d : Comment α} (left : c.IsDerivation token)
    (right : d.IsDerivation token) (same : c.parts = d.parts) : c = d := by
  have := Comment.ofParts?_parts left
  rw [same, Comment.ofParts?_parts right] at this
  exact (Option.some.inj this).symm

/-! ## Sentences and stages -/

/-- The sentences lead from the first stage to the last, and nothing else does. -/
theorem isSentence_iff (ts : List Token) : IsSentence ts ↔ Stage.start.behindAll ts = some .closed := by
  constructor
  · rintro ⟨c, derivation, rfl⟩
    simpa using Comment.behindAll_parts derivation
  · intro run
    rw [← List.map_id ts] at run
    obtain ⟨c, _, derivation, parts⟩ := Comment.exists_of_behindAll run
    exact ⟨c, derivation, parts⟩

/-- From any stage, a slash, two slashes or nothing lead to the last stage. -/
private theorem exists_behindAll_closed (stage : Stage) : ∃ ts, stage.behindAll ts = some .closed := by
  cases stage with
  | start => exact ⟨[.slash, .slash], rfl⟩
  | closed => exact ⟨[], rfl⟩
  | _ => exact ⟨[.slash], rfl⟩

/-- The stages lead over what a sentence may start with, and over nothing else. -/
theorem isSentencePrefix_iff (ts : List Token) :
    IsSentencePrefix ts ↔ ∃ stage, Stage.start.behindAll ts = some stage := by
  constructor
  · rintro ⟨more, sentence⟩
    rw [isSentence_iff, Stage.behindAll_append] at sentence
    obtain ⟨stage, run, _⟩ := Option.bind_eq_some_iff.mp sentence
    exact ⟨stage, run⟩
  · rintro ⟨stage, run⟩
    obtain ⟨more, rest⟩ := exists_behindAll_closed stage
    exact ⟨more, by rw [isSentence_iff, Stage.behindAll_append, run, Option.bind_some, rest]⟩

end DocComment
