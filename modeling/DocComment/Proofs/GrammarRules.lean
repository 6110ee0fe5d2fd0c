import DocComment.Proofs.Sentence

/-!
# Sentences and the rules of the grammar

The grammar is data: a rule for a comment, for its parts, and for the tokens. What a rule derives is told by its form
alone, and the rule of comments derives the sentences (`derives_document_iff`).
-/

namespace DocComment

/-- Every token has a pattern of its own. -/
theorem Token.pattern_inj {t u : Token} (same : t.pattern = u.pattern) : t = u := by
  rcases t with _ | _ | (_ | _ | _ | _) | _ | _ | _ <;> rcases u with _ | _ | (_ | _ | _ | _) | _ | _ | _ <;>
    first
    | rfl
    | exact absurd same (by decide +kernel)

namespace Rule

/-- What a rule of the grammar derives. A rule that describes a token derives that token. -/
inductive Derives : Rule → List Token → Prop
  | token {t r} : t.rule? = some r → Derives r [t]
  | blank : Derives .blank []
  | symbol {name r w} : Dialect.rules.lookup name = some r → Derives r w → Derives (.symbol name) w
  | renamed {content named value w} : Derives content w → Derives (.renamed content named value) w
  | choice {members r w} : r ∈ members → Derives r w → Derives (.choice members) w
  | nil : Derives (.sequence []) []
  | cons {r rest u v} : Derives r u → Derives (.sequence rest) v → Derives (.sequence (r :: rest)) (u ++ v)
  | zero {content} : Derives (.zeroOrMore content) []
  | more {content u v} : Derives content u → Derives (.zeroOrMore content) v → Derives (.zeroOrMore content) (u ++ v)

/-- The rules of tokens are texts, patterns, and rules marked as tokens. -/
private def DescribesToken : Rule → Prop
  | .string _ | .pattern _ _ | .token _ => True
  | _ => False

private theorem describesToken_of_rule? {t : Token} {r : Rule} (rule : t.rule? = some r) : DescribesToken r := by
  cases t with
  | tagName c =>
    cases c <;> cases rule <;> trivial
  | _ =>
    cases rule
    trivial

private theorem rule?_inj {t u : Token} {r : Rule} (first : t.rule? = some r) (second : u.rule? = some r) : t = u := by
  have same : t.pattern = u.pattern := by
    have left := glyphs?_rule? t
    rw [first, ← second, glyphs?_rule? u] at left
    exact (Option.some.inj left).symm
  exact Token.pattern_inj same

/-! ## Rules by their form -/

theorem derives_token_iff {t : Token} {r : Rule} (rule : t.rule? = some r) (w : List Token) :
    Derives r w ↔ w = [t] := by
  constructor
  · intro derives
    have describes := describesToken_of_rule? rule
    cases derives with
    | token other => rw [rule?_inj rule other]
    | _ => exact describes.elim
  · rintro rfl
    exact .token rule

theorem derives_blank_iff (w : List Token) : Derives .blank w ↔ w = [] := by
  constructor
  · intro derives
    cases derives with
    | token rule => exact (describesToken_of_rule? rule).elim
    | blank => rfl
  · rintro rfl
    exact .blank

theorem derives_symbol_iff {name : String} {r : Rule} (lookup : Dialect.rules.lookup name = some r) (w : List Token) :
    Derives (.symbol name) w ↔ Derives r w := by
  constructor
  · intro derives
    cases derives with
    | token rule => exact (describesToken_of_rule? rule).elim
    | symbol other derives =>
      rw [lookup] at other
      cases other
      exact derives
  · exact .symbol lookup

theorem derives_renamed_iff (content : Rule) (named : Bool) (value : String) (w : List Token) :
    Derives (.renamed content named value) w ↔ Derives content w := by
  constructor
  · intro derives
    cases derives with
    | token rule => exact (describesToken_of_rule? rule).elim
    | renamed derives => exact derives
  · exact .renamed

theorem derives_choice_iff (members : List Rule) (w : List Token) :
    Derives (.choice members) w ↔ ∃ r ∈ members, Derives r w := by
  constructor
  · intro derives
    cases derives with
    | token rule => exact (describesToken_of_rule? rule).elim
    | choice member derives => exact ⟨_, member, derives⟩
  · rintro ⟨r, member, derives⟩
    exact .choice member derives

theorem derives_optional_iff (r : Rule) (w : List Token) : Derives (Dialect.optional r) w ↔ Derives r w ∨ w = [] := by
  rw [Dialect.optional, derives_choice_iff, ← derives_blank_iff]
  simp

theorem derives_nil_iff (w : List Token) : Derives (.sequence []) w ↔ w = [] := by
  constructor
  · intro derives
    cases derives with
    | token rule => exact (describesToken_of_rule? rule).elim
    | nil => rfl
  · rintro rfl
    exact .nil

theorem derives_cons_iff (r : Rule) (rest : List Rule) (w : List Token) :
    Derives (.sequence (r :: rest)) w ↔ ∃ u v, w = u ++ v ∧ Derives r u ∧ Derives (.sequence rest) v := by
  constructor
  · intro derives
    cases derives with
    | token rule => exact (describesToken_of_rule? rule).elim
    | cons first rest => exact ⟨_, _, rfl, first, rest⟩
  · rintro ⟨u, v, rfl, first, rest⟩
    exact .cons first rest

theorem derives_zeroOrMore_iff (content : Rule) (w : List Token) :
    Derives (.zeroOrMore content) w ↔
      ∃ words : List (List Token), w = words.flatten ∧ ∀ u ∈ words, Derives content u := by
  constructor
  · intro derives
    -- The rule has to be a variable, so that the induction may follow the repetitions.
    generalize repeated : Rule.zeroOrMore content = r at derives
    induction derives with
    | zero => exact ⟨[], rfl, by simp⟩
    | more first _ _ ih =>
      cases repeated
      obtain ⟨words, rfl, each⟩ := ih rfl
      refine ⟨_ :: words, rfl, ?_⟩
      intro u member
      rcases List.mem_cons.mp member with rfl | member
      · exact first
      · exact each u member
    | token rule =>
      subst repeated
      exact (describesToken_of_rule? rule).elim
    | _ => cases repeated
  · rintro ⟨words, rfl, each⟩
    induction words with
    | nil => exact .zero
    | cons u words ih => exact .more (each u (by simp)) (ih fun v member => each v (by simp [member]))

/-- A rule that derives tokens one by one derives, any number of times, lists of such tokens. -/
theorem derives_repeated_iff {content : Rule} {p : Token → Prop} (one : ∀ w, Derives content w ↔ ∃ t, p t ∧ w = [t])
    (w : List Token) : Derives (.zeroOrMore content) w ↔ ∀ t ∈ w, p t := by
  rw [derives_zeroOrMore_iff]
  constructor
  · rintro ⟨words, rfl, each⟩ t member
    obtain ⟨u, inWords, member⟩ := List.mem_flatten.mp member
    obtain ⟨v, holds, rfl⟩ := (one u).mp (each u inWords)
    rwa [List.mem_singleton.mp member]
  · intro each
    refine ⟨w.map fun t => [t], by simp [← List.flatMap_def], ?_⟩
    intro u member
    obtain ⟨t, inWord, rfl⟩ := List.mem_map.mp member
    exact (one _).mpr ⟨t, each t inWord, rfl⟩

theorem derives_two_iff (r s : Rule) (w : List Token) :
    Derives (.sequence [r, s]) w ↔ ∃ u v, w = u ++ v ∧ Derives r u ∧ Derives s v := by
  simp [derives_cons_iff, derives_nil_iff]

/-! ## The rules of comments -/

theorem derives_lookup {t : Token} {name : String} {r : Rule} (lookup : Dialect.rules.lookup name = some r)
    (rule : t.rule? = some r) (w : List Token) : Derives (.symbol name) w ↔ w = [t] := by
  rw [derives_symbol_iff lookup, derives_token_iff rule]

private theorem derives_text (w : List Token) : Derives (.symbol "_text") w ↔ w = [.text] := derives_lookup rfl rfl w

private theorem derives_brace (w : List Token) : Derives (.symbol "_inline_tag_false_positive") w ↔ w = [.brace] :=
  derives_lookup rfl rfl w

private theorem derives_prose_iff (w : List Token) :
    Derives (.zeroOrMore (.choice [.symbol "_text", .symbol "_inline_tag_false_positive"])) w ↔
      ∀ t ∈ w, t.isProse = true := by
  refine derives_repeated_iff (fun w => ?_) w
  rw [derives_choice_iff]
  constructor
  · rintro ⟨r, member, derives⟩
    simp only [List.mem_cons, List.not_mem_nil, or_false] at member
    rcases member with rfl | rfl
    · exact ⟨.text, rfl, (derives_text w).mp derives⟩
    · exact ⟨.brace, rfl, (derives_brace w).mp derives⟩
  · rintro ⟨t, prose, rfl⟩
    cases t with
    | text => exact ⟨_, List.mem_cons_self, (derives_text _).mpr rfl⟩
    | brace => exact ⟨_, List.mem_cons_of_mem _ List.mem_cons_self, (derives_brace _).mpr rfl⟩
    | _ => cases prose

theorem derives_description_iff (w : List Token) :
    Derives (Dialect.optional (.symbol "description")) w ↔ IsDescription id w := by
  rw [derives_optional_iff, derives_symbol_iff rfl, derives_two_iff]
  constructor
  · rintro (⟨u, v, rfl, text, prose⟩ | rfl)
    · obtain rfl := (derives_text u).mp text
      exact ⟨rfl, (derives_prose_iff v).mp prose⟩
    · trivial
  · intro described
    cases w with
    | nil => exact Or.inr rfl
    | cons first rest =>
      obtain ⟨rfl, prose⟩ := described
      exact Or.inl ⟨[.text], rest, rfl, (derives_text _).mpr rfl, (derives_prose_iff rest).mpr prose⟩

private theorem derives_identifier (w : List Token) : Derives (.symbol "identifier") w ↔ w = [.identifier] :=
  derives_lookup rfl rfl w

private theorem derives_name {t : Token} {name : String} {r : Rule} (lookup : Dialect.rules.lookup name = some r)
    (rule : t.rule? = some r) (w : List Token) : Derives (Dialect.tagNameAs name) w ↔ w = [t] := by
  rw [Dialect.tagNameAs, derives_renamed_iff, derives_lookup lookup rule]

private theorem derives_single_iff (w : List Token) :
    Derives (.sequence [Dialect.tagNameAs "tag_name_with_single_parameter", Dialect.optional (.symbol "identifier"),
      Dialect.optional (.symbol "description")]) w ↔
      ∃ t : Tag Token, t.IsDerivation id ∧ t.name = .tagName .single ∧ t.parts = w := by
  have name (w : List Token) :
      Derives (Dialect.tagNameAs "tag_name_with_single_parameter") w ↔ w = [.tagName .single] :=
    derives_name rfl rfl w
  rw [derives_cons_iff]
  constructor
  · rintro ⟨u, _, rfl, named, rest⟩
    obtain rfl := (name u).mp named
    obtain ⟨v, description, rfl, parameter, described⟩ := (derives_two_iff ..).mp rest
    have described := (derives_description_iff description).mp described
    rcases (derives_optional_iff ..).mp parameter with parameter | rfl
    · obtain rfl := (derives_identifier v).mp parameter
      exact ⟨⟨_, [.identifier], description⟩, .single rfl (by simp) (by simp) described, rfl, rfl⟩
    · exact ⟨⟨_, [], description⟩, .single rfl (by simp) (by simp) described, rfl, rfl⟩
  · rintro ⟨⟨_, parameters, description⟩, derivation, rfl, rfl⟩
    cases derivation with
    | multiple kind _ => cases kind
    | block kind _ => cases kind
    | plain kind _ => cases kind
    | single _ length identifiers described =>
      refine ⟨_, parameters ++ description, rfl, (name _).mpr rfl, (derives_two_iff ..).mpr ?_⟩
      refine ⟨parameters, description, rfl, (derives_optional_iff ..).mpr ?_, (derives_description_iff _).mpr described⟩
      match parameters, length, identifiers with
      | [], _, _ => exact Or.inr rfl
      | [p], _, identifiers => exact Or.inl ((derives_identifier _).mpr (by simpa using identifiers))

private theorem derives_multiple_iff (w : List Token) :
    Derives (.sequence [Dialect.tagNameAs "tag_name_with_multiple_parameters",
      Dialect.optional (.zeroOrMore (.symbol "identifier"))]) w ↔
      ∃ t : Tag Token, t.IsDerivation id ∧ t.name = .tagName .multiple ∧ t.parts = w := by
  have name (w : List Token) :
      Derives (Dialect.tagNameAs "tag_name_with_multiple_parameters") w ↔ w = [.tagName .multiple] :=
    derives_name rfl rfl w
  have parameters (w : List Token) : Derives (.zeroOrMore (.symbol "identifier")) w ↔ ∀ t ∈ w, t = .identifier :=
    derives_repeated_iff (fun w => by simp [derives_identifier]) w
  rw [derives_two_iff]
  constructor
  · rintro ⟨u, v, rfl, named, rest⟩
    obtain rfl := (name u).mp named
    rcases (derives_optional_iff ..).mp rest with rest | rfl
    · exact ⟨⟨_, v, []⟩, .multiple rfl ((parameters v).mp rest), rfl, by simp [Tag.parts]⟩
    · exact ⟨⟨_, [], []⟩, .multiple rfl (by simp), rfl, rfl⟩
  · rintro ⟨⟨_, v, description⟩, derivation, rfl, rfl⟩
    cases derivation with
    | single kind _ _ _ => cases kind
    | block kind _ => cases kind
    | plain kind _ => cases kind
    | multiple _ identifiers =>
      refine ⟨_, v, ?_, (name _).mpr rfl, (derives_optional_iff ..).mpr (Or.inl ((parameters v).mpr identifiers))⟩
      simp [Tag.parts]

/-- The sequences of a name and a description. -/
private theorem derives_described_iff {c : TagClass} {r : Rule} (takes : c = .block ∨ c = .plain)
    (name : ∀ w, Derives r w ↔ w = [.tagName c]) (w : List Token) :
    Derives (.sequence [r, Dialect.optional (.symbol "description")]) w ↔
      ∃ t : Tag Token, t.IsDerivation id ∧ t.name = .tagName c ∧ t.parts = w := by
  rw [derives_two_iff]
  constructor
  · rintro ⟨u, description, rfl, named, rest⟩
    obtain rfl := (name u).mp named
    have described := (derives_description_iff description).mp rest
    rcases takes with rfl | rfl
    · exact ⟨⟨_, [], description⟩, .block rfl described, rfl, rfl⟩
    · exact ⟨⟨_, [], description⟩, .plain rfl described, rfl, rfl⟩
  · rintro ⟨⟨_, parameters, description⟩, derivation, rfl, rfl⟩
    cases derivation with
    | single kind _ _ _ =>
      cases kind
      rcases takes with same | same <;> cases same
    | multiple kind _ =>
      cases kind
      rcases takes with same | same <;> cases same
    | block _ described => exact ⟨_, description, rfl, (name _).mpr rfl, (derives_description_iff _).mpr described⟩
    | plain _ described => exact ⟨_, description, rfl, (name _).mpr rfl, (derives_description_iff _).mpr described⟩

theorem derives_tag_iff (w : List Token) :
    Derives (.symbol "tag") w ↔ ∃ t : Tag Token, t.IsDerivation id ∧ t.parts = w := by
  have blockName (w : List Token) :
      Derives (Dialect.tagNameAs "tag_name_with_block_parameter") w ↔ w = [.tagName .block] := derives_name rfl rfl w
  have plainName (w : List Token) : Derives (.symbol "tag_name") w ↔ w = [.tagName .plain] := derives_lookup rfl rfl w
  have block := derives_described_iff (Or.inl rfl) blockName w
  have plain := derives_described_iff (Or.inr rfl) plainName w
  rw [derives_symbol_iff rfl, derives_choice_iff]
  simp only [List.mem_cons, List.not_mem_nil, or_false, exists_eq_or_imp, exists_eq_left, derives_single_iff,
    derives_multiple_iff, block, plain]
  constructor
  · intro found
    rcases found with ⟨t, derivation, _, parts⟩ | ⟨t, derivation, _, parts⟩ | ⟨t, derivation, _, parts⟩ |
      ⟨t, derivation, _, parts⟩
    all_goals exact ⟨t, derivation, parts⟩
  · rintro ⟨t, derivation, parts⟩
    cases derivation with
    | single name length identifiers described =>
      exact Or.inl ⟨_, .single name length identifiers described, name, parts⟩
    | multiple name identifiers => exact Or.inr (Or.inl ⟨_, .multiple name identifiers, name, parts⟩)
    | block name described => exact Or.inr (Or.inr (Or.inl ⟨_, .block name described, name, parts⟩))
    | plain name described => exact Or.inr (Or.inr (Or.inr ⟨_, .plain name described, name, parts⟩))

private theorem derives_begin_iff (w : List Token) :
    Derives (.symbol "_begin") w ↔ ∃ stars, w = .slash :: stars ∧ ∀ t ∈ stars, t = .star := by
  have slash (w : List Token) : Derives (.string "/") w ↔ w = [.slash] := derives_token_iff rfl w
  have star (w : List Token) : Derives (.string "*") w ↔ w = [.star] := derives_token_iff rfl w
  have stars (w : List Token) : Derives (.zeroOrMore (.string "*")) w ↔ ∀ t ∈ w, t = .star :=
    derives_repeated_iff (fun w => by simp [star]) w
  rw [derives_symbol_iff rfl, derives_two_iff]
  constructor
  · rintro ⟨u, v, rfl, first, rest⟩
    obtain rfl := (slash u).mp first
    exact ⟨v, rfl, (stars v).mp rest⟩
  · rintro ⟨v, rfl, each⟩
    exact ⟨[.slash], v, rfl, (slash _).mpr rfl, (stars v).mpr each⟩

private theorem derives_tags_iff (w : List Token) :
    Derives (.zeroOrMore (.symbol "tag")) w ↔
      ∃ tags : List (Tag Token), (∀ t ∈ tags, t.IsDerivation id) ∧ tags.flatMap Tag.parts = w := by
  rw [derives_zeroOrMore_iff]
  constructor
  · rintro ⟨words, rfl, each⟩
    induction words with
    | nil => exact ⟨[], by simp, rfl⟩
    | cons u words ih =>
      obtain ⟨t, derivation, rfl⟩ := (derives_tag_iff u).mp (each u (by simp))
      obtain ⟨tags, derivations, parts⟩ := ih fun v member => each v (by simp [member])
      refine ⟨t :: tags, ?_, by rw [List.flatMap_cons, parts, List.flatten_cons]⟩
      intro s member
      rcases List.mem_cons.mp member with rfl | member
      · exact derivation
      · exact derivations s member
  · rintro ⟨tags, derivations, rfl⟩
    refine ⟨tags.map Tag.parts, List.flatMap_def .., ?_⟩
    intro u member
    obtain ⟨t, inTags, rfl⟩ := List.mem_map.mp member
    exact (derives_tag_iff _).mpr ⟨t, derivations t inTags, rfl⟩

/-- The rule of comments derives the sentences. -/
theorem derives_document_iff (ts : List Token) : Derives (.symbol "document") ts ↔ IsSentence ts := by
  have closing (w : List Token) : Derives (.symbol "_end") w ↔ w = [.slash] := derives_lookup rfl rfl w
  rw [derives_symbol_iff rfl, derives_cons_iff]
  constructor
  · rintro ⟨u, _, rfl, begun, rest⟩
    obtain ⟨stars, rfl, each⟩ := (derives_begin_iff u).mp begun
    obtain ⟨description, _, rfl, described, rest⟩ := (derives_cons_iff ..).mp rest
    obtain ⟨_, last, rfl, tagged, ended⟩ := (derives_two_iff ..).mp rest
    obtain ⟨tags, derivations, rfl⟩ := (derives_tags_iff _).mp tagged
    obtain rfl := (closing last).mp ended
    refine ⟨⟨.slash, stars, description, tags, .slash⟩, ?_, by simp [Comment.parts]⟩
    exact ⟨rfl, each, (derives_description_iff description).mp described, derivations, rfl⟩
  · rintro ⟨c, derivation, rfl⟩
    refine ⟨c.opening :: c.stars, c.description ++ (c.tags.flatMap Tag.parts ++ [c.closing]), by simp [Comment.parts],
      (derives_begin_iff _).mpr ⟨c.stars, congrArg (· :: c.stars) derivation.opening, derivation.stars⟩, ?_⟩
    refine (derives_cons_iff ..).mpr ⟨c.description, _, rfl, (derives_description_iff _).mpr derivation.description, ?_⟩
    refine (derives_two_iff ..).mpr ⟨c.tags.flatMap Tag.parts, [c.closing], rfl, ?_, ?_⟩
    · exact (derives_tags_iff _).mpr ⟨c.tags, derivation.tags, rfl⟩
    · exact (closing _).mpr (congrArg (fun t => [t]) derivation.closing)

end Rule

end DocComment
