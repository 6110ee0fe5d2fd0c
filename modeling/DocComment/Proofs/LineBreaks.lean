import DocComment.Proofs.Outline
import DocComment.Proofs.Seal
import DocComment.Session

/-!
# Line breaks between lexemes

A line break, and blanks behind it, may be put behind any lexeme of a valid source: the tokens stay, and so does the
outline of the tree (`lineBreak_keeps_boundaries`). The blanks go to the padding of the next lexeme, except behind a
brace that is open, which takes them in.
-/

namespace DocComment

theorem Glyph.isBlank_of_mem_spell {white : String} (blank : ∀ c ∈ white.toList, (scalar c).isBlank = true) :
    ∀ g ∈ spell white, g.isBlank = true := by
  intro g member
  obtain ⟨c, inWhite, rfl⟩ := List.mem_map.mp member
  exact blank c inWhite

theorem Glyph.isBlank_of_mem_space : ∀ c ∈ " ".toList, (scalar c).isBlank = true := by
  intro c member
  obtain rfl : c = ' ' := by simpa using member
  rfl

/-! ## Blanks before a reading -/

/-- The ending with blanks before what trails. -/
def Ending.behindBlanks (blanks : List Glyph) : Ending → Ending
  | .accepted trailing => .accepted (blanks ++ trailing)
  | .rejected found => .rejected found

namespace Reading

/-- The reading with blanks before its first lexeme, or before what trails where there is none. -/
def behindBlanks (blanks : List Glyph) : Reading → Reading
  | ⟨[], e⟩ => ⟨[], e.behindBlanks blanks⟩
  | ⟨l :: rest, e⟩ => ⟨⟨l.token, blanks ++ l.padding, l.body⟩ :: rest, e⟩

section
variable {blanks : List Glyph} (blank : ∀ g ∈ blanks, g.isBlank = true)
include blank

theorem pad_behindBlanks (input : List Glyph) :
    pad false (blanks ++ input) = (blanks ++ (pad false input).1, (pad false input).2) := by
  rw [pad_noMark (by simp), pad_noMark (by simp), List.takeWhile_append_of_pos blank,
    List.dropWhile_append_of_pos blank]

theorem step_behindBlanks {stage : Stage} {input : List Glyph} {e : Ending}
    (read : step false stage input = .ending e) :
    step false stage (blanks ++ input) = .ending (e.behindBlanks blanks) := by
  have padded := pad_behindBlanks blank input
  unfold step at read ⊢
  generalize pad false input = parts at read padded
  obtain ⟨padding, rest⟩ := parts
  rw [padded]
  dsimp only at read ⊢
  split at read
  · split at read
    · cases read
    · cases read
      rfl
  · cases read
    unfold endingAt
    split <;> rfl
  · cases read
    rfl

/-- Blanks before what is read become padding of the first lexeme, or trail the last one. -/
theorem Reads.behindBlanks {stage : Stage} {input : List Glyph} {r : Reading} (reads : Reads false stage input r) :
    Reads false stage (blanks ++ input) (r.behindBlanks blanks) := by
  generalize front : false = atFront at reads
  cases reads with
  | ending read =>
    subst front
    exact .ending (step_behindBlanks blank read)
  | @lexeme _ _ l behind rest r read reads =>
    subst front
    obtain ⟨fits, first, found⟩ := (step_glyphs_iff ..).mp read
    have padded := pad_behindBlanks blank (l.glyphs ++ rest)
    rw [first] at padded
    have whole : blanks ++ (l.glyphs ++ rest) = Lexeme.glyphs ⟨l.token, blanks ++ l.padding, l.body⟩ ++ rest := by
      simp [Lexeme.glyphs]
    rw [whole] at padded ⊢
    exact .lexeme ((step_glyphs_iff ..).mpr ⟨fits, padded, found⟩) reads

end

theorem lexemes_behindBlanks (blanks : List Glyph) (r : Reading) :
    (r.behindBlanks blanks).lexemes = r.lexemes.modifyHead fun l => ⟨l.token, blanks ++ l.padding, l.body⟩ := by
  obtain ⟨lexemes, ending⟩ := r
  cases lexemes <;> rfl

theorem tokens_behindBlanks (blanks : List Glyph) (r : Reading) : (r.behindBlanks blanks).tokens = r.tokens := by
  obtain ⟨lexemes, e⟩ := r
  cases lexemes <;> rfl

theorem accepted_behindBlanks (blanks : List Glyph) (r : Reading) :
    (∃ trailing, (r.behindBlanks blanks).ending = .accepted trailing) ↔ ∃ trailing, r.ending = .accepted trailing := by
  obtain ⟨lexemes, e⟩ := r
  cases lexemes <;> cases e <;> simp [Reading.behindBlanks, Ending.behindBlanks]

/-! ## Readings with a line break -/

/-- What is read where a line feed and blanks are put behind a lexeme: an open brace takes them in, and behind any
other lexeme they are read before what comes next. -/
def broken (blanks : List Glyph) (before : List Lexeme) (l : Lexeme) (later : Reading) : Reading :=
  if l.isOpen then ⟨before ++ ⟨l.token, l.padding, l.body ++ blanks⟩ :: later.lexemes, later.ending⟩
  else ⟨before ++ l :: (later.behindBlanks blanks).lexemes, (later.behindBlanks blanks).ending⟩

section
variable {blanks : List Glyph} (blank : ∀ g ∈ blanks, g.isBlank = true)
include blank

theorem isBlank_of_mem_line : ∀ g ∈ .scalar '\n' :: blanks, g.isBlank = true := by
  intro g member
  rcases List.mem_cons.mp member with rfl | member
  · decide
  · exact blank g member

/-- An open brace takes in a line feed and blanks. -/
theorem step_open {atFront : Bool} {stage behind : Stage} {l : Lexeme} {rest : List Glyph} (isOpen : l.isOpen = true)
    (read : step atFront stage (l.glyphs ++ rest) = .lexeme l behind) :
    step atFront stage (Lexeme.glyphs ⟨l.token, l.padding, l.body ++ .scalar '\n' :: blanks⟩ ++ rest) =
      .lexeme ⟨l.token, l.padding, l.body ++ .scalar '\n' :: blanks⟩ behind := by
  obtain ⟨fits, padded, found⟩ := (step_glyphs_iff ..).mp read
  have enclosed : ∀ g ∈ .scalar '\n' :: blanks, Automaton.isEnclosed g = true :=
    fun g member => Automaton.isEnclosed_of_isBlank (isBlank_of_mem_line blank g member)
  obtain ⟨brace, notClosed⟩ : l.token = .brace ∧ ¬ Automaton.IsClosed l.body := by
    simpa [Lexeme.isOpen, Automaton.IsClosed] using isOpen
  refine (step_glyphs_iff ..).mpr ⟨fits, ?_, ?_⟩
  · obtain ⟨g, body, starts⟩ := List.exists_cons_of_length_pos found.positive
    rw [Lexeme.glyphs, starts, List.append_assoc, List.cons_append] at padded ⊢
    exact pad_of_pad padded _
  · rw [brace] at found ⊢
    exact found.extended enclosed notClosed

private theorem Reads.broken_open {atFront : Bool} {stage : Stage} {input : List Glyph} {before after : List Lexeme}
    {l : Lexeme} {e : Ending} (isOpen : l.isOpen = true) (reads : Reads atFront stage input ⟨before ++ l :: after, e⟩) :
    ∃ back, input = (before ++ [l]).flatMap Lexeme.glyphs ++ back ∧
      Reads atFront stage ((before ++ [l]).flatMap Lexeme.glyphs ++ .scalar '\n' :: (blanks ++ back))
        ⟨before ++ ⟨l.token, l.padding, l.body ++ .scalar '\n' :: blanks⟩ :: after, e⟩ := by
  obtain ⟨reached, left, run, split, later⟩ := reads.behind rfl
  obtain ⟨behind, back, rfl, read, rest⟩ := later.first
  have positive := (step_lexeme_append read).1
  have onward := Reads.lexeme (step_open blank isOpen read) rest
  have whole : Lexeme.glyphs ⟨l.token, l.padding, l.body ++ .scalar '\n' :: blanks⟩ ++ back =
      l.glyphs ++ .scalar '\n' :: (blanks ++ back) := by simp [Lexeme.glyphs]
  rw [whole] at onward
  have nonempty : l.glyphs = [] → ∀ last ∈ before.getLast?, last.isOpen = false := by
    intro nothing
    rw [nothing] at positive
    cases positive
  refine ⟨back, by simp [split], ?_⟩
  rw [split] at reads
  have settled := reads.sealed nonempty run onward
  simpa [push] using settled

private theorem Reads.broken_closed {atFront : Bool} {stage : Stage} {input : List Glyph} {before after : List Lexeme}
    {l : Lexeme} {e : Ending} (notOpen : l.isOpen = false)
    (reads : Reads atFront stage input ⟨before ++ l :: after, e⟩) :
    ∃ back, input = (before ++ [l]).flatMap Lexeme.glyphs ++ back ∧
      Reads atFront stage ((before ++ [l]).flatMap Lexeme.glyphs ++ .scalar '\n' :: (blanks ++ back))
        ⟨before ++ l :: (Reading.behindBlanks (.scalar '\n' :: blanks) ⟨after, e⟩).lexemes,
          (Reading.behindBlanks (.scalar '\n' :: blanks) ⟨after, e⟩).ending⟩ := by
  have cut : (⟨before ++ l :: after, e⟩ : Reading).lexemes = (before ++ [l]) ++ after := by simp
  obtain ⟨reached, back, run, split, later⟩ := reads.behind cut
  have away : (atFront && (before ++ [l]).isEmpty) = false := by simp
  rw [away] at later
  have onward := later.behindBlanks (isBlank_of_mem_line blank)
  refine ⟨back, split, ?_⟩
  have lastClosed : ([] : List Glyph) = [] → ∀ last ∈ (before ++ [l]).getLast?, last.isOpen = false := by
    intro _ last isLast
    rw [List.getLast?_concat] at isLast
    obtain rfl := Option.some.inj isLast
    exact notOpen
  have cutReads : Reads atFront stage ((before ++ [l]).flatMap Lexeme.glyphs ++ ([] ++ back))
      ⟨(before ++ [l]) ++ after, e⟩ := by simpa [split] using reads
  have settled := cutReads.sealed lastClosed run (by rw [away]; exact onward)
  simpa using settled

/-- A line feed and blanks behind a lexeme move no end of a lexeme, except that of an open brace. -/
theorem Reads.broken {atFront : Bool} {stage : Stage} {input : List Glyph} {before after : List Lexeme} {l : Lexeme}
    {e : Ending} (reads : Reads atFront stage input ⟨before ++ l :: after, e⟩) :
    ∃ back, input = (before ++ [l]).flatMap Lexeme.glyphs ++ back ∧
      Reads atFront stage ((before ++ [l]).flatMap Lexeme.glyphs ++ .scalar '\n' :: (blanks ++ back))
        (Reading.broken (.scalar '\n' :: blanks) before l ⟨after, e⟩) := by
  unfold Reading.broken
  cases isOpen : l.isOpen with
  | true => exact reads.broken_open blank isOpen
  | false => exact reads.broken_closed blank isOpen

end

/-! ### What a line break keeps -/

variable (blanks : List Glyph) (before : List Lexeme) (l : Lexeme) (later : Reading)

/-- A line break changes lexemes in their paddings and braces in their bodies, nothing else. -/
theorem bare_broken :
    (broken blanks before l later).lexemes.map Lexeme.bare = (before ++ l :: later.lexemes).map Lexeme.bare := by
  unfold broken
  cases isOpen : l.isOpen with
  | true =>
    have brace : l.token = .brace := by
      simp only [Lexeme.isOpen, Bool.and_eq_true, beq_iff_eq] at isOpen
      exact isOpen.1
    simp [Lexeme.bare, brace, Token.isProse]
  | false =>
    rw [lexemes_behindBlanks]
    cases later.lexemes <;> simp [Lexeme.bare]

/-- The blanks add to the size of the lexeme before them if that is an open brace, and otherwise to that of the next,
if there is one. -/
theorem size_broken :
    (broken blanks before l later).lexemes.map Lexeme.size =
      before.map Lexeme.size ++
        if l.isOpen then (l.size + (blanks.flatMap Glyph.bytes).length) :: later.lexemes.map Lexeme.size
        else l.size :: (later.lexemes.map Lexeme.size).modifyHead (· + (blanks.flatMap Glyph.bytes).length) := by
  unfold broken
  cases l.isOpen with
  | true => simp [Lexeme.size, Lexeme.glyphs, Nat.add_assoc]
  | false =>
    rw [lexemes_behindBlanks]
    cases later.lexemes with
    | nil => simp
    | cons next rest =>
      simp [Lexeme.size, Lexeme.glyphs]
      omega

theorem accepted_broken (accepted : ∃ trailing, later.ending = .accepted trailing) :
    ∃ trailing, (broken blanks before l later).ending = .accepted trailing := by
  obtain ⟨trailing, accepted⟩ := accepted
  obtain ⟨lexemes, ending⟩ := later
  obtain rfl : ending = .accepted trailing := accepted
  unfold broken
  split
  · exact ⟨trailing, rfl⟩
  · cases lexemes with
    | nil => exact ⟨blanks ++ trailing, rfl⟩
    | cons next rest => exact ⟨trailing, rfl⟩

end Reading

/-! ## Sources with a line break -/

/-- A line break is read as it is spelled, and what stands around it stays. -/
theorem Glyph.decode_broken {source : List UInt8} {front back : List Glyph} (read : decode source = front ++ back)
    (white : String) :
    decode (source.take (front.flatMap bytes).length ++ encode ("\n" ++ white) ++
      source.drop (front.flatMap bytes).length) = front ++ spell ("\n" ++ white) ++ back := by
  have starts : ("\n" ++ white).toList.head? = some '\n' := by simp
  have nothing : front ++ back = front ++ ([] ++ back) := rfl
  have spliced := decode_spliced (read.trans nothing) starts (by decide)
  rwa [List.append_nil] at spliced

namespace Reading

theorem ofSource_broken {source : List UInt8} {before after : List Lexeme} {l : Lexeme}
    (cut : (ofSource source).lexemes = before ++ l :: after) {white : String}
    (blank : ∀ c ∈ white.toList, (Glyph.scalar c).isBlank = true) :
    ofSource (source.take (((before ++ [l]).flatMap Lexeme.glyphs).flatMap Glyph.bytes).length ++
        encode ("\n" ++ white) ++
        source.drop (((before ++ [l]).flatMap Lexeme.glyphs).flatMap Glyph.bytes).length) =
      broken (Glyph.spell ("\n" ++ white)) before l ⟨after, (ofSource source).ending⟩ := by
  have reads := reads_ofSource cut
  have spelled : Glyph.spell ("\n" ++ white) = .scalar '\n' :: Glyph.spell white := by
    rw [Glyph.spell_append]
    rfl
  obtain ⟨back, split, broken⟩ := reads.broken (Glyph.isBlank_of_mem_spell blank)
  rw [ofSource, Glyph.decode_broken split, spelled, List.append_assoc]
  exact (reads_iff ..).mp broken

/-- A line feed, and blanks behind it, may be put behind any lexeme of a valid source. The source stays valid, with
the same tokens and, up to its places and the texts of descriptions, the same tree. All lexemes keep their sizes but
the one that the blanks belong to: a brace before them that is open, or else the next lexeme, if there is one. -/
theorem lineBreak_keeps_boundaries {source : List UInt8} {root : Node} (valid : Node.ofSource? source = some root)
    {before after : List Placed} {p : Placed}
    (cut : Placed.inTurn .origin (ofSource source).lexemes = before ++ p :: after) {white : String}
    (blank : ∀ c ∈ white.toList, (Glyph.scalar c).isBlank = true) :
    ∃ edited root',
      Session.splice? source p.span.stop.offset p.span.stop.offset (encode ("\n" ++ white)) = some edited ∧
        Node.ofSource? edited = some root' ∧
        (ofSource edited).tokens = (ofSource source).tokens ∧
        (root'.sketch edited).outline = (root.sketch source).outline ∧
        (ofSource edited).lexemes.map Lexeme.size =
          before.map (fun q => q.lexeme.size) ++
            if p.lexeme.isOpen then
              (p.lexeme.size + (encode ("\n" ++ white)).length) :: after.map fun q => q.lexeme.size
            else
              p.lexeme.size ::
                (after.map fun q => q.lexeme.size).modifyHead (· + (encode ("\n" ++ white)).length) := by
  have lexemes : (ofSource source).lexemes =
      before.map Placed.lexeme ++ p.lexeme :: after.map Placed.lexeme := by
    rw [← Placed.map_lexeme_inTurn .origin (ofSource source).lexemes, cut, List.map_append, List.map_cons]
  have accepted := (Node.isSome_ofSource?_iff source).mp (by rw [valid]; rfl)
  have reading := ofSource_broken lexemes blank
  have stop : p.span.stop.offset =
      (((before.map Placed.lexeme ++ [p.lexeme]).flatMap Lexeme.glyphs).flatMap Glyph.bytes).length := by
    rw [Placed.stop_of_inTurn cut, ← List.flatMap_map Placed.lexeme, List.map_append, List.map_singleton]
  rw [← stop] at reading
  generalize edited : source.take p.span.stop.offset ++ encode ("\n" ++ white) ++
    source.drop p.span.stop.offset = other at reading
  have bound : p.span.stop.offset ≤ source.length := by
    obtain ⟨trailing, ending⟩ := accepted
    exact Placed.stop_le_of_read (behindAll_of_accepted ending).2 cut
  have bare : (ofSource other).lexemes.map Lexeme.bare = (ofSource source).lexemes.map Lexeme.bare := by
    rw [reading, bare_broken, lexemes]
  have validOther : (Node.ofSource? other).isSome = true := by
    rw [Node.isSome_ofSource?_iff, reading]
    exact accepted_broken _ _ _ _ accepted
  obtain ⟨root', found⟩ := Option.isSome_iff_exists.mp validOther
  refine ⟨other, root', ?_, found, ?_, Node.outline_eq_of_bare found valid bare, ?_⟩
  · rw [Session.splice?, if_pos ⟨Nat.le_refl _, bound⟩, edited]
  · have tokens := congrArg (List.map Lexeme.token) bare
    rw [List.map_map, List.map_map] at tokens
    exact tokens
  · have size : ((Glyph.spell ("\n" ++ white)).flatMap Glyph.bytes).length = (encode ("\n" ++ white)).length := by
      rw [bytes_spell]
    have sizes := size_broken (Glyph.spell ("\n" ++ white)) (before.map Placed.lexeme) p.lexeme
      ⟨after.map Placed.lexeme, (ofSource source).ending⟩
    rw [reading, sizes, size, List.map_map, List.map_map]
    rfl

/-- The brace of `{x` is open up to the tag name behind it, and takes in a line break before that. -/
theorem lineBreak_keeps_boundaries_brace :
    ∃ root before after, Node.ofSource? (encode "/a \x7bx\n@c\n/") = some root ∧
      Placed.inTurn .origin (ofSource (encode "/a \x7bx\n@c\n/")).lexemes =
        before ++ ⟨⟨.brace, [], Glyph.spell "\x7bx\n"⟩, ⟨⟨3, 0, 3⟩, ⟨6, 1, 0⟩⟩⟩ :: after ∧
      (∀ c ∈ " ".toList, (Glyph.scalar c).isBlank = true) ∧
      ∃ edited root', Session.splice? (encode "/a \x7bx\n@c\n/") 6 6 (encode ("\n" ++ " ")) = some edited ∧
        Node.ofSource? edited = some root' ∧
        (ofSource edited).tokens = (ofSource (encode "/a \x7bx\n@c\n/")).tokens ∧
        (root'.sketch edited).outline = (root.sketch (encode "/a \x7bx\n@c\n/")).outline ∧
        (ofSource edited).lexemes.map Lexeme.size = [1, 2, 5, 2, 2] := by
  have valid : (Node.ofSource? (encode "/a \x7bx\n@c\n/")).isSome = true := by decide +kernel
  obtain ⟨root, found⟩ := Option.isSome_iff_exists.mp valid
  have read : (ofSource (encode "/a \x7bx\n@c\n/")).lexemes =
      [⟨.slash, [], Glyph.spell "/"⟩, ⟨.text, [], Glyph.spell "a "⟩, ⟨.brace, [], Glyph.spell "\x7bx\n"⟩,
        ⟨.tagName .plain, [], Glyph.spell "@c"⟩, ⟨.slash, Glyph.spell "\n", Glyph.spell "/"⟩] := by decide +kernel
  have cut : Placed.inTurn .origin (ofSource (encode "/a \x7bx\n@c\n/")).lexemes =
      [⟨⟨.slash, [], Glyph.spell "/"⟩, ⟨⟨0, 0, 0⟩, ⟨1, 0, 1⟩⟩⟩,
        ⟨⟨.text, [], Glyph.spell "a "⟩, ⟨⟨1, 0, 1⟩, ⟨3, 0, 3⟩⟩⟩] ++
      ⟨⟨.brace, [], Glyph.spell "\x7bx\n"⟩, ⟨⟨3, 0, 3⟩, ⟨6, 1, 0⟩⟩⟩ ::
        [⟨⟨.tagName .plain, [], Glyph.spell "@c"⟩, ⟨⟨6, 1, 0⟩, ⟨8, 1, 2⟩⟩⟩,
          ⟨⟨.slash, Glyph.spell "\n", Glyph.spell "/"⟩, ⟨⟨9, 2, 0⟩, ⟨10, 2, 1⟩⟩⟩] := by
    rw [read]
    rfl
  exact ⟨root, _, _, found, cut, Glyph.isBlank_of_mem_space,
    lineBreak_keeps_boundaries found cut Glyph.isBlank_of_mem_space⟩

end Reading

end DocComment
