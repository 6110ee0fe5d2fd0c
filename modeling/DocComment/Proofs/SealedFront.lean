import DocComment.Proofs.Decoding
import DocComment.Proofs.Moving
import DocComment.Proofs.Placing
import DocComment.Proofs.Seal

/-!
# What is read before a line feed

Whatever follows a line feed, the tokens that end before it are the same, unless a brace is open there
(`lineFeed_seals`). For those that end there in one source are sealed, so every other source with the same front is
read as them first.
-/

namespace DocComment

/-- No brace is open behind the bytes: they hold no opening brace, or behind the last a closing one or an at sign. -/
def BracesEnd (bytes : List UInt8) : Prop :=
  0x7b ∉ bytes ∨
    ∃ front back, bytes = front ++ 0x7b :: back ∧ 0x7b ∉ back ∧ (0x7d ∈ back ∨ 0x40 ∈ back)

/-- Behind every opening brace then stands something that a brace does not enclose. -/
theorem BracesEnd.exists_not_isEnclosed {bytes : List UInt8} (ends : BracesEnd bytes) {front back : List Glyph}
    (split : Glyph.decode bytes = front ++ .scalar '\x7b' :: back) : ∃ g ∈ back, Automaton.isEnclosed g = false := by
  rcases ends with none | ⟨before, after, rfl, last, stops⟩
  · have opens : Glyph.scalar '\x7b' ∈ Glyph.decode bytes := by simp [split]
    exact absurd (Glyph.mem_of_mem_decode (by decide) opens) none
  · have notLater : Glyph.scalar '\x7b' ∉ Glyph.decode after :=
      fun opens => last (Glyph.mem_of_mem_decode (by decide) opens)
    have stop : ∃ g ∈ Glyph.decode after, Automaton.isEnclosed g = false := by
      rcases stops with closes | sign
      · exact ⟨.scalar '\x7d', Glyph.mem_decode_of_mem (by decide) (by decide) closes, by decide⟩
      · exact ⟨.scalar '@', Glyph.mem_decode_of_mem (by decide) (by decide) sign, by decide⟩
    rw [Glyph.decode_around (by decide) (show String.utf8EncodeChar '\x7b' = [0x7b] by decide)] at split
    obtain ⟨g, member, notEnclosed⟩ := stop
    refine ⟨g, ?_, notEnclosed⟩
    rcases cut_of_append split with ⟨mid, -, later⟩ | ⟨mid, -, rfl⟩
    · rcases List.cons_eq_append_iff.mp later with ⟨-, same⟩ | ⟨inner, -, same⟩
      · obtain ⟨-, rfl⟩ := List.cons.inj same
        exact member
      · exact absurd (by simp [same]) notLater
    · simp [member]

namespace Placed

/-- Those of some lexemes that end within a number of bytes. -/
def endedBy (n : Nat) (ps : List Placed) : List Placed := ps.filter fun p => p.span.stop.offset ≤ n

theorem endedBy_append (n : Nat) (front back : List Placed) :
    endedBy n (front ++ back) = endedBy n front ++ endedBy n back := List.filter_append ..

theorem start_le_stop {p : Place} {lexemes : List Lexeme} {q : Placed} (member : q ∈ inTurn p lexemes) :
    q.span.start.offset ≤ q.span.stop.offset := by
  obtain ⟨before, after, cut⟩ := List.append_of_mem member
  rw [(span_of_inTurn cut).2, Place.offset_afterAll]
  exact Nat.le_add_right _ _

theorem exists_of_endedBy {n : Nat} (p : Place) (lexemes : List Lexeme) (within : p.offset ≤ n) :
    ∃ before after, lexemes = before ++ after ∧ endedBy n (inTurn p lexemes) = inTurn p before ∧
      (p.afterAll (before.flatMap Lexeme.glyphs)).offset ≤ n := by
  -- Behind a lexeme that stops too late, all others stop later still.
  induction lexemes generalizing p with
  | nil => exact ⟨[], [], rfl, rfl, within⟩
  | cons l rest ih =>
    have behind : (p.afterAll l.padding).afterAll l.body = p.afterAll l.glyphs := (Place.afterAll_append ..).symm
    by_cases ended : (p.afterAll l.glyphs).offset ≤ n
    · obtain ⟨before, after, rfl, same, last⟩ := ih _ ended
      refine ⟨l :: before, after, rfl, ?_, ?_⟩
      · rw [inTurn, inTurn, behind, ← same, endedBy, endedBy, List.filter_cons_of_pos (by simpa using ended)]
      · rwa [List.flatMap_cons, Place.afterAll_append]
    · refine ⟨[], l :: rest, rfl, ?_, within⟩
      have none : ∀ q ∈ inTurn p (l :: rest), ¬ q.span.stop.offset ≤ n := by
        rw [inTurn, behind]
        intro q member
        rcases List.mem_cons.mp member with rfl | member
        · exact ended
        · have later := (ordered_inTurn _ rest).1 q member
          have forward := start_le_stop member
          omega
      exact List.filter_eq_nil_iff.mpr (by simpa using none)

end Placed

namespace Reading

/-- What lies within the front of a source is decoded from that front alone. -/
private theorem exists_mid {front : List UInt8} {glyphs left back : List Glyph} {g : Glyph}
    (split : glyphs ++ left = Glyph.decode front ++ g :: back)
    (within : (glyphs.flatMap Glyph.bytes).length ≤ front.length) :
    ∃ mid, Glyph.decode front = glyphs ++ mid ∧ left = mid ++ g :: back := by
  rcases cut_of_append split with inside | ⟨mid, whole, -⟩
  · exact inside
  · have width := g.width_pos
    rw [whole, List.flatMap_append, Glyph.bytes_decode, List.flatMap_cons, List.length_append, List.length_append]
      at within
    rw [Glyph.width] at width
    omega

private theorem Reads.exists_of_isOpen {atFront : Bool} {stage : Stage} {input : List Glyph}
    {before after : List Lexeme} {l : Lexeme} {e : Ending}
    (reads : Reads atFront stage input ⟨before ++ l :: after, e⟩) (isOpen : l.isOpen = true) :
    ∃ inner, l.body = .scalar '\x7b' :: inner ∧ ∀ g ∈ inner, Automaton.isEnclosed g = true := by
  obtain ⟨brace, notClosed⟩ : l.token = .brace ∧ ¬ Automaton.IsClosed l.body := by
    simpa [Lexeme.isOpen, Automaton.IsClosed] using isOpen
  obtain ⟨_, _, _, _, _, lexed, _⟩ := reads.lexed
  have found := lexed.found
  rw [brace] at found
  exact Automaton.exists_of_not_isClosed found.longest_of_brace notClosed

/-- What is read within a front that no brace is open behind is read first of every source with a line feed behind that
front. -/
private theorem exists_more {front rest : List UInt8} (ends : BracesEnd front) {before after : List Lexeme}
    (read : (ofSource (front ++ encode "\n" ++ rest)).lexemes = before ++ after)
    (within : ((before.flatMap Lexeme.glyphs).flatMap Glyph.bytes).length ≤ front.length) (other : List UInt8) :
    ∃ more, (ofSource (front ++ encode "\n" ++ other)).lexemes = before ++ more := by
  have reads := reads_ofSource read
  obtain ⟨reached, left, run, split, onward⟩ := reads.behind rfl
  rw [Glyph.decode_lines] at split reads
  obtain ⟨mid, whole, rfl⟩ := exists_mid split.symm within
  rw [whole, List.append_assoc] at reads
  have settled : mid = [] → ∀ l ∈ before.getLast?, l.isOpen = false := by
    intro nothing l isLast
    obtain ⟨init, rfl⟩ := List.getLast?_eq_some_iff.mp isLast
    -- An open brace would enclose all bytes behind its mark, up to the end of the front.
    by_contra isOpen
    rw [Bool.not_eq_false] at isOpen
    rw [List.append_assoc, List.singleton_append] at reads
    obtain ⟨inner, body, enclosed⟩ := reads.exists_of_isOpen isOpen
    rw [nothing, List.append_nil, List.flatMap_append, List.flatMap_singleton, Lexeme.glyphs, body,
      ← List.append_assoc] at whole
    obtain ⟨g, member, notEnclosed⟩ := ends.exists_not_isEnclosed whole
    rw [enclosed g member] at notEnclosed
    cases notEnclosed
  have sealed := reads.sealed settled run (reads_readFrom _ _ (mid ++ .scalar '\n' :: Glyph.decode other))
  rw [← List.append_assoc, ← whole, ← Glyph.decode_lines] at sealed
  exact ⟨_, congrArg Reading.lexemes ((reads_iff ..).mp sealed)⟩

private theorem endedBy_isPrefix {front : List UInt8} (ends : BracesEnd front) (rest other : List UInt8) :
    Placed.endedBy front.length (Placed.inTurn .origin (ofSource (front ++ encode "\n" ++ rest)).lexemes) <+:
      Placed.endedBy front.length (Placed.inTurn .origin (ofSource (front ++ encode "\n" ++ other)).lexemes) := by
  obtain ⟨before, after, read, same, within⟩ :=
    Placed.exists_of_endedBy .origin (ofSource (front ++ encode "\n" ++ rest)).lexemes (Nat.zero_le front.length)
  rw [Place.offset_afterAll, Place.origin, Nat.zero_add] at within
  obtain ⟨more, others⟩ := exists_more ends read within other
  have kept : Placed.endedBy front.length (Placed.inTurn .origin before) = Placed.inTurn .origin before := by
    rw [← same]
    exact List.filter_eq_self.mpr fun q member => (List.mem_filter.mp member).2
  rw [same, others, Placed.inTurn_append, Placed.endedBy_append, kept]
  exact List.prefix_append _ _

/-- A line feed seals what is read before it: the tokens that end within the front before it are the same with the same
places, glyphs and sizes, whatever follows it, unless a brace is open there. -/
theorem lineFeed_seals {front : List UInt8} (ends : BracesEnd front) (rest other : List UInt8) :
    Placed.endedBy front.length (Placed.inTurn .origin (ofSource (front ++ encode "\n" ++ rest)).lexemes) =
      Placed.endedBy front.length (Placed.inTurn .origin (ofSource (front ++ encode "\n" ++ other)).lexemes) := by
  have there := endedBy_isPrefix ends rest other
  have back := endedBy_isPrefix ends other rest
  exact there.eq_of_length (Nat.le_antisymm there.length_le back.length_le)

/-- Stars that text may go on behind, and half of a character, before a line feed. -/
theorem lineFeed_seals_half :
    BracesEnd (encode "/** a \x7bb\x7dcd**" ++ [0xc3]) ∧
      (Placed.endedBy 14 (Placed.inTurn .origin
          (ofSource (encode "/** a \x7bb\x7dcd**" ++ [0xc3] ++ encode "\n" ++ [0xa9])).lexemes)).map
            (fun p => (p.token, p.lexeme.size)) =
        [(.slash, 1), (.star, 1), (.star, 1), (.text, 3), (.brace, 3), (.text, 4), (.text, 1)] := by
  have ends : BracesEnd (encode "/** a \x7bb\x7dcd**" ++ [0xc3]) :=
    Or.inr ⟨encode "/** a ", encode "b\x7dcd**" ++ [0xc3], by decide +kernel, by decide +kernel,
      Or.inl (by decide +kernel)⟩
  have same := lineFeed_seals ends [0xa9] (encode "/")
  have width : (encode "/** a \x7bb\x7dcd**" ++ [0xc3]).length = 14 := by decide +kernel
  rw [width] at same
  refine ⟨ends, ?_⟩
  rw [same]
  decide +kernel

end Reading

end DocComment
