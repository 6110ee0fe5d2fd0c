import DocComment.Source.Glyph

/-!
# Automata and the longest prefix

The kinds of token are described by deterministic automata over glyphs. The lexeme at a place is the
longest prefix of what is left that its automaton accepts: `longest_eq_some_iff` says that it is
accepted and that no longer prefix is, `longest_eq_none_iff` that there is none only if no prefix is
accepted.
-/

namespace DocComment

/-- A deterministic automaton over glyphs; a glyph without a next state ends every match. -/
structure Automaton where
  State : Type
  start : State
  next : State → Glyph → Option State
  final : State → Bool

namespace Automaton

/-- Whether a word leads from a state to a final one. -/
def acceptsFrom (m : Automaton) (q : m.State) : List Glyph → Bool
  | [] => m.final q
  | g :: rest =>
    match m.next q g with
    | some q' => m.acceptsFrom q' rest
    | none => false

def accepts (m : Automaton) (word : List Glyph) : Bool := m.acceptsFrom m.start word

/-- How long the longest prefix is that leads from a state to a final one. -/
def longestFrom (m : Automaton) (q : m.State) : List Glyph → Option Nat
  | [] => if m.final q then some 0 else none
  | g :: rest =>
    match (m.next q g).bind fun q' => m.longestFrom q' rest with
    | some n => some (n + 1)
    | none => if m.final q then some 0 else none

/-- How long the longest accepted prefix is. -/
def longest (m : Automaton) (input : List Glyph) : Option Nat := m.longestFrom m.start input

/-! ## What the longest prefix is -/

/-- No prefix is found exactly if none is accepted. -/
theorem longestFrom_eq_none_iff (m : Automaton) (q : m.State) (input : List Glyph) :
    m.longestFrom q input = none ↔ ∀ k ≤ input.length, m.acceptsFrom q (input.take k) = false := by
  induction input generalizing q with
  | nil => simp [longestFrom, acceptsFrom]
  | cons g rest ih =>
    constructor
    · intro h k hk
      cases next : m.next q g with
      | none =>
        have final : m.final q = false := by simpa [longestFrom, next] using h
        cases k with
        | zero => simpa [acceptsFrom] using final
        | succ k => simp [acceptsFrom, next]
      | some q' =>
        cases inner : m.longestFrom q' rest with
        | some n => simp [longestFrom, next, inner] at h
        | none =>
          have final : m.final q = false := by simpa [longestFrom, next, inner] using h
          cases k with
          | zero => simpa [acceptsFrom] using final
          | succ k => simpa [acceptsFrom, next] using (ih q').mp inner k (by simpa using hk)
    · intro h
      have final : m.final q = false := by simpa [acceptsFrom] using h 0 (Nat.zero_le _)
      cases next : m.next q g with
      | none => simp [longestFrom, next, final]
      | some q' =>
        have inner : m.longestFrom q' rest = none := (ih q').mpr fun k hk => by
          simpa [acceptsFrom, next] using h (k + 1) (by simpa using hk)
        simp [longestFrom, next, inner, final]

/-- The prefix found is the longest of those accepted. -/
theorem longestFrom_eq_some_iff (m : Automaton) (q : m.State) (input : List Glyph) (n : Nat) :
    m.longestFrom q input = some n ↔
      n ≤ input.length ∧ m.acceptsFrom q (input.take n) = true ∧
        ∀ k, n < k → k ≤ input.length → m.acceptsFrom q (input.take k) = false := by
  induction input generalizing q n with
  | nil =>
    cases n with
    | zero =>
      simp only [longestFrom, acceptsFrom, List.take_nil]
      grind
    | succ n => simp [longestFrom]
  | cons g rest ih =>
    cases next : m.next q g with
    | none =>
      cases n with
      | zero =>
        simp only [longestFrom, next, Option.bind_none, List.take_zero, acceptsFrom, Nat.zero_le, true_and]
        constructor
        · intro h
          refine ⟨by simpa using h, fun k hk _ => ?_⟩
          obtain ⟨k, rfl⟩ : ∃ j, k = j + 1 := ⟨k - 1, by omega⟩
          simp [acceptsFrom, next]
        · rintro ⟨h, -⟩
          simp [h]
      | succ n => simp [longestFrom, acceptsFrom, next]
    | some q' =>
      cases inner : m.longestFrom q' rest with
      | some j =>
        have spec := (ih q' j).mp inner
        cases n with
        | zero =>
          simp only [longestFrom, next, Option.bind_some, inner, Option.some.injEq, Nat.add_one_ne_zero,
            false_iff, not_and]
          intro _ _ none
          have := none (j + 1) (by omega) (by simpa using spec.1)
          simp [acceptsFrom, next, spec.2.1] at this
        | succ n =>
          have step : m.longestFrom q (g :: rest) = some (n + 1) ↔ m.longestFrom q' rest = some n := by
            simp [longestFrom, next, inner]
          rw [step, ih q' n]
          simp only [List.length_cons, Nat.add_le_add_iff_right, List.take_succ_cons, acceptsFrom, next]
          refine and_congr_right fun _ => and_congr_right fun _ => ⟨fun h k hk bound => ?_, fun h k hk bound => ?_⟩
          · obtain ⟨k, rfl⟩ : ∃ j, k = j + 1 := ⟨k - 1, by omega⟩
            simpa [acceptsFrom, next] using h k (by omega) (by omega)
          · simpa [acceptsFrom, next] using h (k + 1) (by omega) (by omega)
      | none =>
        have dead := (m.longestFrom_eq_none_iff q' rest).mp inner
        cases n with
        | zero =>
          simp only [longestFrom, next, Option.bind_some, inner, List.take_zero, acceptsFrom, Nat.zero_le,
            true_and]
          constructor
          · intro h
            refine ⟨by simpa using h, fun k hk bound => ?_⟩
            obtain ⟨k, rfl⟩ : ∃ j, k = j + 1 := ⟨k - 1, by omega⟩
            simpa [acceptsFrom, next] using dead k (by simpa using bound)
          · rintro ⟨h, -⟩
            simp [h]
        | succ n =>
          have none : m.longestFrom q (g :: rest) ≠ some (n + 1) := by
            simp only [longestFrom, next, Option.bind_some, inner]
            split <;> simp
          simp only [none, false_iff, not_and, List.length_cons, Nat.add_le_add_iff_right]
          intro bound accepted
          simp [acceptsFrom, next, dead n bound] at accepted

/-- No prefix is found only if none is accepted. -/
theorem longest_eq_none_iff (m : Automaton) (input : List Glyph) :
    m.longest input = none ↔ ∀ k ≤ input.length, m.accepts (input.take k) = false :=
  m.longestFrom_eq_none_iff m.start input

/-- The prefix found is accepted, and no longer one is. -/
theorem longest_eq_some_iff (m : Automaton) (input : List Glyph) (n : Nat) :
    m.longest input = some n ↔
      n ≤ input.length ∧ m.accepts (input.take n) = true ∧
        ∀ k, n < k → k ≤ input.length → m.accepts (input.take k) = false :=
  m.longestFrom_eq_some_iff m.start input n

end Automaton

end DocComment
