import Mathlib.Tactic.SplitIfs
import DocComment.Source.Place

/-!
# Decoding: texts and the glyphs of their bytes

Decoding undoes encoding (`decode_encode`), and what stands behind some glyphs of a source is decoded as
if nothing stood before it (`decode_drop`). What stands before an ASCII byte is decoded as if nothing followed
(`decode_append_ascii`).
-/

namespace DocComment

namespace Glyph

/-! ## The number that an encoding announces -/

private theorem val_lt (c : Char) : c.val.toNat < 0x110000 := by
  have valid : c.val.toNat < 0xd800 ∨ (0xdfff < c.val.toNat ∧ c.val.toNat < 0x110000) := c.valid
  omega

private theorem first_of_one {n : Nat} (small : n < 0x80) :
    announcedWidth (UInt8.ofNat n) = 1 ∧ lowBits (UInt8.ofNat n) = n := by
  have value : n % 2 ^ 8 = n := by omega
  simp only [announcedWidth, lowBits, UInt8.lt_iff_toNat_lt, UInt8.toNat_ofNat', value]
  rw [if_pos (by simpa using small), if_pos (by simpa using small)]
  exact ⟨rfl, rfl⟩

private theorem first_of_two {n : Nat} (small : n < 32) :
    announcedWidth (UInt8.ofNat (n + 0xc0)) = 2 ∧ lowBits (UInt8.ofNat (n + 0xc0)) = n := by
  have value : (n + 0xc0) % 2 ^ 8 = n + 0xc0 := by omega
  simp only [announcedWidth, lowBits, UInt8.lt_iff_toNat_lt, UInt8.toNat_ofNat', value, UInt8.reduceToNat]
  constructor <;> split_ifs <;> omega

private theorem first_of_three {n : Nat} (small : n < 16) :
    announcedWidth (UInt8.ofNat (n + 0xe0)) = 3 ∧ lowBits (UInt8.ofNat (n + 0xe0)) = n := by
  have value : (n + 0xe0) % 2 ^ 8 = n + 0xe0 := by omega
  simp only [announcedWidth, lowBits, UInt8.lt_iff_toNat_lt, UInt8.toNat_ofNat', value, UInt8.reduceToNat]
  constructor <;> split_ifs <;> omega

private theorem first_of_four {n : Nat} (small : n < 8) :
    announcedWidth (UInt8.ofNat (n + 0xf0)) = 4 ∧ lowBits (UInt8.ofNat (n + 0xf0)) = n := by
  have value : (n + 0xf0) % 2 ^ 8 = n + 0xf0 := by omega
  simp only [announcedWidth, lowBits, UInt8.lt_iff_toNat_lt, UInt8.toNat_ofNat', value, UInt8.reduceToNat]
  constructor <;> split_ifs <;> omega

private theorem low_of_next {n : Nat} (small : n < 64) : (UInt8.ofNat (n + 0x80)).toNat % 64 = n := by
  simp only [UInt8.toNat_ofNat']
  omega

/-- The encoding of a scalar value announces that value, whatever follows it. -/
theorem announced_utf8EncodeChar (c : Char) (rest : List UInt8) :
    announced (String.utf8EncodeChar c ++ rest) = c.toNat := by
  have bound := val_lt c
  change _ = c.val.toNat
  unfold String.utf8EncodeChar
  generalize c.val.toNat = v at bound
  dsimp only
  -- one case for each width; the bits of the bytes put the value together again
  split_ifs with one two three
  · obtain ⟨width, low⟩ := first_of_one (n := v) (by omega)
    simp [announced, width, low]
  · obtain ⟨width, low⟩ := first_of_two (n := v / 64 % 32) (by omega)
    simp only [announced, List.cons_append, width, low, List.take_succ_cons, List.take_zero, List.foldl_cons,
      List.foldl_nil, low_of_next (n := v % 64) (by omega)]
    omega
  · obtain ⟨width, low⟩ := first_of_three (n := v / 4096 % 16) (by omega)
    simp only [announced, List.cons_append, width, low, List.take_succ_cons, List.take_zero, List.foldl_cons,
      List.foldl_nil, low_of_next (n := v % 64) (by omega), low_of_next (n := v / 64 % 64) (by omega)]
    omega
  · obtain ⟨width, low⟩ := first_of_four (n := v / 262144 % 8) (by omega)
    simp only [announced, List.cons_append, width, low, List.take_succ_cons, List.take_zero, List.foldl_cons,
      List.foldl_nil, low_of_next (n := v % 64) (by omega), low_of_next (n := v / 64 % 64) (by omega),
      low_of_next (n := v / 4096 % 64) (by omega)]
    omega

/-! ## Texts -/

theorem leading?_utf8EncodeChar_append (c : Char) (rest : List UInt8) :
    leading? (String.utf8EncodeChar c ++ rest) = some c := by
  simp only [leading?, announced_utf8EncodeChar, Char.ofNat_toNat]
  rw [if_pos (List.isPrefixOf_iff_prefix.mpr (List.prefix_append _ _))]

/-- An encoded scalar value is read first, whatever follows it. -/
theorem decode_utf8EncodeChar_append (c : Char) (rest : List UInt8) :
    decode (String.utf8EncodeChar c ++ rest) = .scalar c :: decode rest := by
  have found := leading?_utf8EncodeChar_append c rest
  have size : (String.utf8EncodeChar c).length = c.utf8Size := String.length_utf8EncodeChar c
  have positive := c.utf8Size_pos
  cases encoding : String.utf8EncodeChar c with
  | nil => simp only [encoding, List.length_nil] at size; omega
  | cons b more =>
    rw [encoding] at found size
    rw [List.cons_append] at found ⊢
    simp only [decode, decodeFrom, found, List.cons.injEq, true_and]
    rw [decodeFrom_eq_drop, ← size]
    simp [decode]

theorem decode_encode_append (text : String) (rest : List UInt8) :
    decode (encode text ++ rest) = spell text ++ decode rest := by
  unfold encode spell
  induction text.toList with
  | nil => rfl
  | cons c more ih =>
    rw [List.flatMap_cons, List.append_assoc, decode_utf8EncodeChar_append, ih, List.map_cons, List.cons_append]

/-- A text is read back from the bytes that encode it. -/
theorem decode_encode (text : String) : decode (encode text) = spell text := by
  have alone := decode_encode_append text []
  rwa [List.append_nil, show decode [] = [] from rfl, List.append_nil] at alone

theorem text?_decode_encode (text : String) : text? (decode (encode text)) = some text := by
  have chars : ∀ cs : List Char, (cs.map Glyph.scalar).mapM char? = some cs := by
    intro cs
    induction cs with
    | nil => rfl
    | cons c rest ih => simp [List.mapM_cons, ih, char?]
  rw [decode_encode, text?, spell, chars, Option.map_some, String.ofList_toList]

/-! ## Sources without their front -/

private theorem decode_drop_width {source : List UInt8} {g : Glyph} {rest : List Glyph}
    (read : decode source = g :: rest) : decode (source.drop g.width) = rest := by
  cases source with
  | nil => simp [decode, decodeFrom] at read
  | cons b more =>
    simp only [decode, decodeFrom] at read
    cases found : leading? (b :: more) with
    | none =>
      rw [found] at read
      obtain ⟨rfl, rfl⟩ := List.cons.inj read
      rfl
    | some c =>
      rw [found] at read
      obtain ⟨rfl, rfl⟩ := List.cons.inj read
      have positive := c.utf8Size_pos
      have width : (scalar c).width = c.utf8Size - 1 + 1 := by
        simp only [width, bytes, String.length_utf8EncodeChar]; omega
      rw [width, List.drop_succ_cons, decodeFrom_eq_drop]

/-- What stands behind some glyphs of a source is read as if nothing stood before it. -/
theorem decode_drop {source : List UInt8} {front back : List Glyph} (read : decode source = front ++ back) :
    decode (source.drop (front.flatMap bytes).length) = back := by
  induction front generalizing source with
  | nil => simpa using read
  | cons g front ih =>
    rw [List.flatMap_cons, List.length_append, ← List.drop_drop]
    exact ih (decode_drop_width read)

/-! ## Sources with a seam -/

/-- Behind its first byte, an encoding has only bytes that encode nothing by themselves. -/
theorem le_of_mem_tail_utf8EncodeChar {c : Char} {b : UInt8} (member : b ∈ (String.utf8EncodeChar c).tail) :
    0x80 ≤ b.toNat := by
  have bound := val_lt c
  unfold String.utf8EncodeChar at member
  generalize c.val.toNat = v at bound member
  dsimp only at member
  split_ifs at member
  all_goals simp only [List.tail_cons, List.mem_cons, List.not_mem_nil, or_false] at member
  · subst member
    rw [UInt8.toNat_ofNat']
    omega
  · rcases member with rfl | rfl <;> rw [UInt8.toNat_ofNat'] <;> omega
  · rcases member with rfl | rfl | rfl <;> rw [UInt8.toNat_ofNat'] <;> omega

theorem decode_cons_of_stray {b : UInt8} {rest : List UInt8} (stray : leading? (b :: rest) = none) :
    decode (b :: rest) = .stray b :: decode rest := by
  simp only [decode, decodeFrom, stray]

theorem decode_of_leading? {source : List UInt8} {c : Char} (found : leading? source = some c) :
    ∃ rest, source = String.utf8EncodeChar c ++ rest ∧ decode source = .scalar c :: decode rest := by
  obtain ⟨rest, rfl⟩ := isPrefix_of_leading? found
  exact ⟨rest, rfl, decode_utf8EncodeChar_append c rest⟩

/-- An ASCII byte starts a glyph wherever it stands, so what is before it is decoded as if nothing followed. -/
theorem decode_append_ascii (front : List UInt8) {b : UInt8} (ascii : b.toNat < 0x80) (back : List UInt8) :
    decode (front ++ b :: back) = decode front ++ decode (b :: back) := by
  induction length : front.length using Nat.strongRecOn generalizing front with
  | _ n ih =>
    cases front with
    | nil => rfl
    | cons a front =>
      cases found : leading? (a :: front) with
      | some c =>
        obtain ⟨rest, split, decoded⟩ := decode_of_leading? found
        have size : (String.utf8EncodeChar c).length = c.utf8Size := String.length_utf8EncodeChar c
        have positive := c.utf8Size_pos
        have shorter : rest.length < n := by
          rw [← length, split, List.length_append]
          omega
        rw [decoded, split, List.append_assoc, decode_utf8EncodeChar_append, ih _ shorter rest rfl, List.cons_append]
      | none =>
        have stray : leading? (a :: front ++ b :: back) = none := by
          cases other : leading? (a :: front ++ b :: back) with
          | none => rfl
          | some c =>
            -- The encoding would lie in front of the seam, or take in the byte behind it.
            have encoded := isPrefix_of_leading? other
            by_cases short : (String.utf8EncodeChar c).length ≤ (a :: front).length
            · obtain ⟨rest, split⟩ := List.prefix_of_prefix_length_le encoded (List.prefix_append _ _) short
              rw [← split, leading?_utf8EncodeChar_append] at found
              cases found
            · have whole := List.prefix_of_prefix_length_le (List.prefix_append (a :: front) (b :: back)) encoded (by omega)
              obtain ⟨rest, split⟩ := whole
              rw [← split, List.prefix_append_right_inj] at encoded
              cases rest with
              | nil => simp [← split] at short
              | cons first rest =>
                obtain ⟨rfl, _⟩ := List.cons_prefix_cons.mp encoded
                have tail := le_of_mem_tail_utf8EncodeChar (c := c) (b := first) (by rw [← split]; simp)
                omega
        have shorter : front.length < n := by rw [← length, List.length_cons]; omega
        rw [List.cons_append] at stray ⊢
        rw [decode_cons_of_stray stray, decode_cons_of_stray found, ih _ shorter front rfl, List.cons_append]

/-- An ASCII byte is a glyph of its own, between those before it and those behind it. -/
theorem decode_around {c : Char} {b : UInt8} (ascii : b.toNat < 0x80) (encoded : String.utf8EncodeChar c = [b])
    (front back : List UInt8) : decode (front ++ b :: back) = decode front ++ .scalar c :: decode back := by
  rw [decode_append_ascii front ascii, ← List.singleton_append, ← encoded, decode_utf8EncodeChar_append]

theorem mem_of_mem_decode {c : Char} {b : UInt8} (encoded : String.utf8EncodeChar c = [b]) {source : List UInt8}
    (member : .scalar c ∈ decode source) : b ∈ source := by
  rw [← bytes_decode source]
  refine List.mem_flatMap_of_mem member ?_
  simp [bytes, encoded]

theorem mem_decode_of_mem {c : Char} {b : UInt8} (ascii : b.toNat < 0x80) (encoded : String.utf8EncodeChar c = [b])
    {source : List UInt8} (member : b ∈ source) : .scalar c ∈ decode source := by
  obtain ⟨front, back, rfl⟩ := List.append_of_mem member
  rw [decode_around ascii encoded]
  simp

/-- A line feed between two sources is decoded between their glyphs. -/
theorem decode_lines (front back : List UInt8) :
    decode (front ++ encode "\n" ++ back) = decode front ++ .scalar '\n' :: decode back := by
  have lineFeed : encode "\n" = [0x0a] := by decide +kernel
  rw [lineFeed, List.append_assoc, List.singleton_append]
  exact decode_around (by decide) (by decide) front back

/-- The bytes of some glyphs at the front of a source are decoded as these glyphs. -/
theorem decode_take {source : List UInt8} {front back : List Glyph} (read : decode source = front ++ back) :
    decode (source.take (front.flatMap bytes).length) = front := by
  induction front generalizing source with
  | nil => rfl
  | cons g front ih =>
    cases source with
    | nil => cases read
    | cons b more =>
      cases found : leading? (b :: more) with
      | some c =>
        obtain ⟨rest, split, decoded⟩ := decode_of_leading? found
        rw [decoded, List.cons_append] at read
        obtain ⟨rfl, later⟩ := List.cons.inj read
        rw [split, List.flatMap_cons, List.length_append, bytes, List.take_length_add_append,
          decode_utf8EncodeChar_append, ih later]
      | none =>
        rw [decode_cons_of_stray found, List.cons_append] at read
        obtain ⟨rfl, later⟩ := List.cons.inj read
        have cut : leading? (b :: more.take (front.flatMap bytes).length) = none := by
          cases other : leading? (b :: more.take (front.flatMap bytes).length) with
          | none => rfl
          | some c =>
            obtain ⟨rest, split⟩ := isPrefix_of_leading? other
            have whole : b :: more = String.utf8EncodeChar c ++ (rest ++ more.drop (front.flatMap bytes).length) := by
              rw [← List.append_assoc, split, List.cons_append, List.take_append_drop]
            rw [whole, leading?_utf8EncodeChar_append] at found
            cases found
        have width : ((stray b :: front).flatMap bytes).length = (front.flatMap bytes).length + 1 := by
          rw [List.flatMap_cons, List.length_append, bytes, List.length_singleton]
          omega
        rw [width, List.take_succ_cons, decode_cons_of_stray cut, ih later]

/-! ## Texts put into a source -/

/-- A text that starts with an ASCII character is decoded as it is spelled, between what stands around it. -/
theorem decode_around_text {text : String} {c : Char} (starts : text.toList.head? = some c) (ascii : c.toNat < 0x80)
    (front back : List UInt8) :
    decode (front ++ (encode text ++ back)) = decode front ++ (spell text ++ decode back) := by
  obtain ⟨more, cons⟩ := List.head?_eq_some_iff.mp starts
  have one : c.val.toNat < 0x80 := ascii
  have encoded : encode text = UInt8.ofNat c.val.toNat :: more.flatMap String.utf8EncodeChar := by
    rw [encode, cons, List.flatMap_cons, String.utf8EncodeChar, if_pos (by omega), List.singleton_append]
  have small : (UInt8.ofNat c.val.toNat).toNat < 0x80 := by
    rw [UInt8.toNat_ofNat']
    omega
  rw [← decode_encode_append, encoded, List.cons_append, decode_append_ascii front small]

/-- Such a text may take the place of some glyphs of a source, and the others stay. -/
theorem decode_spliced {source : List UInt8} {front mid back : List Glyph}
    (read : decode source = front ++ (mid ++ back)) {text : String} {c : Char} (starts : text.toList.head? = some c)
    (ascii : c.toNat < 0x80) :
    decode (source.take (front.flatMap bytes).length ++ encode text ++
      source.drop ((front ++ mid).flatMap bytes).length) = front ++ spell text ++ back := by
  have behind : decode source = (front ++ mid) ++ back := by rw [read, List.append_assoc]
  rw [List.append_assoc, decode_around_text starts ascii, decode_take read, decode_drop behind, List.append_assoc]

end Glyph

end DocComment
