import Mathlib.Data.List.Induction
import Mathlib.Data.List.TakeWhile
import DocComment.Proofs.BuildSteps
import DocComment.Proofs.Decoding

/-!
# Parts of a version

Digits are read from the left, and what is kept is the value of those read so far. So reading ends in one of three ways
(`VersionPart.Ends`): behind the last digit, at the first digit with which the number is too large, or at the first
character that is no digit. Values of digits only grow, so a text whose leading digits are too large is too large
whatever follows them. The parts of a version stand in the text of the parser behind marks that are found nowhere else
in it (`ParserText.stamps_stamped`).
-/

namespace DocComment

/-! ## Values of digits -/

namespace Digits

@[simp] theorem decimal_nil : decimal [] = 0 := rfl

@[simp] theorem decimal_snoc (digits : List Char) (d : Char) :
    decimal (digits ++ [d]) = decimal digits * 10 + (d.toNat - '0'.toNat) := by
  simp [decimal, value]

theorem decimal_le_append (front back : List Char) : decimal front ≤ decimal (front ++ back) := by
  induction back using List.reverseRecOn with
  | nil => simp
  | append_singleton back d ih =>
    rw [← List.append_assoc, decimal_snoc]
    omega

end Digits

namespace VersionPart

theorem digit?_eq (c : Char) : digit? c = if c.isDigit then some (c.toNat - '0'.toNat) else none := by
  have same : (decide ('0' ≤ c) && decide (c ≤ '9')) = c.isDigit := rfl
  rw [digit?, same]

/-! ## How reading ends -/

/-- How reading digits can end. A digit is looked at before the number that it makes. -/
inductive Ends : List Char → Except VersionFault Nat → Prop where
  | whole {digits : List Char} (isDigit : ∀ d ∈ digits, d.isDigit = true) (fits : Digits.decimal digits ≤ 255) :
      Ends digits (.ok (Digits.decimal digits))
  | overflow {digits rest : List Char} {d : Char} (isDigit : ∀ c ∈ digits ++ [d], c.isDigit = true)
      (exceeds : 255 < Digits.decimal (digits ++ [d])) : Ends (digits ++ d :: rest) (.error .overflow)
  | stray {digits rest : List Char} {c : Char} (isDigit : ∀ d ∈ digits, d.isDigit = true)
      (fits : Digits.decimal digits ≤ 255) (other : c.isDigit = false) :
      Ends (digits ++ c :: rest) (.error .invalidDigit)

theorem ends_readFrom {digits : List Char} (isDigit : ∀ d ∈ digits, d.isDigit = true)
    (fits : Digits.decimal digits ≤ 255) (rest : List Char) :
    Ends (digits ++ rest) (readFrom (Digits.decimal digits) rest) := by
  -- The running number is the value of the digits read so far, and it fits; both hold again one digit later.
  induction rest generalizing digits with
  | nil =>
    rw [List.append_nil, readFrom]
    exact .whole isDigit fits
  | cons c rest ih =>
    rw [readFrom, digit?_eq]
    by_cases isNext : c.isDigit = true
    · have all : ∀ d ∈ digits ++ [c], d.isDigit = true := by
        intro d member
        rcases List.mem_append.mp member with member | member
        · exact isDigit d member
        · rwa [List.mem_singleton.mp member]
      have value := Digits.decimal_snoc digits c
      simp only [isNext, if_true]
      by_cases small : Digits.decimal (digits ++ [c]) < 256
      · rw [← value, if_pos small, List.append_cons]
        exact ih all (by omega)
      · rw [← value, if_neg small]
        exact .overflow all (by omega)
    · simp only [isNext]
      exact .stray isDigit fits (by simpa using isNext)

section
variable {text : List Char} {result : Except VersionFault Nat} (ends : Ends text result)
include ends

theorem Ends.eq_ok_iff (n : Nat) :
    result = .ok n ↔ (∀ c ∈ text, c.isDigit = true) ∧ Digits.decimal text = n ∧ n ≤ 255 := by
  cases ends with
  | whole isDigit fits =>
    constructor
    · intro same
      obtain rfl := Except.ok.inj same
      exact ⟨isDigit, rfl, fits⟩
    · rintro ⟨_, rfl, _⟩
      rfl
  | @overflow digits rest d isDigit exceeds =>
    refine ⟨nofun, ?_⟩
    rintro ⟨_, rfl, fits⟩
    -- The digits up to the one that is too much are worth no more than all of them.
    have grows := Digits.decimal_le_append (digits ++ [d]) rest
    rw [← List.append_cons] at grows
    omega
  | stray _ _ other =>
    refine ⟨nofun, ?_⟩
    rintro ⟨all, _⟩
    have isDigit := all _ (List.mem_append_right _ (List.mem_cons_self ..))
    rw [other] at isDigit
    cases isDigit

theorem Ends.eq_overflow_iff :
    result = .error .overflow ↔ 255 < Digits.decimal (text.takeWhile Char.isDigit) := by
  cases ends with
  | whole isDigit fits =>
    rw [List.takeWhile_eq_self_iff.mpr isDigit]
    refine ⟨nofun, fun exceeds => ?_⟩
    omega
  | @overflow digits rest d isDigit exceeds =>
    refine ⟨fun _ => ?_, fun _ => rfl⟩
    rw [List.append_cons, List.takeWhile_append_of_pos isDigit]
    exact Nat.lt_of_lt_of_le exceeds (Digits.decimal_le_append _ _)
  | stray isDigit fits other =>
    rw [List.takeWhile_append_of_pos isDigit, List.takeWhile_cons_of_neg (by simp [other]), List.append_nil]
    refine ⟨nofun, fun exceeds => ?_⟩
    omega

theorem Ends.eq_invalidDigit_iff :
    result = .error .invalidDigit ↔ ∃ digits c rest, text = digits ++ c :: rest ∧
      (∀ d ∈ digits, d.isDigit = true) ∧ c.isDigit = false ∧ Digits.decimal digits ≤ 255 := by
  have tooLarge := ends.eq_overflow_iff
  cases ends with
  | whole isDigit _ =>
    refine ⟨nofun, ?_⟩
    rintro ⟨digits, c, rest, rfl, _, other, _⟩
    have isNext := isDigit c (List.mem_append_right _ (List.mem_cons_self ..))
    rw [other] at isNext
    cases isNext
  | overflow =>
    refine ⟨nofun, ?_⟩
    rintro ⟨front, c, back, cut, isFront, other, fits⟩
    have exceeds := tooLarge.mp rfl
    rw [cut, List.takeWhile_append_of_pos isFront, List.takeWhile_cons_of_neg (by simp [other]),
      List.append_nil] at exceeds
    omega
  | stray isDigit fits other => exact ⟨fun _ => ⟨_, _, _, rfl, isDigit, other, fits⟩, fun _ => rfl⟩

theorem Ends.ne_empty : result ≠ .error .empty := by
  cases ends <;> simp

end

/-! ## What a text is read as -/

/-- The text without one plus sign in front of something. -/
def unsigned : List Char → List Char
  | '+' :: c :: rest => c :: rest
  | text => text

/-- A text of digits spells a number that fits. -/
structure Spells (text : List Char) (n : Nat) : Prop where
  nonempty : text ≠ []
  isDigit : ∀ c ∈ text, c.isDigit = true
  value : Digits.decimal text = n
  fits : n ≤ 255

theorem read_of_ne_nil {text : List Char} (nonempty : text ≠ []) :
    read text = (readFrom 0 (unsigned text)).map UInt8.ofNat := by
  fun_cases unsigned text with
  | case1 c rest => rfl
  | case2 text noSign =>
    rw [read]
    · exact nonempty
    · exact noSign

theorem unsigned_ne_nil {text : List Char} (nonempty : text ≠ []) : unsigned text ≠ [] := by
  fun_cases unsigned text with
  | case1 c rest => simp
  | case2 text noSign => exact nonempty

section
variable (text : List Char)

/-- A text is empty, or reading what is left of it without a sign ends in one of the three ways. -/
theorem exists_ends : text = [] ∧ read text = .error .empty ∨
    text ≠ [] ∧ ∃ result, Ends (unsigned text) result ∧ read text = result.map UInt8.ofNat := by
  by_cases isEmpty : text = []
  · rw [isEmpty]
    exact .inl ⟨rfl, rfl⟩
  · have none : ∀ d ∈ ([] : List Char), d.isDigit = true := by simp
    have ends := ends_readFrom none (Nat.zero_le 255) (unsigned text)
    exact .inr ⟨isEmpty, _, ends, read_of_ne_nil isEmpty⟩

theorem exists_read_eq_ok_iff (n : Nat) : (∃ p, read text = .ok p ∧ p.toNat = n) ↔ Spells (unsigned text) n := by
  rcases exists_ends text with ⟨rfl, isRead⟩ | ⟨nonempty, result, ends, isRead⟩
  · rw [isRead]
    refine ⟨by simp, fun spells => ?_⟩
    exact absurd rfl spells.nonempty
  · rw [isRead]
    constructor
    · rintro ⟨p, same, rfl⟩
      cases result with
      | error fault => cases same
      | ok m =>
        obtain ⟨isDigit, value, fits⟩ := (ends.eq_ok_iff m).mp rfl
        obtain rfl := Except.ok.inj same
        have small : (UInt8.ofNat m).toNat = m := UInt8.toNat_ofNat_of_lt (show m < 256 by omega)
        rw [small]
        exact ⟨unsigned_ne_nil nonempty, isDigit, value, fits⟩
    · rintro ⟨_, isDigit, value, fits⟩
      rw [(ends.eq_ok_iff n).mpr ⟨isDigit, value, fits⟩]
      exact ⟨UInt8.ofNat n, rfl, UInt8.toNat_ofNat_of_lt (show n < 256 by omega)⟩

theorem map_eq_error_iff {ε α β : Type} {f : α → β} {x : Except ε α} {e : ε} : x.map f = .error e ↔ x = .error e := by
  cases x <;> simp [Except.map]

theorem read_eq_empty_iff : read text = .error .empty ↔ text = [] := by
  rcases exists_ends text with ⟨isEmpty, isRead⟩ | ⟨nonempty, result, ends, isRead⟩
  · exact ⟨fun _ => isEmpty, fun _ => isRead⟩
  · rw [isRead, map_eq_error_iff]
    exact ⟨fun same => absurd same ends.ne_empty, fun isEmpty => absurd isEmpty nonempty⟩

theorem read_eq_overflow_iff :
    read text = .error .overflow ↔ 255 < Digits.decimal ((unsigned text).takeWhile Char.isDigit) := by
  rcases exists_ends text with ⟨rfl, isRead⟩ | ⟨_, result, ends, isRead⟩
  · simp [isRead, unsigned]
  · rw [isRead, map_eq_error_iff, ends.eq_overflow_iff]

theorem read_eq_invalidDigit_iff : read text = .error .invalidDigit ↔
    ∃ digits c rest, unsigned text = digits ++ c :: rest ∧ (∀ d ∈ digits, d.isDigit = true) ∧ c.isDigit = false ∧
      Digits.decimal digits ≤ 255 := by
  rcases exists_ends text with ⟨rfl, isRead⟩ | ⟨_, result, ends, isRead⟩
  · simp [isRead, unsigned]
  · rw [isRead, map_eq_error_iff, ends.eq_invalidDigit_iff]

example : read ['+'] = .error .invalidDigit ∧ read ['2', '5', 'x'] = .error .invalidDigit ∧
    read ['2', '5', '6', 'x'] = .error .overflow := by decide

end

end VersionPart

/-! ## Versions in texts -/

namespace ParserText

/-- The text of a parser carries a number behind a mark: the first line that begins with the mark, blanks aside, goes on
with the number in decimal, and no digit follows. -/
def Carries (text mark : String) (n : Nat) : Prop :=
  ∃ before line after rest, Text.parts '\n' text.toList = before ++ line :: after ∧
    (∀ earlier ∈ before, ¬ mark.toList <+: earlier.dropWhile Text.isBlank) ∧
    line.dropWhile Text.isBlank = mark.toList ++ ((toString n).toList ++ rest) ∧ ∀ c ∈ rest.head?, c.isDigit = false

theorem isDigit_of_mem_toDigits {n : Nat} : ∀ d ∈ Nat.toDigits 10 n, d.isDigit = true := fun _ member =>
  Nat.isDigit_of_mem_toDigits (by decide) (by decide) member

theorem lineFeed_not_mem_toDigits (n : Nat) : '\n' ∉ Nat.toDigits 10 n := fun member =>
  absurd (isDigit_of_mem_toDigits _ member) (by decide)

theorem toList_toString (n : Nat) : (toString n).toList = Nat.toDigits 10 n := by simp

theorem takeWhile_toDigits (n : Nat) {rest : List Char} (ends : ∀ c ∈ rest.head?, c.isDigit = false) :
    (Nat.toDigits 10 n ++ rest).takeWhile Char.isDigit = Nat.toDigits 10 n := by
  rw [List.takeWhile_append_of_pos isDigit_of_mem_toDigits]
  cases rest with
  | nil => rw [List.takeWhile_nil, List.append_nil]
  | cons c rest => rw [List.takeWhile_cons_of_neg (by simp [ends c rfl]), List.append_nil]

section
variable {text mark : String} {n : Nat}

theorem stamp?_of_carries (carries : Carries text mark n) : stamp? text mark = some (toString n) := by
  obtain ⟨before, line, after, rest, lines, first, behind, ends⟩ := carries
  rw [toList_toString] at behind
  have skipped : before.findSome? (stampOn? mark.toList) = none := by
    rw [List.findSome?_eq_none_iff]
    intro earlier isEarlier
    have noPrefix : mark.toList.isPrefixOf (earlier.dropWhile Text.isBlank) = false := by
      rw [← Bool.not_eq_true, List.isPrefixOf_iff_prefix]
      exact first earlier isEarlier
    simp only [stampOn?, noPrefix, Bool.false_and, Bool.false_eq_true, if_false]
  have isPrefix : mark.toList.isPrefixOf (line.dropWhile Text.isBlank) = true := by
    rw [behind, List.isPrefixOf_iff_prefix]
    exact List.prefix_append _ _
  have digits : ((line.dropWhile Text.isBlank).drop mark.toList.length).takeWhile Char.isDigit = Nat.toDigits 10 n := by
    rw [behind, List.drop_left, takeWhile_toDigits n ends]
  have notEmpty : (Nat.toDigits 10 n).isEmpty = false := by
    rw [List.isEmpty_eq_false_iff]
    exact Nat.toDigits_ne_nil
  have found : stampOn? mark.toList line = some (Nat.toDigits 10 n) := by
    simp only [stampOn?, isPrefix, digits, notEmpty, Bool.not_false, Bool.and_true, if_true]
  rw [stamp?, lines, List.findSome?_append, skipped, Option.none_or, List.findSome?_cons, found, ← toList_toString]
  exact congrArg some String.ofList_toList

/-- A text that carries the layout version and the parts of a version is stamped with them. -/
theorem stamps_of_carries {v : Version} (carries : ∀ e ∈ entries v, Carries text e.1 e.2) :
    stamps text = some "15" :: [v.major, v.minor, v.patch].map fun part => some (toString part.toNat) := by
  have marks : layoutMark :: partMarks = (entries v).map Prod.fst := rfl
  have stamp : ∀ e ∈ entries v, stamp? text e.1 = some (toString e.2) := fun e isEntry =>
    stamp?_of_carries (carries e isEntry)
  rw [stamps, marks, List.map_map]
  exact List.map_congr_left stamp

/-! ### Texts of lines -/

/-- No line that begins with the one front begins with the mark. -/
def Apart (mark front : String) : Prop :=
  ¬ mark.toList <+: front.toList.dropWhile Text.isBlank ∧ ¬ front.toList.dropWhile Text.isBlank <+: mark.toList

instance (mark front : String) : Decidable (Apart mark front) := inferInstanceAs (Decidable (_ ∧ _))

theorem Apart.not_begins {front : String} (apart : Apart mark front) (rest : List Char) :
    ¬ mark.toList <+: (front.toList ++ rest).dropWhile Text.isBlank := by
  obtain ⟨notBefore, notBehind⟩ := apart
  have notBlank : (front.toList.dropWhile Text.isBlank).isEmpty = false := by
    rw [List.isEmpty_eq_false_iff]
    intro none
    exact notBehind (none ▸ List.nil_prefix)
  rw [List.dropWhile_append, notBlank]
  intro isPrefix
  exact (List.prefix_or_prefix_of_prefix isPrefix (List.prefix_append _ _)).elim notBefore notBehind

theorem parts_ofLines {lines : List (String × String)} (unbroken : ∀ l ∈ lines, '\n' ∉ l.1.toList ++ l.2.toList) :
    Text.parts '\n' (ofLines lines).toList = lines.map (fun l => l.1.toList ++ l.2.toList) ++ [[]] := by
  induction lines with
  | nil => rfl
  | cons l lines ih =>
    have whole : (ofLines (l :: lines)).toList = (l.1.toList ++ l.2.toList) ++ '\n' :: (ofLines lines).toList := by
      simp [ofLines]
    have here : Text.parts '\n' (l.1.toList ++ l.2.toList) = [l.1.toList ++ l.2.toList] :=
      Text.parts_of_not_mem (unbroken l (List.mem_cons_self ..))
    rw [whole, Text.parts_append, here, ih fun m isLine => unbroken m (List.mem_cons_of_mem _ isLine)]
    rfl

/-- A line carries the number behind its mark if the fronts of the lines before it are apart from the mark. -/
theorem carries_ofLines {lines : List (String × String)} (i : Nat) {front number : String} {tail : List Char}
    (unbroken : ∀ l ∈ lines, '\n' ∉ l.1.toList ++ l.2.toList) (there : lines[i]? = some (front, number))
    (apart : ∀ l ∈ lines.take i, Apart mark l.1) (isMark : front.toList.dropWhile Text.isBlank = mark.toList)
    (marked : mark.toList ≠ []) (isNumber : number.toList = (toString n).toList ++ tail)
    (ends : ∀ c ∈ tail.head?, c.isDigit = false) : Carries (ofLines lines) mark n := by
  obtain ⟨inside, here⟩ := List.getElem?_eq_some_iff.mp there
  have split : lines = lines.take i ++ (front, number) :: lines.drop (i + 1) := by
    rw [← here, ← List.drop_eq_getElem_cons inside, List.take_append_drop]
  refine ⟨(lines.take i).map fun l => l.1.toList ++ l.2.toList, front.toList ++ number.toList,
    (lines.drop (i + 1)).map (fun l => l.1.toList ++ l.2.toList) ++ [[]], tail, ?_, ?_, ?_, ends⟩
  · rw [parts_ofLines unbroken]
    nth_rewrite 1 [split]
    rw [List.map_append, List.map_cons, List.append_assoc, List.cons_append]
  · intro earlier isEarlier
    obtain ⟨l, isLine, rfl⟩ := List.mem_map.mp isEarlier
    exact (apart l isLine).not_begins _
  · have notBlank : (front.toList.dropWhile Text.isBlank).isEmpty = false := by
      rw [isMark, List.isEmpty_eq_false_iff]
      exact marked
    rw [List.dropWhile_append, notBlank, isMark, isNumber]
    rfl

theorem forall_entries_iff {v : Version} {p : String → Nat → Prop} :
    (∀ e ∈ entries v, p e.1 e.2) ↔ p layoutMark 15 ∧ p ".major_version = " v.major.toNat ∧
      p ".minor_version = " v.minor.toNat ∧ p ".patch_version = " v.patch.toNat := by
  simp [entries, partMarks, Language.newest]

end

end ParserText

/-- The parsers that a toolchain generates carry the layout version and the version that was given. -/
def Toolchain.CarriesVersions (tools : Toolchain) : Prop :=
  ∀ grammar v parser, tools.generate grammar v = .ok parser →
    ∀ e ∈ ParserText.entries v, ParserText.Carries parser.text e.1 e.2

/-! ## Versions in builds -/

theorem VersionFault.message_inj {fault other : VersionFault} (same : fault.message = other.message) : fault = other := by
  cases fault <;> cases other <;> simp [message] at same ⊢

namespace Build

variable {env : Environment} {disk : Disk} {v : BuildVariable} {value : String}

theorem versionPart_of_encode (isText : env v = some (encode value)) :
    versionPart env v = (VersionPart.read value.toList).mapError (.versionPart v value) := by
  have text : env.text v = .ok value := by
    rw [Environment.text, isText]
    simp only [Glyph.text?_decode_encode]
  rw [versionPart, text]

/-- A part of a version is refused with a text about the value of its variable. -/
def Refuses (v : BuildVariable) (value : String) (part : Except BuildFailure UInt8) (text : String) : Prop :=
  ∃ f, part = .error f ∧ f.message = v.name ++ "=" ++ value ++ " does not fit a grammar version: " ++ text

theorem refuses_iff {part : Except VersionFault UInt8} (fault : VersionFault) :
    Refuses v value (part.mapError (.versionPart v value)) fault.message ↔ part = .error fault := by
  cases part with
  | ok p => simp [Refuses, Except.mapError]
  | error other =>
    constructor
    · rintro ⟨f, same, text⟩
      obtain rfl := Except.error.inj same
      rw [VersionFault.message_inj ((String.append_right_inj _).mp text)]
    · rintro same
      obtain rfl := Except.error.inj same
      exact ⟨_, rfl, rfl⟩

/-- What a variable with a value has to give as a part of a version. -/
structure DecidesPart (v : BuildVariable) (value : String) (part : Except BuildFailure UInt8) : Prop where
  spelled : ∀ n, (∃ p, part = .ok p ∧ p.toNat = n) ↔ VersionPart.Spells (VersionPart.unsigned value.toList) n
  empty : Refuses v value part "cannot parse integer from empty string" ↔ value = ""
  overflow : Refuses v value part "number too large to fit in target type" ↔
    255 < Digits.decimal ((VersionPart.unsigned value.toList).takeWhile Char.isDigit)
  /-- Every other value is said to hold an invalid digit. -/
  other : Refuses v value part "invalid digit found in string" ↔ value ≠ "" ∧
    (∀ n, ¬ VersionPart.Spells (VersionPart.unsigned value.toList) n) ∧
    Digits.decimal ((VersionPart.unsigned value.toList).takeWhile Char.isDigit) ≤ 255
  /-- It does: a character that is no digit is reached while the number still fits. -/
  invalidDigit : Refuses v value part "invalid digit found in string" ↔
    ∃ digits c rest, VersionPart.unsigned value.toList = digits ++ c :: rest ∧ (∀ d ∈ digits, d.isDigit = true) ∧
      c.isDigit = false ∧ Digits.decimal digits ≤ 255

theorem decidesPart_versionPart (isText : env v = some (encode value)) :
    DecidesPart v value (versionPart env v) := by
  have spelled := VersionPart.exists_read_eq_ok_iff value.toList
  have empty := VersionPart.read_eq_empty_iff value.toList
  have overflow := VersionPart.read_eq_overflow_iff value.toList
  have invalidDigit := VersionPart.read_eq_invalidDigit_iff value.toList
  rw [String.toList_eq_nil_iff] at empty
  rw [versionPart_of_encode isText]
  refine {
    spelled := fun n => ?_
    empty := (refuses_iff .empty).trans empty
    overflow := (refuses_iff .overflow).trans overflow
    other := (refuses_iff .invalidDigit).trans ?_
    invalidDigit := (refuses_iff .invalidDigit).trans invalidDigit }
  · rw [← spelled]
    cases VersionPart.read value.toList <;> simp [Except.mapError]
  · rw [← not_lt, ← overflow, ne_eq, ← empty]
    simp only [← spelled]
    cases VersionPart.read value.toList with
    | ok p => simp
    | error fault => cases fault <;> simp

/-! ### What the parser carries -/

/-- The layout version, and the parts of the version that the variables give, in decimal. -/
def carried (env : Environment) : List (Option String) :=
  some "15" :: [BuildVariable.major, .minor, .patch].map fun v =>
    (versionPart env v).toOption.map fun part => toString part.toNat

theorem version_eq_ok_iff (version : Version) : Build.version env = .ok version ↔
    versionPart env .major = .ok version.major ∧ versionPart env .minor = .ok version.minor ∧
      versionPart env .patch = .ok version.patch := by
  obtain ⟨a, b, c⟩ := version
  rw [Build.version]
  cases versionPart env .major with
  | error f => simp [bind, Except.bind]
  | ok major =>
    cases versionPart env .minor with
    | error f => simp [bind, Except.bind]
    | ok minor => cases versionPart env .patch <;> simp [bind, Except.bind, pure, Except.pure]

theorem stamps_of_version {version : Version} {text : String} (isVersion : Build.version env = .ok version)
    (carries : ∀ e ∈ ParserText.entries version, ParserText.Carries text e.1 e.2) :
    ParserText.stamps text = carried env := by
  obtain ⟨major, minor, patch⟩ := (version_eq_ok_iff version).mp isVersion
  simp [ParserText.stamps_of_carries carries, carried, major, minor, patch, Except.toOption]

theorem text_of_directory {out : String} (outIs : directory env v = .ok out) : env.text v = .ok out := by
  rw [directory] at outIs
  cases isText : env.text v with
  | error fault => simp [isText, Except.mapError] at outIs
  | ok text => simpa [isText, Except.mapError] using outIs

section
variable {tools : Toolchain} (carries : tools.CarriesVersions)
include carries

theorem stamps_of_parserText {path text : String} (generates : parserText tools env disk path = .ok text) :
    ParserText.stamps text = carried env := by
  obtain ⟨grammar, version, _, isVersion, generates⟩ := parserText_eq_ok_iff.mp generates
  exact stamps_of_version isVersion (carries grammar version _ generates)

/-- A build that goes through leaves a parser that carries the parts of the version. -/
theorem stamps_ofRun (works : CompilerWorks tools env disk) (goesThrough : (run tools env disk).failure = none)
    (known : List String) : (BuildReport.ofRun tools env disk known).stamps = some (carried env) := by
  have ends : Ends tools env disk (firstFailure tools env disk) (run tools env disk) := run_ends tools env disk
  have none : firstFailure tools env disk = none := by
    rw [ends.failure_eq] at goesThrough
    exact Option.map_eq_none_iff.mp goesThrough
  rw [none] at ends
  obtain ⟨manifest, out, grammar, version, text, starts, _, isVersion, generates, isRead, _, _⟩ :=
    ends.written (works none)
  have stamps : ParserText.stamps text = carried env :=
    stamps_of_version isVersion (carries grammar version _ generates)
  have place : env.text .outDirectory = .ok out := text_of_directory starts.out
  have content : (run tools env disk).disk.read (Path.join out "parser.c") = .ok (encode text) := isRead
  simp only [BuildReport.ofRun, place, content, Except.toOption, Option.map_some, Glyph.text?_decode_encode,
    Option.getD_some, stamps]

/-- A variable gives the part of the version that its digits spell, after a plus sign at most, or is refused for what is
first wrong with it from the left. The parser carries the parts that the variables give. -/
theorem versionPart_as_spelled (isText : env v = some (encode value)) :
    DecidesPart v value (versionPart env v) ∧
      (∀ disk path text, parserText tools env disk path = .ok text → ParserText.stamps text = carried env) ∧
      ∀ disk known, CompilerWorks tools env disk → (run tools env disk).failure = none →
        (BuildReport.ofRun tools env disk known).stamps = some (carried env) := by
  refine ⟨decidesPart_versionPart isText, ?_, ?_⟩
  · intro disk path text generates
    exact stamps_of_parserText carries generates
  · intro disk known works goesThrough
    exact stamps_ofRun carries works goesThrough known

end

/-- The toolchain for a token that reads like a mark carries versions, for the token stands within its line. -/
theorem plainToolchain_carriesVersions : plainToolchain.CarriesVersions := by
  intro grammar v parser generates
  obtain rfl := Except.ok.inj generates
  have unbroken : ∀ l ∈ oneTokenLines v, '\n' ∉ l.1.toList ++ l.2.toList := by
    simp [oneTokenLines, ParserText.lineFeed_not_mem_toDigits]
  have spelled (n : Nat) : (toString n ++ ",").toList = (toString n).toList ++ [','] := String.toList_append
  have ends : ∀ c ∈ [','].head?, c.isDigit = false := by simp
  rw [ParserText.forall_entries_iff]
  have layout : "15".toList = (toString 15).toList ++ [] := by decide
  refine ⟨ParserText.carries_ofLines 0 unbroken rfl (by simp) (by decide) (by decide) layout (by simp),
    ParserText.carries_ofLines 6 unbroken rfl ?_ (by decide) (by decide) (spelled _) ends,
    ParserText.carries_ofLines 7 unbroken rfl ?_ (by decide) (by decide) (spelled _) ends,
    ParserText.carries_ofLines 8 unbroken rfl ?_ (by decide) (by decide) (spelled _) ends⟩
  -- The fronts of the lines before are known, whatever the numbers behind them are.
  all_goals
    simp only [oneTokenLines, List.take_succ_cons, List.take_zero, List.forall_mem_cons]
    decide

/-- A sign and zeros in front do not count, and a build that goes through leaves the numbers in the parser. -/
theorem versionPart_as_spelled_signed :
    let env : Environment := fun v =>
      if v = .major then some (encode "+000255") else if v = .minor then some (encode "010") else usualEnvironment v
    let disk := oneTokenDisk [] []
    plainToolchain.CarriesVersions ∧ env .major = some (encode "+000255") ∧
      DecidesPart .major "+000255" (versionPart env .major) ∧
      (∃ part, versionPart env .major = .ok part ∧ part.toNat = 255) ∧
      (∃ text, parserText plainToolchain env disk "$M/src/grammar.json" = .ok text ∧
        ParserText.stamps text = [some "15", some "255", some "10", some "1"]) ∧
      CompilerWorks plainToolchain env disk ∧ (run plainToolchain env disk).failure = none ∧
      (BuildReport.ofRun plainToolchain env disk []).stamps = some [some "15", some "255", some "10", some "1"] := by
  intro env disk
  have isText : env .major = some (encode "+000255") := rfl
  have carries : carried env = [some "15", some "255", some "10", some "1"] := by decide +kernel
  have spells : VersionPart.Spells (VersionPart.unsigned "+000255".toList) 255 :=
    ⟨by decide, List.all_eq_true.mp (by decide), by decide, by decide⟩
  have generates : parserText plainToolchain env disk "$M/src/grammar.json" =
      .ok (ParserText.ofLines (oneTokenLines ⟨255, 10, 1⟩)) := by decide +kernel
  have works : CompilerWorks plainToolchain env disk := by
    intro _ out outIs
    obtain rfl : BuildReport.out = out := Except.ok.inj outIs
    decide +kernel
  have goesThrough : (run plainToolchain env disk).failure = none := by decide +kernel
  obtain ⟨decides, generated, built⟩ := versionPart_as_spelled plainToolchain_carriesVersions isText
  rw [carries] at generated built
  exact ⟨plainToolchain_carriesVersions, isText, decides, (decides.spelled 255).mpr spells,
    ⟨_, generates, generated _ _ _ generates⟩, works, goesThrough, built disk [] works goesThrough⟩

end Build

end DocComment
