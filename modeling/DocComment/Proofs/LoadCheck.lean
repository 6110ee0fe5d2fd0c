import DocComment.Language

/-!
# What the load check decides

The load check ends in one of four ways, which the loader tells (`Loader.Ends`). So it finds exactly the languages that
can be used, calls the loader no more often than it needs to, and leaves one record (`load_decides_usability`). A parser
refuses no language that the check has found, for both ask for the same versions.
-/

namespace DocComment

namespace Language

/-- The language has no node kinds: its symbols and aliases come to nothing in 32 bits. -/
def HasNoKinds (l : Language) : Prop := (l.symbols.toNat + l.aliases.toNat) % 4294967296 = 0

/-- The layout version is one from 13 to 15. -/
def IsCurrent (l : Language) : Prop := 13 ≤ l.abi.toNat ∧ l.abi.toNat ≤ 15

theorem nodeKinds_eq_zero_iff (l : Language) : l.nodeKinds = 0 ↔ l.HasNoKinds := by
  rw [← UInt32.toNat_inj, nodeKinds, UInt32.toNat_add]
  rfl

theorem isSupported_iff (l : Language) : l.isSupported = true ↔ l.IsCurrent := by
  simp [isSupported, IsCurrent, oldest, newest, UInt32.le_iff_toNat_le]

theorem isRefused_iff (l : Language) : l.isRefused = true ↔ ¬ l.IsCurrent := by
  simp [isRefused, IsCurrent, oldest, newest, UInt32.lt_iff_toNat_lt]
  omega

theorem bind_eq_ok_iff (l found : Language) : l.bind = .ok found ↔ l.IsCurrent ∧ l = found := by
  by_cases current : l.IsCurrent
  · have taken : l.isRefused = false := by simp [← Bool.not_eq_true, isRefused_iff, current]
    simp [Language.bind, taken, current]
  · simp [Language.bind, (isRefused_iff l).mpr current, current]

end Language

/-! ## Running a check -/

namespace LoadCheck

section
variable {α : Type} (t : Trace)

@[simp] theorem run_call : call.run.run t = (.ok t.calls, { t with calls := t.calls + 1 }) := rfl

@[simp] theorem run_log (r : Record) : (log r).run.run t = (.ok (), { t with log := t.log ++ [r] }) := rfl

@[simp] theorem run_fail (warning : String) (e : LoadError) :
    (fail warning e : LoadCheck α).run.run t = (.error e, { t with log := t.log ++ [⟨.warn, warning⟩] }) := rfl

end

theorem run_bind {α β : Type} (first : LoadCheck α) (next : α → LoadCheck β) (t : Trace) :
    (first >>= next).run.run t =
      match first.run.run t with
      | (.ok found, behind) => (next found).run.run behind
      | (.error e, behind) => (.error e, behind) := by
  rw [ExceptT.run_bind, StateT.run_bind]
  rcases first.run.run t with ⟨_ | found, behind⟩
  · rfl
  · rfl

/-- Binding a parser to what a check finds changes the result alone. -/
theorem outcome_bind (check : LoadCheck Language) (bind : Language → Except LoadError Language) :
    (do let l ← check; liftExcept (bind l) : LoadCheck Language).outcome =
      { check.outcome with result := check.outcome.result.bind bind } := by
  simp only [outcome, run_bind]
  cases check.run.run ⟨0, []⟩ with
  | mk result t =>
    cases result with
    | error e => rfl
    | ok l =>
      simp only [Except.bind]
      cases bind l <;> rfl

end LoadCheck

/-! ## How it ends -/

namespace Loader

/-- The ways in which the load check ends, each with its one record and the calls it made. -/
inductive Ends : Loader → Checked → Prop
  /-- The first call returned nothing. -/
  | null (warning : String) : Ends .null ⟨.error .grammarLoad, [⟨.warn, warning⟩], 1⟩
  /-- The language of the second call has no node kinds, and its version does not matter. -/
  | empty (warning : String) {nth : Nat → Language} (noKinds : (nth 1).HasNoKinds) :
      Ends (.languages nth) ⟨.error .grammarLoad, [⟨.warn, warning⟩], 2⟩
  /-- It has node kinds, in a version that the runtime does not support. -/
  | unsupported (warning : String) {nth : Nat → Language} (kinds : ¬ (nth 1).HasNoKinds)
      (other : ¬ (nth 1).IsCurrent) :
      Ends (.languages nth) ⟨.error (.incompatibleVersion (nth 1).abi), [⟨.warn, warning⟩], 2⟩
  /-- It can be used. -/
  | loaded (text : String) {nth : Nat → Language} (kinds : ¬ (nth 1).HasNoKinds) (current : (nth 1).IsCurrent) :
      Ends (.languages nth) ⟨.ok (nth 1), [⟨.debug, text⟩], 2⟩

theorem ends_load (loader : Loader) : Ends loader loader.load := by
  cases loader with
  | null => exact .null _
  | languages nth =>
    simp only [load, check, LoadCheck.outcome, LoadCheck.run_bind, LoadCheck.run_call]
    -- Node kinds are looked at before the version, so a language without any ends there in every version.
    by_cases noKinds : (nth 1).HasNoKinds
    · rw [if_pos ((Language.nodeKinds_eq_zero_iff _).mpr noKinds), LoadCheck.run_fail]
      exact .empty _ noKinds
    · rw [if_neg (noKinds ∘ (Language.nodeKinds_eq_zero_iff _).mp)]
      by_cases current : (nth 1).IsCurrent
      · rw [if_pos ((Language.isSupported_iff _).mpr current), LoadCheck.run_bind, LoadCheck.run_log]
        exact .loaded _ noKinds current
      · rw [if_neg (current ∘ (Language.isSupported_iff _).mp), LoadCheck.run_fail]
        exact .unsupported _ noKinds current

theorem Ends.result_ne_language {loader : Loader} {c : Checked} (ends : Ends loader c) (version : UInt32) :
    c.result ≠ .error (.language version) := by
  cases ends <;> simp

theorem Ends.bind_eq {loader : Loader} {c : Checked} (ends : Ends loader c) : c.result.bind Language.bind = c.result := by
  cases ends with
  | null | empty | unsupported => rfl
  | loaded _ _ current => exact (Language.bind_eq_ok_iff _ _).mpr ⟨current, rfl⟩

theorem loadParser_eq_load (loader : Loader) : loader.loadParser = loader.load := by
  -- Binding neither calls nor logs, and what the check found is bound as it is.
  rw [loadParser, LoadCheck.outcome_bind]
  have same := (ends_load loader).bind_eq
  rw [load] at same ⊢
  rw [same]

end Loader

/-! ## What it decides -/

private theorem starts_of_append {start text : String} (rest : String) (split : start ++ rest = text) :
    start.toList <+: text.toList := by
  rw [← split, String.toList_append]
  exact List.prefix_append _ _

theorem LoadError.message_starts (e : LoadError) :
    "Error loading roxygen2 grammar".toList <+: e.message.toList := by
  cases e with
  | grammarLoad => exact List.prefix_refl _
  | incompatibleVersion version =>
    refine starts_of_append (": ABI version " ++ (toString version ++ " is not supported by this runtime")) ?_
    rw [← String.append_assoc, ← String.append_assoc]
    rfl
  | language version =>
    refine starts_of_append (": " ++ LoadError.refusal version) ?_
    rw [← String.append_assoc]
    rfl

namespace Loader

/-- What a check of the loader has to decide. -/
structure Decides (loader : Loader) (c : Checked) : Prop where
  /-- It finds the language of the second call, if that has node kinds and a supported version. -/
  found : ∀ l, c.result = .ok l ↔ ∃ nth, loader = .languages nth ∧ nth 1 = l ∧ ¬ l.HasNoKinds ∧ l.IsCurrent
  /-- It says that there is none where the loader returns nothing, or a language without node kinds. -/
  missing : c.result = .error .grammarLoad ↔ loader = .null ∨ ∃ nth, loader = .languages nth ∧ (nth 1).HasNoKinds
  /-- It names the version that is not supported. -/
  unsupported : ∀ version, c.result = .error (.incompatibleVersion version) ↔
    ∃ nth, loader = .languages nth ∧ (nth 1).abi = version ∧ ¬ (nth 1).HasNoKinds ∧ ¬ (nth 1).IsCurrent
  /-- It calls the loader once more where the first call returned a language. -/
  calls : c.calls = match loader with | .null => 1 | .languages _ => 2
  /-- It leaves one record, a warning exactly where it fails. -/
  record : c.log.map Record.level = [if c.result.isOk then .debug else .warn]

theorem Ends.decides {loader : Loader} {c : Checked} (ends : Ends loader c) : Decides loader c := by
  cases ends with
  | null => constructor <;> simp [Except.isOk, Except.toBool]
  | empty _ noKinds => constructor <;> simp [noKinds, Except.isOk, Except.toBool]
  | unsupported _ kinds other => constructor <;> simp [kinds, other, Except.isOk, Except.toBool]
  | loaded _ kinds current => constructor <;> simp [kinds, current, Except.isOk, Except.toBool]

/-- The load check decides which languages can be used. A parser refuses none of them, so that loading one for a parser
comes to the same and never fails with the parser's error; and every error starts with the same words. -/
theorem load_decides_usability (loader : Loader) :
    Decides loader loader.load ∧
    (∀ l, loader.load.result = .ok l → l.bind = .ok l) ∧
    loader.loadParser = loader.load ∧
    (∀ version, loader.loadParser.result ≠ .error (.language version)) ∧
    ∀ e : LoadError, "Error loading roxygen2 grammar".toList <+: e.message.toList := by
  have ends := ends_load loader
  have same := loadParser_eq_load loader
  refine ⟨ends.decides, fun l found => ?_, same, fun version => ?_, LoadError.message_starts⟩
  · obtain ⟨-, -, -, -, current⟩ := (ends.decides.found l).mp found
    exact (Language.bind_eq_ok_iff l l).mpr ⟨current, rfl⟩
  · rw [same]
    exact ends.result_ne_language version

end Loader

end DocComment
