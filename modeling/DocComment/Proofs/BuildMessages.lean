import DocComment.Proofs.BuildSteps

/-!
# Messages of builds that stop

The messages of a step begin alike (`opening_of_failureAt`), and in another way than those of other steps. Only what is
said of a header that is not written begins like what is said of a parser that is not written, at a path that may be any;
but what follows tells them apart. So a message tells the step at which a build stopped (`step_eq_of_message`), unless the
generator gave up: what it says then is its own.
-/

namespace DocComment

/-- What the messages of a step begin with. -/
def BuildStep.opening : BuildStep → String
  | .manifestDirectory => BuildVariable.manifestDirectory.name
  | .outDirectory => BuildVariable.outDirectory.name
  | .readGrammar => "failed to read "
  | .major => BuildVariable.major.name
  | .minor => BuildVariable.minor.name
  | .patch => BuildVariable.patch.name
  | .generate => "failed to generate parser from "
  | .grammarName => "assertion \x60left == right\x60 failed: unexpected grammar name in "
  | .createDirectory => "failed to create "
  | .writeHeader => "failed to write parser.h: "
  | .writeParser => "failed to write "

/-- One opening begins another only if they are those of the steps that write the parser and its header. -/
theorem BuildStep.eq_of_openings {step other : BuildStep} (isPrefix : step.opening.toList <+: other.opening.toList) :
    step = other ∨ step = .writeParser ∧ other = .writeHeader := by
  have apart : ∀ step ∈ inOrder, ∀ other ∈ inOrder, step.opening.toList <+: other.opening.toList →
      step = other ∨ step = .writeParser ∧ other = .writeHeader := by decide +kernel
  exact apart step (by cases step <;> decide) other (by cases other <;> decide) isPrefix

namespace Build

variable {tools tools' : Toolchain} {env env' : Environment} {disk disk' : Disk} {f g : BuildFailure}

/-! ## What fails at a step -/

theorem failure?_eq_some_iff {α : Type} {x : Except BuildFailure α} : failure? x = some f ↔ x = .error f := by
  cases x <;> simp [failure?]

theorem exists_of_mapError {ε α : Type} {x : Except ε α} {name : ε → BuildFailure}
    (fails : x.mapError name = .error f) : ∃ e, f = name e := by
  cases x with
  | ok a => cases fails
  | error e => exact ⟨e, (Except.error.inj fails).symm⟩

theorem exists_of_directory {v : BuildVariable} (fails : directory env v = .error f) : ∃ fault, f = .directory v fault := by
  rw [directory] at fails
  exact exists_of_mapError fails

theorem exists_of_versionPart {v : BuildVariable} (fails : versionPart env v = .error f) :
    (∃ fault, f = .version v fault) ∨ ∃ value fault, f = .versionPart v value fault := by
  rw [versionPart] at fails
  cases isText : env.text v with
  | error fault =>
    rw [isText] at fails
    exact .inl ⟨fault, (Except.error.inj fails).symm⟩
  | ok value =>
    simp only [isText] at fails
    exact .inr ⟨value, exists_of_mapError fails⟩

theorem exists_of_readGrammar {path : String} (fails : readGrammar disk path = .error f) :
    (∃ e, f = .grammarUnread path e) ∨ f = .grammarGarbled path := by
  rw [readGrammar] at fails
  cases isRead : disk.read path with
  | error e =>
    rw [isRead] at fails
    exact .inl ⟨e, (Except.error.inj fails).symm⟩
  | ok bytes =>
    simp only [isRead] at fails
    cases isText : Glyph.text? (Glyph.decode bytes) with
    | none =>
      rw [isText] at fails
      exact .inr (Except.error.inj fails).symm
    | some text => simp [isText] at fails

/-- The writing of the parser fails at the path of the parser. -/
theorem exists_of_writeParser (fails : failureAt tools env disk .writeParser = some f) :
    ∃ out e, f = .parserUnwritten (parserPath out) e := by
  simp only [failureAt, Option.bind_eq_bind, Option.bind_eq_some_iff] at fails
  obtain ⟨_, _, out, _, _, _, _, _, fails⟩ := fails
  exact ⟨out, exists_of_mapError (failure?_eq_some_iff.mp fails)⟩

theorem exists_of_writeHeader (fails : failureAt tools env disk .writeHeader = some f) : ∃ e, f = .headerUnwritten e := by
  simp only [failureAt, Option.bind_eq_bind, Option.bind_eq_some_iff] at fails
  obtain ⟨_, _, fails⟩ := fails
  exact exists_of_mapError (failure?_eq_some_iff.mp fails)

/-! ## What messages say -/

/-- The generator gave up, and what is said is its own. -/
def GaveUp (f : BuildFailure) : Prop := ∃ path text, f = .generation path (.gaveUp text)

/-- A text begins with what others were put behind. -/
theorem prefix_foldl_append (front : String) (rest : List String) :
    front.toList <+: (rest.foldl (· ++ ·) front).toList := by
  induction rest generalizing front with
  | nil => exact List.prefix_rfl
  | cons next rest ih =>
    have here : front.toList <+: (front ++ next).toList := ⟨next.toList, String.toList_append.symm⟩
    exact here.trans (ih (front ++ next))

theorem name_of_directory (v : BuildVariable) (fault : VariableFault) :
    v.name.toList <+: (BuildFailure.directory v fault).message.toList := by
  cases fault with
  | unset => exact prefix_foldl_append _ [_]
  | garbled bytes => exact prefix_foldl_append _ [_, _, _]

theorem name_of_versionPart {v : BuildVariable} (fails : versionPart env v = .error f) :
    v.name.toList <+: f.message.toList := by
  obtain ⟨fault, rfl⟩ | ⟨value, fault, rfl⟩ := exists_of_versionPart fails
  · cases fault with
    | unset => exact prefix_foldl_append _ [_]
    | garbled bytes => exact prefix_foldl_append _ [_, _]
  · exact prefix_foldl_append _ [_, _, _, _]

theorem opening_of_failureAt {step : BuildStep} (fails : failureAt tools env disk step = some f) (own : ¬ GaveUp f) :
    step.opening.toList <+: f.message.toList := by
  cases step with
  | manifestDirectory =>
    obtain ⟨fault, rfl⟩ := exists_of_directory (failure?_eq_some_iff.mp fails)
    exact name_of_directory .manifestDirectory fault
  | outDirectory =>
    obtain ⟨fault, rfl⟩ := exists_of_directory (failure?_eq_some_iff.mp fails)
    exact name_of_directory .outDirectory fault
  | readGrammar =>
    simp only [failureAt, Option.bind_eq_bind, Option.bind_eq_some_iff] at fails
    obtain ⟨manifest, _, fails⟩ := fails
    obtain ⟨e, rfl⟩ | rfl := exists_of_readGrammar (failure?_eq_some_iff.mp fails)
    · exact prefix_foldl_append _ [_, _, _]
    · exact prefix_foldl_append _ [_, _]
  | major => exact name_of_versionPart (failure?_eq_some_iff.mp fails)
  | minor => exact name_of_versionPart (failure?_eq_some_iff.mp fails)
  | patch => exact name_of_versionPart (failure?_eq_some_iff.mp fails)
  | generate =>
    simp only [failureAt, Option.bind_eq_bind, Option.bind_eq_some_iff] at fails
    obtain ⟨manifest, _, _, _, _, _, fails⟩ := fails
    obtain ⟨fault, rfl⟩ := exists_of_mapError (failure?_eq_some_iff.mp fails)
    cases fault with
    | refused reason => exact prefix_foldl_append _ [_, _, _]
    | gaveUp text => exact absurd ⟨_, _, rfl⟩ own
  | grammarName =>
    simp only [failureAt, Option.bind_eq_bind, Option.bind_eq_some_iff] at fails
    obtain ⟨manifest, _, _, _, _, _, parser, _, fails⟩ := fails
    split at fails
    · cases fails
    · obtain rfl := Option.some.inj fails
      exact prefix_foldl_append _ [_, _, _, _, _]
  | createDirectory =>
    simp only [failureAt, Option.bind_eq_bind, Option.bind_eq_some_iff] at fails
    obtain ⟨out, _, e, _, fails⟩ := fails
    obtain rfl := Option.some.inj fails
    exact prefix_foldl_append _ [_, _, _]
  | writeHeader =>
    obtain ⟨e, rfl⟩ := exists_of_writeHeader fails
    exact prefix_foldl_append _ [_]
  | writeParser =>
    obtain ⟨out, e, rfl⟩ := exists_of_writeParser fails
    exact prefix_foldl_append _ [_, _, _]

/-- What is said of the header does not end like what is said of the parser. -/
theorem header_message_ne_parser_message (out : String) (e e' : DiskError) :
    (BuildFailure.headerUnwritten e).message ≠ (BuildFailure.parserUnwritten (parserPath out) e').message := by
  intro same
  let errors : List DiskError := [.notFound, .fileExists, .notDirectory, .isDirectory, .nameTooLong]
  obtain ⟨front, joins⟩ := Path.exists_join out
  have ends : ("parser.c" ++ ": " ++ e'.message).toList <:+ ("failed to write parser.h: " ++ e.message).toList := by
    refine ⟨("failed to write " ++ front).toList, ?_⟩
    calc
      _ = ("failed to write " ++ (front ++ "parser.c") ++ ": " ++ e'.message).toList := by
        rw [← String.toList_append, ← String.append_assoc, ← String.append_assoc, ← String.append_assoc]
      _ = _ := by
        rw [← joins "parser.c"]
        exact (congrArg String.toList same).symm
  have apart : ∀ e ∈ errors, ∀ e' ∈ errors,
      ¬ ("parser.c" ++ ": " ++ e'.message).toList <:+ ("failed to write parser.h: " ++ e.message).toList := by
    decide +kernel
  exact apart e (by cases e <;> decide) e' (by cases e' <;> decide) ends

/-- The message of a failure tells the step, unless it is the generator's own. -/
theorem step_eq_of_message {step step' : BuildStep} (fails : failureAt tools env disk step = some f)
    (fails' : failureAt tools' env' disk' step' = some g) (own : ¬ GaveUp f) (own' : ¬ GaveUp g)
    (same : f.message = g.message) : step = step' := by
  have begins := opening_of_failureAt fails own
  have begins' := opening_of_failureAt fails' own'
  rw [same] at begins
  rcases List.prefix_or_prefix_of_prefix begins begins' with isPrefix | isPrefix
  · rcases BuildStep.eq_of_openings isPrefix with isSame | ⟨rfl, rfl⟩
    · exact isSame
    · obtain ⟨out, e, rfl⟩ := exists_of_writeParser fails
      obtain ⟨e', rfl⟩ := exists_of_writeHeader fails'
      exact absurd same.symm (header_message_ne_parser_message out e' e)
  · rcases BuildStep.eq_of_openings isPrefix with isSame | ⟨rfl, rfl⟩
    · exact isSame.symm
    · obtain ⟨e, rfl⟩ := exists_of_writeHeader fails
      obtain ⟨out, e', rfl⟩ := exists_of_writeParser fails'
      exact absurd same (header_message_ne_parser_message out e e')

end Build

end DocComment
