import DocComment.Build.Report
import DocComment.Proofs.Disk

/-!
# Builds that stop

`Build.failureAt` tells for each step of a build by itself whether it fails, from no more than what that step uses, and
`Build.firstFailure` looks for the first step that does. `Build.Ends` lists how a build can end and what it has printed
and written by then. Only `run_ends` looks into `Build.run`; what a build leaves behind follows end by end. The header,
the parser and the archive go to places with different last names, so writing one of them keeps the others.
-/

namespace DocComment

/-- The steps of a build. -/
inductive BuildStep where
  | manifestDirectory
  | outDirectory
  | readGrammar
  | major
  | minor
  | patch
  | generate
  | grammarName
  | createDirectory
  | writeHeader
  | writeParser
  deriving DecidableEq

namespace BuildStep

/-- The steps that find the directories. -/
def directories : List BuildStep := [.manifestDirectory, .outDirectory]

/-- The steps that make the text of the parser. -/
def texts : List BuildStep := [.readGrammar, .major, .minor, .patch, .generate, .grammarName]

/-- The steps that write. -/
def writes : List BuildStep := [.createDirectory, .writeHeader, .writeParser]

/-- All steps in their order. -/
def inOrder : List BuildStep := directories ++ (texts ++ writes)

end BuildStep

namespace Build

variable {tools : Toolchain} {env : Environment} {disk : Disk} {o : Outcome} {manifest out : String}

/-! ## Which steps fail -/

/-- The failure of what fails. -/
def failure? {α : Type} : Except BuildFailure α → Option BuildFailure
  | .ok _ => none
  | .error f => some f

/-- How a step fails when it has what it uses, whatever may be wrong at other steps. -/
def failureAt (tools : Toolchain) (env : Environment) (disk : Disk) : BuildStep → Option BuildFailure
  | .manifestDirectory => failure? (directory env .manifestDirectory)
  | .outDirectory => failure? (directory env .outDirectory)
  | .readGrammar => do
    let manifest ← (directory env .manifestDirectory).toOption
    failure? (readGrammar disk (grammarPath manifest))
  | .major => failure? (versionPart env .major)
  | .minor => failure? (versionPart env .minor)
  | .patch => failure? (versionPart env .patch)
  | .generate => do
    let manifest ← (directory env .manifestDirectory).toOption
    let grammar ← (readGrammar disk (grammarPath manifest)).toOption
    let version ← (version env).toOption
    failure? ((tools.generate grammar version).mapError (.generation (grammarPath manifest)))
  | .grammarName => do
    let manifest ← (directory env .manifestDirectory).toOption
    let grammar ← (readGrammar disk (grammarPath manifest)).toOption
    let version ← (version env).toOption
    let parser ← (tools.generate grammar version).toOption
    if parser.name = languageName then none else some (.otherName (grammarPath manifest) parser.name)
  | .createDirectory => do
    let out ← (directory env .outDirectory).toOption
    let e ← (disk.makePath (headerDirectory out)).2
    return .directoryNotMade (headerDirectory out) e
  | .writeHeader => do
    let out ← (directory env .outDirectory).toOption
    let made := (disk.makePath (headerDirectory out)).1
    failure? ((made.write (headerPath out) (encode tools.header)).mapError .headerUnwritten)
  | .writeParser => do
    let manifest ← (directory env .manifestDirectory).toOption
    let out ← (directory env .outDirectory).toOption
    let text ← (parserText tools env disk (grammarPath manifest)).toOption
    let made := (disk.makePath (headerDirectory out)).1
    let headed ← (made.write (headerPath out) (encode tools.header)).toOption
    failure? ((headed.write (parserPath out) (encode text)).mapError (.parserUnwritten (parserPath out)))

/-- The first of some steps that fails, with its failure. -/
def firstAmong (tools : Toolchain) (env : Environment) (disk : Disk) (steps : List BuildStep) :
    Option (BuildStep × BuildFailure) :=
  steps.findSome? fun step => (failureAt tools env disk step).map (step, ·)

/-- The first step that fails, with its failure. -/
def firstFailure (tools : Toolchain) (env : Environment) (disk : Disk) : Option (BuildStep × BuildFailure) :=
  firstAmong tools env disk BuildStep.inOrder

theorem firstFailure_eq_none_iff :
    firstFailure tools env disk = none ↔ ∀ step, failureAt tools env disk step = none := by
  rw [firstFailure, firstAmong, List.findSome?_eq_none_iff]
  constructor
  · intro goesOn step
    have isStep : step ∈ BuildStep.inOrder := by cases step <;> decide
    exact Option.map_eq_none_iff.mp (goesOn step isStep)
  · intro goesOn step _
    rw [goesOn step, Option.map_none]

theorem firstFailure_eq_some_iff {step : BuildStep} {f : BuildFailure} :
    firstFailure tools env disk = some (step, f) ↔
      failureAt tools env disk step = some f ∧
        ∃ before after, BuildStep.inOrder = before ++ step :: after ∧
          ∀ earlier ∈ before, failureAt tools env disk earlier = none := by
  rw [firstFailure, firstAmong, List.findSome?_eq_some_iff]
  constructor
  · rintro ⟨before, there, after, order, fails, goesOn⟩
    obtain ⟨g, fails, same⟩ := Option.map_eq_some_iff.mp fails
    cases same
    exact ⟨fails, before, after, order, fun earlier isEarlier => Option.map_eq_none_iff.mp (goesOn earlier isEarlier)⟩
  · rintro ⟨fails, before, after, order, goesOn⟩
    refine ⟨before, step, after, order, by rw [fails, Option.map_some], fun earlier isEarlier => ?_⟩
    rw [goesOn earlier isEarlier, Option.map_none]

/-! ## How a build ends -/

/-- Both directories are known. -/
structure Starts (env : Environment) (manifest out : String) : Prop where
  manifest : directory env .manifestDirectory = .ok manifest
  out : directory env .outDirectory = .ok out

/-- How a build can end: the step at which it fails, if it does, and what it leaves behind. -/
inductive Ends (tools : Toolchain) (env : Environment) (disk : Disk) :
    Option (BuildStep × BuildFailure) → Outcome → Prop where
  | lost {step : BuildStep} {f : BuildFailure} (isDirectory : step ∈ BuildStep.directories)
      (unknown : ∀ manifest out, ¬ Starts env manifest out) :
      Ends tools env disk (some (step, f)) ⟨[], disk, some f⟩
  | textless {manifest out : String} {step : BuildStep} {f : BuildFailure} (starts : Starts env manifest out)
      (isText : step ∈ BuildStep.texts) :
      Ends tools env disk (some (step, f)) ⟨[changeLine (grammarPath manifest)], disk, some f⟩
  | directoryNotMade {manifest out : String} {made : Disk} {e : DiskError} {f : BuildFailure}
      (starts : Starts env manifest out) (stopped : disk.makePath (headerDirectory out) = (made, some e)) :
      Ends tools env disk (some (.createDirectory, f)) ⟨[changeLine (grammarPath manifest)], made, some f⟩
  | headerUnwritten {manifest out : String} {made : Disk} {f : BuildFailure}
      (starts : Starts env manifest out) (makes : disk.makePath (headerDirectory out) = (made, none)) :
      Ends tools env disk (some (.writeHeader, f)) ⟨[changeLine (grammarPath manifest)], made, some f⟩
  | parserUnwritten {manifest out : String} {made headed : Disk} {f : BuildFailure}
      (starts : Starts env manifest out) (makes : disk.makePath (headerDirectory out) = (made, none))
      (heads : made.write (headerPath out) (encode tools.header) = .ok headed) :
      Ends tools env disk (some (.writeParser, f)) ⟨[changeLine (grammarPath manifest)], headed, some f⟩
  | built {manifest out text : String} {made headed parsed : Disk}
      (starts : Starts env manifest out)
      (generates : parserText tools env disk (grammarPath manifest) = .ok text)
      (makes : disk.makePath (headerDirectory out) = (made, none))
      (heads : made.write (headerPath out) (encode tools.header) = .ok headed)
      (parses : headed.write (parserPath out) (encode text) = .ok parsed) :
      Ends tools env disk none
        ⟨changeLine (grammarPath manifest) :: linkLines out, compile tools parsed out text, none⟩

/-! ### The first failure, step after step -/

private theorem toOption_of_ok {ε α : Type} {x : Except ε α} {a : α} (succeeds : x = .ok a) : x.toOption = some a := by
  rw [succeeds]
  rfl

theorem firstAmong_append (front back : List BuildStep) :
    firstAmong tools env disk (front ++ back) =
      (firstAmong tools env disk front).or (firstAmong tools env disk back) := List.findSome?_append

theorem firstAmong_cons_of_none {step : BuildStep} {steps : List BuildStep}
    (goesOn : failureAt tools env disk step = none) :
    firstAmong tools env disk (step :: steps) = firstAmong tools env disk steps := by
  simp [firstAmong, goesOn]

theorem firstAmong_cons_of_some {step : BuildStep} {steps : List BuildStep} {f : BuildFailure}
    (fails : failureAt tools env disk step = some f) :
    firstAmong tools env disk (step :: steps) = some (step, f) := by
  simp [firstAmong, fails]

theorem mem_of_firstAmong {step : BuildStep} {steps : List BuildStep} {f : BuildFailure}
    (first : firstAmong tools env disk steps = some (step, f)) : step ∈ steps := by
  obtain ⟨there, isStep, fails⟩ := List.exists_of_findSome?_eq_some first
  obtain ⟨g, -, same⟩ := Option.map_eq_some_iff.mp fails
  cases same
  exact isStep

/-- What is done after a step fails as that step does, or else as the steps after it. -/
theorem firstAmong_bind {α β : Type} {x : Except BuildFailure α} {next : α → Except BuildFailure β}
    {step : BuildStep} {steps : List BuildStep} (here : failureAt tools env disk step = failure? x)
    (after : ∀ a, x = .ok a → (firstAmong tools env disk steps).map Prod.snd = failure? (next a)) :
    (firstAmong tools env disk (step :: steps)).map Prod.snd = failure? (x >>= next) := by
  cases x with
  | error f =>
    rw [firstAmong_cons_of_some here]
    rfl
  | ok a =>
    rw [firstAmong_cons_of_none here, after a rfl]
    rfl

/-- The text of the parser is missing for the reason of the first step that fails on the way to it. -/
theorem firstAmong_texts (isKnown : directory env .manifestDirectory = .ok manifest) :
    (firstAmong tools env disk BuildStep.texts).map Prod.snd =
      failure? (parserText tools env disk (grammarPath manifest)) := by
  have isIn := toOption_of_ok isKnown
  -- Written out, the checks are bound one behind the other, so each of them takes the next step off the list.
  simp only [parserText, version, bind_assoc, pure_bind]
  refine firstAmong_bind (by simp [failureAt, isIn]) fun grammar readable => ?_
  refine firstAmong_bind rfl fun major hasMajor => ?_
  refine firstAmong_bind rfl fun minor hasMinor => ?_
  refine firstAmong_bind rfl fun patch hasPatch => ?_
  have hasGrammar := toOption_of_ok readable
  have hasVersion : (version env).toOption = some ⟨major, minor, patch⟩ := by
    rw [version, hasMajor, hasMinor, hasPatch]
    rfl
  have generate : failureAt tools env disk .generate =
      failure? ((tools.generate grammar ⟨major, minor, patch⟩).mapError (.generation (grammarPath manifest))) := by
    simp [failureAt, isIn, hasGrammar, hasVersion]
  cases generated : tools.generate grammar ⟨major, minor, patch⟩ with
  | error fault =>
    have fails : failureAt tools env disk .generate = some (.generation (grammarPath manifest) fault) := by
      rw [generate, generated]
      rfl
    rw [firstAmong_cons_of_some fails]
    rfl
  | ok parser =>
    have goesOn : failureAt tools env disk .generate = none := by
      rw [generate, generated]
      rfl
    have hasParser := toOption_of_ok generated
    have named : failureAt tools env disk .grammarName =
        if parser.name = languageName then none else some (.otherName (grammarPath manifest) parser.name) := by
      simp [failureAt, isIn, hasGrammar, hasVersion, hasParser]
    rw [firstAmong_cons_of_none goesOn]
    by_cases isNamed : parser.name = languageName
    · rw [if_pos isNamed] at named
      rw [firstAmong_cons_of_none named]
      simp [firstAmong, failure?, isNamed]
    · rw [if_neg isNamed] at named
      rw [firstAmong_cons_of_some named]
      simp [failure?, isNamed]

/-! ### The whole build -/

section
variable {made headed : Disk} {text : String} (starts : Starts env manifest out)
include starts

theorem failureAt_createDirectory {fault : Option DiskError}
    (makes : disk.makePath (headerDirectory out) = (made, fault)) :
    failureAt tools env disk .createDirectory = fault.map (.directoryNotMade (headerDirectory out)) := by
  have isOut := toOption_of_ok starts.out
  cases fault <;> simp [failureAt, isOut, makes]

theorem failureAt_writeHeader (makes : disk.makePath (headerDirectory out) = (made, none)) :
    failureAt tools env disk .writeHeader =
      failure? ((made.write (headerPath out) (encode tools.header)).mapError .headerUnwritten) := by
  have isOut := toOption_of_ok starts.out
  simp [failureAt, isOut, makes]

theorem failureAt_writeParser (generates : parserText tools env disk (grammarPath manifest) = .ok text)
    (makes : disk.makePath (headerDirectory out) = (made, none))
    (heads : made.write (headerPath out) (encode tools.header) = .ok headed) :
    failureAt tools env disk .writeParser =
      failure? ((headed.write (parserPath out) (encode text)).mapError (.parserUnwritten (parserPath out))) := by
  have isIn := toOption_of_ok starts.manifest
  have isOut := toOption_of_ok starts.out
  have hasText := toOption_of_ok generates
  have isHeaded := toOption_of_ok heads
  simp [failureAt, isIn, isOut, hasText, makes, isHeaded]

/-- What a build does once it has the text of the parser. -/
private theorem ends_of_text (generates : parserText tools env disk (grammarPath manifest) = .ok text) :
    Ends tools env disk (firstAmong tools env disk BuildStep.writes) (run tools env disk) := by
  have stops {left : Disk} {f : BuildFailure} (fails : write tools disk out text = (left, .error f)) :
      run tools env disk = ⟨[changeLine (grammarPath manifest)], left, some f⟩ := by
    simp only [run, starts.manifest, starts.out, generates, fails]
  have goesThrough {left : Disk} (wrote : write tools disk out text = (left, .ok ())) :
      run tools env disk = ⟨changeLine (grammarPath manifest) :: linkLines out, left, none⟩ := by
    simp only [run, starts.manifest, starts.out, generates, wrote, List.cons_append, List.nil_append]
  rw [BuildStep.writes]
  cases makes : disk.makePath (headerDirectory out) with
  | mk made fault =>
    have creating : failureAt tools env disk .createDirectory = fault.map _ := failureAt_createDirectory starts makes
    cases fault with
    | some e =>
      rw [firstAmong_cons_of_some creating, stops (by simp only [write, makes]; rfl)]
      exact .directoryNotMade starts makes
    | none =>
      rw [firstAmong_cons_of_none creating]
      have heading : failureAt tools env disk .writeHeader = failure? _ := failureAt_writeHeader starts makes
      cases heads : made.write (headerPath out) (encode tools.header) with
      | error e =>
        rw [heads] at heading
        rw [firstAmong_cons_of_some heading, stops (by simp only [write, makes, heads]; rfl)]
        exact .headerUnwritten starts makes
      | ok headed =>
        rw [heads] at heading
        rw [firstAmong_cons_of_none heading]
        have parsing : failureAt tools env disk .writeParser = failure? _ :=
          failureAt_writeParser starts generates makes heads
        cases parses : headed.write (parserPath out) (encode text) with
        | error e =>
          rw [parses] at parsing
          rw [firstAmong_cons_of_some parsing, stops (by simp only [write, makes, heads, parses]; rfl)]
          exact .parserUnwritten starts makes heads
        | ok parsed =>
          rw [parses] at parsing
          rw [firstAmong_cons_of_none parsing, goesThrough (by simp only [write, makes, heads, parses]; rfl)]
          exact .built starts generates makes heads parses

end

theorem run_ends (tools : Toolchain) (env : Environment) (disk : Disk) :
    Ends tools env disk (firstFailure tools env disk) (run tools env disk) := by
  rw [firstFailure, BuildStep.inOrder, BuildStep.directories, List.cons_append, List.cons_append, List.nil_append]
  cases manifestIs : directory env .manifestDirectory with
  | error f =>
    have stops : run tools env disk = ⟨[], disk, some f⟩ := by rw [run, manifestIs]
    rw [firstAmong_cons_of_some (by rw [failureAt, manifestIs, failure?]), stops]
    refine .lost (by simp [BuildStep.directories]) fun manifest out starts => ?_
    simpa [manifestIs] using starts.manifest
  | ok manifest =>
    rw [firstAmong_cons_of_none (by rw [failureAt, manifestIs, failure?])]
    cases outIs : directory env .outDirectory with
    | error f =>
      have stops : run tools env disk = ⟨[], disk, some f⟩ := by rw [run, manifestIs, outIs]
      rw [firstAmong_cons_of_some (by rw [failureAt, outIs, failure?]), stops]
      refine .lost (by simp [BuildStep.directories]) fun manifest out starts => ?_
      simpa [outIs] using starts.out
    | ok out =>
      have starts : Starts env manifest out := ⟨manifestIs, outIs⟩
      rw [firstAmong_cons_of_none (by rw [failureAt, outIs, failure?]), firstAmong_append]
      have texts : (firstAmong tools env disk BuildStep.texts).map Prod.snd =
          failure? (parserText tools env disk (grammarPath manifest)) := firstAmong_texts manifestIs
      cases generates : parserText tools env disk (grammarPath manifest) with
      | error f =>
        have stops : run tools env disk = ⟨[changeLine (grammarPath manifest)], disk, some f⟩ := by
          simp only [run, manifestIs, outIs, generates]
        rw [generates] at texts
        obtain ⟨⟨step, g⟩, first, rfl⟩ := Option.map_eq_some_iff.mp texts
        rw [first, Option.some_or, stops]
        exact .textless starts (mem_of_firstAmong first)
      | ok text =>
        rw [generates] at texts
        rw [Option.map_eq_none_iff.mp texts, Option.none_or]
        exact ends_of_text starts generates

/-! ## What a build leaves behind -/

/-- A compiler works if it has a place for the archive, should the build get so far. -/
def CompilerWorks (tools : Toolchain) (env : Environment) (disk : Disk) : Prop :=
  firstFailure tools env disk = none → ∀ out, directory env .outDirectory = .ok out →
    (disk.makePath (headerDirectory out)).1.HasPlace (archivePath out)

variable {first : Option (BuildStep × BuildFailure)}

/-! ### Lines -/

private theorem changeLine_seventh (path : String) : (changeLine path).toList[7]? = some 'e' := by
  have split : (changeLine path).toList = "cargo:rerun-if-changed=".toList ++ path.toList := String.toList_append
  rw [split, List.getElem?_append_left (by decide)]
  decide

/-- The line about changes is not one that tells what to link. -/
private theorem not_linked (path out : String) : ¬ ∀ line ∈ linkLines out, line ∈ [changeLine path] := by
  intro isPrinted
  have same : "cargo:rustc-link-lib=static=tree-sitter-roxygen2" = changeLine path :=
    List.mem_singleton.mp (isPrinted _ (List.mem_cons_self ..))
  have seventh : "cargo:rustc-link-lib=static=tree-sitter-roxygen2".toList[7]? = some 'e' :=
    (congrArg (fun line : String => line.toList[7]?) same).trans (changeLine_seventh path)
  revert seventh
  decide

theorem Starts.same {manifest' out' : String} (starts : Starts env manifest out) (starts' : Starts env manifest' out') :
    manifest = manifest' ∧ out = out' :=
  ⟨Except.ok.inj (starts.manifest.symm.trans starts'.manifest), Except.ok.inj (starts.out.symm.trans starts'.out)⟩

theorem Ends.failure_eq (ends : Ends tools env disk first o) : o.failure = first.map Prod.snd := by
  cases ends <;> rfl

theorem Ends.printed (ends : Ends tools env disk first o) (starts : Starts env manifest out) :
    o.printed = changeLine (grammarPath manifest) :: if first.isNone then linkLines out else [] := by
  cases ends with
  | lost _ unknown => exact absurd starts (unknown manifest out)
  | textless starts' => obtain ⟨rfl, rfl⟩ := starts.same starts'; rfl
  | directoryNotMade starts' => obtain ⟨rfl, rfl⟩ := starts.same starts'; rfl
  | headerUnwritten starts' => obtain ⟨rfl, rfl⟩ := starts.same starts'; rfl
  | parserUnwritten starts' => obtain ⟨rfl, rfl⟩ := starts.same starts'; rfl
  | built starts' =>
    obtain ⟨rfl, rfl⟩ := starts.same starts'
    rw [Option.isNone_none, if_pos rfl]

/-! ### The disk -/

theorem isName_header : Path.IsName "parser.h" := ⟨by decide, by decide, by decide⟩

theorem isName_text : Path.IsName "parser.c" := ⟨by decide, by decide, by decide⟩

theorem isName_archive : Path.IsName archiveName := ⟨by decide, by decide, by decide⟩

private theorem header_apart_text (out : String) : Disk.Apart (headerPath out) (parserPath out) :=
  Disk.apart_join isName_header (by decide) isName_text (by decide) (by decide) _ _

private theorem archive_apart_header (out out' : String) : Disk.Apart (archivePath out) (headerPath out') :=
  Disk.apart_join isName_archive (by decide) isName_header (by decide) (by decide) _ _

private theorem archive_apart_text (out : String) : Disk.Apart (archivePath out) (parserPath out) :=
  Disk.apart_join isName_archive (by decide) isName_text (by decide) (by decide) _ _

theorem parserText_eq_ok_iff {path text : String} :
    parserText tools env disk path = .ok text ↔ ∃ grammar v, readGrammar disk path = .ok grammar ∧
      version env = .ok v ∧ tools.generate grammar v = .ok ⟨languageName, text⟩ := by
  rw [parserText]
  cases readGrammar disk path with
  | error f => simp [bind, Except.bind]
  | ok grammar =>
    cases version env with
    | error f => simp [bind, Except.bind]
    | ok v =>
      cases generated : tools.generate grammar v with
      | error fault => simp [bind, Except.bind, generated]
      | ok parser =>
        obtain ⟨name, parserText⟩ := parser
        by_cases isNamed : name = languageName
        · simp [bind, Except.bind, generated, isNamed]
        · simp [bind, Except.bind, generated, isNamed]

theorem Ends.untouched {step : BuildStep} {f : BuildFailure} (ends : Ends tools env disk (some (step, f)) o)
    (isEarly : step ∈ BuildStep.directories ++ BuildStep.texts) : o.disk = disk := by
  cases ends with
  | lost => rfl
  | textless => rfl
  | directoryNotMade => exact absurd isEarly (by decide)
  | headerUnwritten => exact absurd isEarly (by decide)
  | parserUnwritten => exact absurd isEarly (by decide)

/-- Until the header is written, a build only makes directories. -/
theorem Ends.made {step : BuildStep} {f : BuildFailure} (ends : Ends tools env disk (some (step, f)) o)
    (isMaking : step = .createDirectory ∨ step = .writeHeader) :
    ∃ manifest out, Starts env manifest out ∧ o.disk = (disk.makePath (headerDirectory out)).1 := by
  cases ends with
  | lost isDirectory => rcases isMaking with rfl | rfl <;> exact absurd isDirectory (by decide)
  | textless _ isText => rcases isMaking with rfl | rfl <;> exact absurd isText (by decide)
  | directoryNotMade starts stopped => exact ⟨_, _, starts, by rw [stopped]⟩
  | headerUnwritten starts makes => exact ⟨_, _, starts, by rw [makes]⟩
  | parserUnwritten => simp at isMaking

theorem compile_eq_write {text : String} (hasPlace : disk.HasPlace (archivePath out)) :
    disk.write (archivePath out) (tools.compile text) = .ok (compile tools disk out text) := by
  obtain ⟨here, leads, free⟩ := hasPlace
  exact Disk.write_eq_ok_iff.mpr ⟨here, leads, free, by rw [compile, leads]⟩

/-- The header, the parser and the archive go to different places, so each is there in the end. -/
private theorem compile_reads {made headed parsed : Disk} {text : String}
    (heads : made.write (headerPath out) (encode tools.header) = .ok headed)
    (parses : headed.write (parserPath out) (encode text) = .ok parsed) (hasPlace : made.HasPlace (archivePath out)) :
    (compile tools parsed out text).read (parserPath out) = .ok (encode text) ∧
      (compile tools parsed out text).read (headerPath out) = .ok (encode tools.header) ∧
      (compile tools parsed out text).read (archivePath out) = .ok (tools.compile text) := by
  have compiles : parsed.write (archivePath out) (tools.compile text) = .ok (compile tools parsed out text) :=
    compile_eq_write (Disk.hasPlace_of_write parses (archive_apart_text out)
      (Disk.hasPlace_of_write heads (archive_apart_header out out) hasPlace))
  have hasHeader : parsed.read (headerPath out) = .ok (encode tools.header) :=
    Disk.read_of_write_apart parses (header_apart_text out) (Disk.read_of_write heads)
  refine ⟨?_, ?_, Disk.read_of_write compiles⟩
  · exact Disk.read_of_write_apart compiles (archive_apart_text out).symm (Disk.read_of_write parses)
  · exact Disk.read_of_write_apart compiles (archive_apart_header out out).symm hasHeader

/-- A build that goes through leaves the header, the parser and its archive. -/
theorem Ends.written (ends : Ends tools env disk none o)
    (works : ∀ out, directory env .outDirectory = .ok out →
      (disk.makePath (headerDirectory out)).1.HasPlace (archivePath out)) :
    ∃ manifest out grammar v text, Starts env manifest out ∧ readGrammar disk (grammarPath manifest) = .ok grammar ∧
      version env = .ok v ∧ tools.generate grammar v = .ok ⟨languageName, text⟩ ∧
      o.disk.read (parserPath out) = .ok (encode text) ∧ o.disk.read (headerPath out) = .ok (encode tools.header) ∧
      o.disk.read (archivePath out) = .ok (tools.compile text) := by
  cases ends with
  | @built manifest out text made headed parsed starts generates makes heads parses =>
    obtain ⟨grammar, v, readable, hasVersion, generated⟩ := parserText_eq_ok_iff.mp generates
    have hasPlace : made.HasPlace (archivePath out) := by simpa [makes] using works out starts.out
    exact ⟨manifest, out, grammar, v, text, starts, readable, hasVersion, generated,
      compile_reads heads parses hasPlace⟩

theorem Ends.linked (ends : Ends tools env disk first o) (outIs : directory env .outDirectory = .ok out)
    (works : first = none → ∀ out, directory env .outDirectory = .ok out →
      (disk.makePath (headerDirectory out)).1.HasPlace (archivePath out)) :
    (∀ line ∈ linkLines out, line ∈ o.printed) ∧ (∃ bytes, o.disk.read (archivePath out) = .ok bytes) ↔
      first = none := by
  constructor
  · rintro ⟨isPrinted, -⟩
    cases ends with
    | lost => exact absurd (isPrinted _ (List.mem_cons_self ..)) List.not_mem_nil
    | textless => exact absurd isPrinted (not_linked _ out)
    | directoryNotMade => exact absurd isPrinted (not_linked _ out)
    | headerUnwritten => exact absurd isPrinted (not_linked _ out)
    | parserUnwritten => exact absurd isPrinted (not_linked _ out)
    | built => rfl
  · rintro rfl
    obtain ⟨manifest, out', -, -, text, starts, -, -, -, -, -, hasArchive⟩ := ends.written (works rfl)
    obtain rfl := Except.ok.inj (outIs.symm.trans starts.out)
    refine ⟨?_, tools.compile text, hasArchive⟩
    rw [ends.printed starts, Option.isNone_none, if_pos rfl]
    exact fun line => List.mem_cons_of_mem _

/-- An environment in which every variable has a value that will do. -/
def usualEnvironment : Environment
  | .manifestDirectory => some (encode BuildReport.manifest)
  | .outDirectory => some (encode BuildReport.out)
  | _ => some (encode "1")

/-- A grammar with one token, which reads like the mark of a version. -/
def oneTokenGrammar : String :=
  "\x7b\"name\":\"roxygen2\",\"rules\":\x7b\"document\":\x7b\"type\":\"STRING\",\"value\":\".major_version = 9\"\x7d\x7d\x7d"

/-- Lines of the text of its parser: those that tell the version, and those with the names of symbols. -/
def oneTokenLines (v : Version) : List (String × String) :=
  [("#define LANGUAGE_VERSION ", "15"), ("static const char * const ts_symbol_names[] = \x7b", ""),
    ("  [ts_builtin_sym_end] = \"end\",", ""), ("  [anon_sym_1] = \".major_version = 9\",", ""), ("\x7d;", ""),
    ("    .metadata = \x7b", ""), ("      .major_version = ", toString v.major.toNat ++ ","),
    ("      .minor_version = ", toString v.minor.toNat ++ ","),
    ("      .patch_version = ", toString v.patch.toNat ++ ","), ("    \x7d,", "")]

/-- A toolchain for that grammar. -/
def plainToolchain : Toolchain where
  generate _ v := .ok ⟨languageName, ParserText.ofLines (oneTokenLines v)⟩
  header := "typedef struct TSLanguage TSLanguage;\n"
  compile := encode

/-- The disk before a build of that grammar among other directories and files. -/
def oneTokenDisk (directories files : List String) : Disk :=
  BuildReport.disk (some (.file (encode oneTokenGrammar))) directories files

end Build

end DocComment
