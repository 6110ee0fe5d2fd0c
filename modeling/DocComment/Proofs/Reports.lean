import DocComment.Proofs.VersionParts

/-!
# Reports of builds

A report shows nothing of the texts that a toolchain makes but the versions that parsers carry. Two toolchains that judge
grammars alike run through the same steps, and leave disks that differ in the bytes of files only (`write_resembles`). So
they give the same reports (`ofRun_eq`), and what stands in for a toolchain gives the reports of every toolchain that
judges grammars as it does (`ofRun_eq_ofBuild`).
-/

namespace DocComment

/-- Two verdicts on a grammar are the same, whatever texts come with them. -/
inductive SameVerdict : Except GenerationFault GeneratedParser → Except GenerationFault GeneratedParser → Prop where
  | generated (name text text' : String) : SameVerdict (.ok ⟨name, text⟩) (.ok ⟨name, text'⟩)
  | refused (reason reason' : String) : SameVerdict (.error (.refused reason)) (.error (.refused reason'))
  | gaveUp (text : String) : SameVerdict (.error (.gaveUp text)) (.error (.gaveUp text))

/-- Two toolchains judge all grammars alike. -/
def Toolchain.JudgesAs (tools other : Toolchain) : Prop :=
  ∀ grammar v, SameVerdict (tools.generate grammar v) (other.generate grammar v)

/-! ## Disks that differ in the bytes of files -/

namespace Disk

/-- Two places hold the same, but for the bytes of a file. -/
inductive SameEntry (related : List UInt8 → List UInt8 → Prop) : Option DiskEntry → Option DiskEntry → Prop where
  | nothing : SameEntry related none none
  | directory : SameEntry related (some .directory) (some .directory)
  | file {bytes bytes' : List UInt8} (areRelated : related bytes bytes') :
      SameEntry related (some (.file bytes)) (some (.file bytes'))

/-- Two disks hold the same everywhere, but for the bytes of files, which are related place by place. -/
def Resembles (related : Location → List UInt8 → List UInt8 → Prop) (d d' : Disk) : Prop :=
  ∀ here, SameEntry (related here) (d here) (d' here)

/-- Two results of reading or writing are alike: both fail for the same reason, or what they come to is alike. -/
inductive SameResult {α : Type} (alike : α → α → Prop) : Except DiskError α → Except DiskError α → Prop where
  | failed (e : DiskError) : SameResult alike (.error e) (.error e)
  | done {a a' : α} (areAlike : alike a a') : SameResult alike (.ok a) (.ok a')

theorem SameResult.map_eq {α β : Type} {alike : α → α → Prop} {x y : Except DiskError α} (same : SameResult alike x y)
    {f g : α → β} (mapped : ∀ a a', alike a a' → f a = g a') : x.toOption.map f = y.toOption.map g := by
  cases same with
  | failed e => rfl
  | done areAlike => exact congrArg some (mapped _ _ areAlike)

theorem SameResult.isSome_eq {α : Type} {alike : α → α → Prop} {x y : Except DiskError α} (same : SameResult alike x y) :
    x.toOption.isSome = y.toOption.isSome := by
  cases same <;> rfl

theorem resembles_refl {related : Location → List UInt8 → List UInt8 → Prop} {d : Disk}
    (reflexive : ∀ here bytes, d here = some (.file bytes) → related here bytes bytes) : d.Resembles related d := by
  intro here
  cases entry : d here with
  | none => exact .nothing
  | some e =>
    cases e with
    | directory => exact .directory
    | file bytes => exact .file (reflexive here bytes entry)

section
variable {related : Location → List UInt8 → List UInt8 → Prop} {d d' : Disk} (resembles : d.Resembles related d')
include resembles

theorem Resembles.follow_eq (names : List String) : d'.follow names = d.follow names := by
  induction names with
  | nil => rfl
  | cons name before ih =>
    rw [follow, follow, ih]
    cases d.follow before with
    | error e => rfl
    | ok here =>
      have same := resembles here
      simp only
      generalize d here = entry at same
      generalize d' here = entry' at same
      cases same <;> rfl

theorem Resembles.followPath_eq (path : String) : d'.followPath path = d.followPath path := by
  rw [followPath, followPath, resembles.follow_eq]

theorem Resembles.put {here : Location} {bytes bytes' : List UInt8} (areRelated : related here bytes bytes') :
    (d.put here (.file bytes)).Resembles related (d'.put here (.file bytes')) := by
  intro there
  by_cases same : there = here
  · rw [same, put_self, put_self]
    exact .file areRelated
  · rw [put_of_ne same, put_of_ne same]
    exact resembles there

theorem Resembles.write {path : String} {bytes bytes' : List UInt8}
    (areRelated : ∀ here, d.followPath path = .ok here → related here bytes bytes') :
    SameResult (Resembles related) (d.write path bytes) (d'.write path bytes') := by
  rw [Disk.write, Disk.write, resembles.followPath_eq]
  cases leads : d.followPath path with
  | error e => exact .failed e
  | ok here =>
    have put := resembles.put (areRelated here leads)
    have same := resembles here
    simp only
    generalize d here = entry at same
    generalize d' here = entry' at same
    cases same with
    | nothing => exact .done put
    | directory => exact .failed .isDirectory
    | file => exact .done put

theorem Resembles.read (path : String) :
    SameResult (fun bytes bytes' => ∃ here, d.followPath path = .ok here ∧ related here bytes bytes') (d.read path)
      (d'.read path) := by
  rw [Disk.read, Disk.read, resembles.followPath_eq]
  cases leads : d.followPath path with
  | error e => exact .failed e
  | ok here =>
    have same := resembles here
    simp only
    generalize d here = entry at same
    generalize d' here = entry' at same
    cases same with
    | nothing => exact .failed .notFound
    | directory => exact .failed .isDirectory
    | file areRelated => exact .done ⟨here, rfl, areRelated⟩

end

theorem head_of_join {d : Disk} {path name : String} {here : Location} (isName : Path.IsName name) (down : name ≠ "..")
    (leads : d.followPath (Path.join path name) = .ok here) : here.head? = some name := by
  obtain ⟨there, -, -, rfl⟩ := followPath_join isName down leads
  rfl

end Disk

namespace Build

variable {tools other : Toolchain} {disk : Disk}

/-! ## Builds with toolchains that judge alike -/

/-- What a report shows of the bytes of the parser and of its header. -/
def ShownAlike (tools other : Toolchain) (here : Location) (bytes bytes' : List UInt8) : Prop :=
  (here.head? = some "parser.c" → ParserText.stamps ((Glyph.text? (Glyph.decode bytes)).getD "") =
    ParserText.stamps ((Glyph.text? (Glyph.decode bytes')).getD "")) ∧
  (here.head? = some "parser.h" → (bytes == encode tools.header) = (bytes' == encode other.header))

/-- No file is taken for the header of one of two toolchains before the build. -/
def Headless (tools other : Toolchain) (disk : Disk) : Prop :=
  ∀ here bytes, disk here = some (.file bytes) → here.head? = some "parser.h" →
    bytes ≠ encode tools.header ∧ bytes ≠ encode other.header

theorem Headless.resembles (headless : Headless tools other disk) {made : Disk} (grows : disk.Grows made) :
    made.Resembles (ShownAlike tools other) made := by
  refine Disk.resembles_refl fun here bytes isFile => ⟨fun _ => rfl, fun isHeader => ?_⟩
  obtain ⟨notHeader, notOther⟩ := headless here bytes (grows.file isFile) isHeader
  rw [beq_eq_false_iff_ne.mpr notHeader, beq_eq_false_iff_ne.mpr notOther]

/-- Two ends of a build: the same failure as far as it is told, and disks that show the same. -/
structure EndAlike (tools other : Toolchain) {α : Type} (a b : Disk × Except BuildFailure α) : Prop where
  disk : a.1.Resembles (ShownAlike tools other) b.1
  failure : (failure? a.2).map BuildFailure.notice = (failure? b.2).map BuildFailure.notice

theorem write_resembles (headless : Headless tools other disk) (out : String) {text text' : String}
    (stamps : ParserText.stamps text = ParserText.stamps text') :
    EndAlike tools other (write tools disk out text) (write other disk out text') := by
  have made := headless.resembles (Disk.grows_makePath disk (headerDirectory out))
  rw [write, write]
  generalize disk.makePath (headerDirectory out) = making at made
  obtain ⟨made', fault⟩ := making
  cases fault with
  | some e => exact ⟨made, rfl⟩
  | none =>
    have heads : Disk.SameResult (Disk.Resembles (ShownAlike tools other)) (made'.write (headerPath out) (encode tools.header))
        (made'.write (headerPath out) (encode other.header)) := by
      refine made.write fun here leads => ⟨fun isText => ?_, fun _ => by simp⟩
      rw [Disk.head_of_join isName_header (by decide) leads] at isText
      exact absurd isText (by decide)
    simp only
    generalize made'.write (headerPath out) (encode tools.header) = heading at heads
    generalize made'.write (headerPath out) (encode other.header) = heading' at heads
    cases heads with
    | failed e => exact ⟨made, rfl⟩
    | @done headed headed' headed_alike =>
      have parses : Disk.SameResult (Disk.Resembles (ShownAlike tools other)) (headed.write (parserPath out) (encode text))
          (headed'.write (parserPath out) (encode text')) := by
        refine headed_alike.write fun here leads => ⟨fun _ => ?_, fun isHeader => ?_⟩
        · rw [Glyph.text?_decode_encode, Glyph.text?_decode_encode]
          exact stamps
        · rw [Disk.head_of_join isName_text (by decide) leads] at isHeader
          exact absurd isHeader (by decide)
      simp only
      generalize headed.write (parserPath out) (encode text) = parsing at parses
      generalize headed'.write (parserPath out) (encode text') = parsing' at parses
      cases parses with
      | failed e => exact ⟨headed_alike, rfl⟩
      | @done parsed parsed' parsed_alike =>
        refine ⟨?_, rfl⟩
        simp only [compile]
        rw [parsed_alike.followPath_eq]
        cases leads : parsed.followPath (archivePath out) with
        | error e => exact parsed_alike
        | ok here =>
          have isArchive := Disk.head_of_join isName_archive (by decide) leads
          refine parsed_alike.put ⟨fun isText => ?_, fun isHeader => ?_⟩
          · rw [isArchive] at isText
            exact absurd isText (by decide)
          · rw [isArchive] at isHeader
            exact absurd isHeader (by decide)

theorem parserText_fails_alike (judges : tools.JudgesAs other) (env : Environment) (disk : Disk) (path : String) :
    (failure? (parserText tools env disk path)).map BuildFailure.notice =
      (failure? (parserText other env disk path)).map BuildFailure.notice := by
  rw [parserText, parserText]
  cases readGrammar disk path with
  | error f => rfl
  | ok grammar =>
    cases Build.version env with
    | error f => rfl
    | ok version =>
      have same := judges grammar version
      simp only [bind, Except.bind]
      generalize tools.generate grammar version = verdict at same
      generalize other.generate grammar version = verdict' at same
      cases same with
      | generated name text text' =>
        simp only
        split <;> rfl
      | refused => rfl
      | gaveUp => rfl

/-- Two outcomes of a build show the same. -/
structure OutcomeAlike (tools other : Toolchain) (a b : Outcome) : Prop where
  printed : a.printed = b.printed
  disk : a.disk.Resembles (ShownAlike tools other) b.disk
  failure : a.failure.map BuildFailure.notice = b.failure.map BuildFailure.notice

section
variable (judges : tools.JudgesAs other) (carries : tools.CarriesVersions) (carries' : other.CarriesVersions)
  (headless : Headless tools other disk)
include judges carries carries' headless

/-- Builds with toolchains that judge alike go the same way. -/
theorem run_alike (env : Environment) : OutcomeAlike tools other (run tools env disk) (run other env disk) := by
  have untouched := headless.resembles (Disk.Grows.refl disk)
  rw [run, run]
  cases directory env .manifestDirectory with
  | error f => exact ⟨rfl, untouched, rfl⟩
  | ok manifest =>
    cases directory env .outDirectory with
    | error f => exact ⟨rfl, untouched, rfl⟩
    | ok out =>
      have texts := parserText_fails_alike judges env disk (grammarPath manifest)
      simp only
      cases generates : parserText tools env disk (grammarPath manifest) with
      | error f =>
        rw [generates] at texts
        cases generates' : parserText other env disk (grammarPath manifest) with
        | error g =>
          rw [generates'] at texts
          exact ⟨rfl, untouched, texts⟩
        | ok text' => simp [generates', failure?] at texts
      | ok text =>
        rw [generates] at texts
        cases generates' : parserText other env disk (grammarPath manifest) with
        | error g => simp [generates', failure?] at texts
        | ok text' =>
          have stamps : ParserText.stamps text = ParserText.stamps text' := by
            rw [stamps_of_parserText carries generates, stamps_of_parserText carries' generates']
          obtain ⟨same, failure⟩ := write_resembles headless out stamps
          simp only
          generalize write tools disk out text = ends at same failure
          generalize write other disk out text' = ends' at same failure
          obtain ⟨left, result⟩ := ends
          obtain ⟨left', result'⟩ := ends'
          cases result with
          | error f =>
            cases result' with
            | error g => exact ⟨rfl, same, failure⟩
            | ok _ => simp [failure?] at failure
          | ok _ =>
            cases result' with
            | error g => simp [failure?] at failure
            | ok _ => exact ⟨rfl, same, rfl⟩

end

end Build

namespace BuildReport

variable {tools other : Toolchain} {d : Disk}

/-! ## Reports of builds -/

theorem join_header (path : String) : Path.join path "tree_sitter/parser.h" = Build.headerPath path := by
  obtain ⟨front, joins⟩ := Path.exists_join path
  have last : (front ++ "tree_sitter").toList.getLast? = some 'r' := by simp
  have notEmpty : (front ++ "tree_sitter").toList.isEmpty = false := by simp
  rw [Build.headerPath, Build.headerDirectory, joins, joins, Path.join, last, notEmpty, if_neg (by decide),
    String.append_assoc, String.append_assoc]
  rfl

/-- Toolchains that judge grammars alike give the same reports, whatever texts they make. -/
theorem ofRun_eq (judges : tools.JudgesAs other) (carries : tools.CarriesVersions) (carries' : other.CarriesVersions)
    (headless : Build.Headless tools other d) (env : Environment) (known : List String) :
    ofRun tools env d known = ofRun other env d known := by
  obtain ⟨printed, disk, failure⟩ := Build.run_alike judges carries carries' headless env
  have isFile (path : String) := (disk.read path).isSome_eq
  have stamps (place : String) := (disk.read (Path.join place "parser.c")).map_eq fun bytes bytes' alike => by
    obtain ⟨here, leads, sameText, -⟩ := alike
    exact sameText (Disk.head_of_join Build.isName_text (by decide) leads)
  have isHeader (place : String) :
      ((Build.run tools env d).disk.read (Path.join place "tree_sitter/parser.h")).toOption.map
          (fun bytes => bytes == encode tools.header) =
        ((Build.run other env d).disk.read (Path.join place "tree_sitter/parser.h")).toOption.map
          (fun bytes => bytes == encode other.header) := by
    refine (disk.read _).map_eq fun bytes bytes' alike => ?_
    obtain ⟨here, leads, -, sameHeader⟩ := alike
    rw [join_header] at leads
    exact sameHeader (Disk.head_of_join Build.isName_header (by decide) leads)
  simp only [ofRun, printed, isFile, stamps, isHeader, failure]

/-! ## What stands in for a toolchain -/

theorem standIn_carriesVersions : standIn.CarriesVersions := by
  intro grammar v parser generates
  have isText : parser.text = ParserText.ofVersion v := by
    simp only [standIn] at generates
    split at generates
    · cases generates
    · split at generates
      · obtain rfl := Except.ok.inj generates
        rfl
      · split at generates <;> cases generates
  let lines := (ParserText.entries v).map fun e => (e.1, toString e.2)
  have unbroken : ∀ l ∈ lines, '\n' ∉ l.1.toList ++ l.2.toList := by
    simp [lines, ParserText.entries, ParserText.partMarks, ParserText.layoutMark, ParserText.lineFeed_not_mem_toDigits]
  have carries (i : Nat) (mark : String) (n : Nat) (there : lines[i]? = some (mark, toString n))
      (apart : ∀ l ∈ lines.take i, ParserText.Apart mark l.1) (isMark : mark.toList.dropWhile Text.isBlank = mark.toList)
      (marked : mark.toList ≠ []) : ParserText.Carries (ParserText.ofLines lines) mark n :=
    ParserText.carries_ofLines i unbroken there apart isMark marked (List.append_nil _).symm (by simp)
  rw [isText, ParserText.ofVersion, ParserText.forall_entries_iff]
  refine ⟨carries 0 _ _ rfl (by simp) (by decide) (by decide), carries 1 _ _ rfl ?_ (by decide) (by decide),
    carries 2 _ _ rfl ?_ (by decide) (by decide), carries 3 _ _ rfl ?_ (by decide) (by decide)⟩
  all_goals
    simp only [lines, ParserText.entries, ParserText.partMarks, List.zip_cons_cons, List.map_cons, List.take_succ_cons,
      List.take_zero, List.forall_mem_cons]
    decide

/-- All headers on a disk are empty. -/
def EmptyHeaders (d : Disk) : Prop :=
  ∀ here bytes, d here = some (.file bytes) → here.head? = some "parser.h" → bytes = []

theorem EmptyHeaders.put (empty : EmptyHeaders d) {here : Location} {e : DiskEntry}
    (harmless : ∀ bytes, e = .file bytes → here.head? = some "parser.h" → bytes = []) :
    EmptyHeaders (d.put here e) := by
  intro there bytes isFile isHeader
  by_cases same : there = here
  · rw [same, Disk.put_self] at isFile
    exact harmless bytes (Option.some.inj isFile) (same ▸ isHeader)
  · rw [Disk.put_of_ne same] at isFile
    exact empty there bytes isFile isHeader

/-- Making directories and empty files makes no headers but empty ones. -/
theorem EmptyHeaders.among (start : EmptyHeaders d) (directories files : List String) :
    EmptyHeaders (files.foldl (fun d n => d.put (Path.names (Path.join out n)) (.file []))
      (directories.foldl (fun d n => (d.makeDirectories (Path.names (Path.join out n))).1) d)) := by
  have withDirectories := List.foldlRecOn directories
    (fun d n => (d.makeDirectories (Path.names (Path.join out n))).1) start fun d empty n _ here bytes isFile =>
      empty here bytes ((Disk.grows_makeDirectories d _).file isFile)
  refine List.foldlRecOn files _ withDirectories fun d empty n _ => empty.put fun bytes isFile _ => ?_
  exact (DiskEntry.file.inj isFile).symm

theorem emptyHeaders_disk (grammar : Option DiskEntry) (directories files : List String) :
    EmptyHeaders (disk grammar directories files) := by
  have bare : EmptyHeaders fun here => if here = [] ∨ here = Path.names "/" then some .directory else none := by
    intro here bytes isFile
    simp only at isFile
    split at isFile <;> cases isFile
  have start : EmptyHeaders emptyDisk :=
    List.foldlRecOn _ _ bare fun d empty here _ => empty.put fun bytes none => by cases none
  cases grammar with
  | none => exact start.among directories files
  | some e =>
    have other : (Path.names (Build.grammarPath manifest)).head? ≠ some "parser.h" := by decide +kernel
    have withGrammar : EmptyHeaders (emptyDisk.put (Path.names (Build.grammarPath manifest)) e) :=
      start.put fun bytes _ isHeader => absurd isHeader other
    exact withGrammar.among directories files

theorem eq_empty_of_encode {text : String} (none : encode text = []) : text = "" := by
  have same := Glyph.text?_decode_encode text
  rw [none] at same
  exact (Option.some.inj same).symm

/-- Every toolchain that judges grammars by `Grammar.check`, carries versions and has a header gives the reports of
`ofBuild`. -/
theorem ofRun_eq_ofBuild (judges : tools.JudgesAs standIn) (carries : tools.CarriesVersions)
    (headed : tools.header ≠ "") (env : Environment) (grammar : Option DiskEntry) (directories files known : List String) :
    ofRun tools env (disk grammar directories files) known = ofBuild env (disk grammar directories files) known := by
  refine ofRun_eq judges carries standIn_carriesVersions (fun here bytes isFile isHeader => ?_) env known
  obtain rfl := emptyHeaders_disk grammar directories files here bytes isFile isHeader
  refine ⟨fun same => headed (eq_empty_of_encode same.symm), fun same => ?_⟩
  exact absurd (eq_empty_of_encode same.symm) (by decide)

end BuildReport

end DocComment
