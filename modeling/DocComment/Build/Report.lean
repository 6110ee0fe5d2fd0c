import DocComment.Build.Basic
import DocComment.Grammar.Check

/-!
# Reports of builds

A report tells what can be seen of a build afterwards: the lines printed that speak of a change or of linking, the files
made, the versions that the text of the parser tells, whether the header is the right one, and the failure if there was
one. A report is made for any toolchain (`BuildReport.ofRun`); of the texts that one generates it shows no more than the
versions.
-/

namespace DocComment

/-! ## Versions in the text of a parser -/

namespace ParserText

def layoutMark : String := "#define LANGUAGE_VERSION "

/-- What comes before each part of the version of the package. -/
def partMarks : List String := [".major_version = ", ".minor_version = ", ".patch_version = "]

/-- The digits behind a mark with which a line begins, blanks aside. -/
def stampOn? (mark line : List Char) : Option (List Char) :=
  let line := line.dropWhile Text.isBlank
  let digits := (line.drop mark.length).takeWhile Char.isDigit
  if mark.isPrefixOf line && !digits.isEmpty then some digits else none

/-- The digits behind a mark, on the first line that begins with the mark and some digits. Names of symbols stand
within lines, so what a grammar names its symbols is not taken for a version. -/
def stamp? (text mark : String) : Option String :=
  ((Text.parts '\n' text.toList).findSome? (stampOn? mark.toList)).map String.ofList

/-- The layout version and the parts of the version of the package. -/
def stamps (text : String) : List (Option String) := (layoutMark :: partMarks).map (stamp? text)

/-- What the text of a parser with a version has to tell: the layout version and the parts, behind their marks. -/
def entries (v : Version) : List (String × Nat) :=
  (layoutMark :: partMarks).zip [Language.newest.toNat, v.major.toNat, v.minor.toNat, v.patch.toNat]

/-- A text of lines, each a literal front with something behind it. -/
def ofLines (lines : List (String × String)) : String := String.join (lines.map fun l => l.1 ++ l.2 ++ "\n")

/-- A text that tells a version and nothing else. -/
def ofVersion (v : Version) : String := ofLines ((entries v).map fun e => (e.1, toString e.2))

end ParserText

/-! ## Reports -/

/-- What is told of a failure. -/
structure Notice where
  message : String
  deriving DecidableEq

/-- A failure with its message, but for the reason that a generator gives for refusing a grammar. -/
def BuildFailure.notice : BuildFailure → Notice
  | .generation path (.refused _) => ⟨"failed to generate parser from " ++ path⟩
  | f => ⟨f.message⟩

/-- What can be seen of a build afterwards. What is told of the parser and its header is there if they are files. -/
structure BuildReport where
  printed : List String
  files : List String
  stamps : Option (List (Option String))
  isHeader : Option Bool
  failure : Option Notice
  deriving DecidableEq

namespace BuildReport

/-- The directory of the manifest. -/
def manifest : String := "$M"

/-- The directory to build in. -/
def out : String := "$O"

/-- A disk with the directory of the manifest and its sources, and the directory to build in. -/
def emptyDisk : Disk :=
  [Path.names manifest, Path.names (Path.join manifest "src"), Path.names out].foldl
    (fun d here => d.put here .directory)
    (fun here => if here = [] ∨ here = Path.names "/" then some .directory else none)

/-- The disk before a build: what there is for a grammar, and directories and empty files to build among. -/
def disk (grammar : Option DiskEntry) (directories files : List String) : Disk :=
  let d := match grammar with
    | some e => emptyDisk.put (Path.names (Build.grammarPath manifest)) e
    | none => emptyDisk
  let d := directories.foldl (fun d n => (d.makeDirectories (Path.names (Path.join out n))).1) d
  files.foldl (fun d n => d.put (Path.names (Path.join out n)) (.file [])) d

/-- What the lines begin with that a report shows. -/
def shownMarks : List String :=
  ["cargo:rerun-if-changed=", "cargo:rustc-link-lib=", "cargo:rustc-link-search="]

/-- A line without the return that ends it. -/
def withoutReturn (line : List Char) : List Char :=
  if line.getLast? == some '\r' then line.dropLast else line

/-- The lines to show of a text that was printed. -/
def shownLines (text : String) : List String :=
  ((Text.parts '\n' text.toList).map withoutReturn).filterMap fun line =>
    if shownMarks.any fun mark => mark.toList.isPrefixOf line then some (String.ofList line) else none

/-- Builds on a disk and reports; the files in `known` were there before. -/
def ofRun (tools : Toolchain) (env : Environment) (d : Disk) (known : List String) : BuildReport :=
  let outcome := Build.run tools env d
  let place :=
    match env.text .outDirectory with
    | .ok place => place
    | .error _ => out
  let content (name : String) := (outcome.disk.read (Path.join place name)).toOption
  let names := [Build.archiveName, "parser.c", "tree_sitter/parser.h"]
  { printed := outcome.printed.flatMap shownLines
    files := names.filter fun n => (content n).isSome && !known.contains n
    stamps := (content "parser.c").map fun bytes =>
      ParserText.stamps ((Glyph.text? (Glyph.decode bytes)).getD "")
    isHeader := (content "tree_sitter/parser.h").map fun bytes => bytes == encode tools.header
    failure := outcome.failure.map BuildFailure.notice }

/-! ## Reports without a generator -/

/-- What stands in for a toolchain where no more than a report is wanted. It judges grammars by `Grammar.check`; its
texts are no parsers, they hold what reports show of them. -/
def standIn : Toolchain where
  generate text version :=
    match Grammar.ofText? text with
    | none => .error (.refused "")
    | some g =>
      match g.check with
      | .ok () => .ok ⟨g.name, ParserText.ofVersion version⟩
      | .error flaw =>
        match flaw.text? with
        | some text => .error (.gaveUp text)
        | none => .error (.refused "")
  header := "header"
  compile := encode

/-- The report of a build with any toolchain that judges grammars by `Grammar.check`. -/
def ofBuild (env : Environment) (d : Disk) (known : List String) : BuildReport := ofRun standIn env d known

end BuildReport

end DocComment
