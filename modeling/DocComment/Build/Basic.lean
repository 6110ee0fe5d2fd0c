import DocComment.Build.Disk
import DocComment.Language
import DocComment.Build.VersionPart

/-!
# Builds

A build reads a grammar from a disk, generates its parser, writes the parser and the header that it needs,
and compiles it. It goes step by step and stops at the first failure; what the steps before have printed
and written stays. What generates and compiles is a `Toolchain`, so that the steps can be spoken of for any.
-/

namespace DocComment

/-! ## Variables -/

/-- The variables of the environment that a build reads. -/
inductive BuildVariable where
  | manifestDirectory
  | outDirectory
  | major
  | minor
  | patch
  deriving DecidableEq

def BuildVariable.name : BuildVariable → String
  | .manifestDirectory => "CARGO_MANIFEST_DIR"
  | .outDirectory => "OUT_DIR"
  | .major => "CARGO_PKG_VERSION_MAJOR"
  | .minor => "CARGO_PKG_VERSION_MINOR"
  | .patch => "CARGO_PKG_VERSION_PATCH"

/-- The bytes of each variable that is set. -/
abbrev Environment := BuildVariable → Option (List UInt8)

/-- Why a variable has no text: it is not set, or its bytes are no text. -/
inductive VariableFault where
  | unset
  | garbled (bytes : List UInt8)
  deriving DecidableEq

def Environment.text (env : Environment) (v : BuildVariable) : Except VariableFault String :=
  match env v with
  | none => .error .unset
  | some bytes =>
    match Glyph.text? (Glyph.decode bytes) with
    | some text => .ok text
    | none => .error (.garbled bytes)

/-! ## Toolchains -/

/-- A parser that was generated: the name of its grammar, and its text. -/
structure GeneratedParser where
  name : String
  text : String

/-- Why no parser is generated: the grammar is refused for a reason, or the generator gives up with a text of its own. -/
inductive GenerationFault where
  | refused (reason : String)
  | gaveUp (text : String)
  deriving DecidableEq

/-- What makes a parser out of the text of a grammar and a version, with the header that the text of a parser needs, and
compiles such a text to an archive. -/
structure Toolchain where
  generate : List Char → Version → Except GenerationFault GeneratedParser
  header : String
  compile : String → List UInt8

/-! ## Failures -/

/-- Why a build stops. -/
inductive BuildFailure where
  | directory (v : BuildVariable) (fault : VariableFault)
  | grammarUnread (path : String) (error : DiskError)
  | grammarGarbled (path : String)
  | version (v : BuildVariable) (fault : VariableFault)
  | versionPart (v : BuildVariable) (value : String) (fault : VersionFault)
  | generation (path : String) (fault : GenerationFault)
  | otherName (path name : String)
  | directoryNotMade (path : String) (error : DiskError)
  | headerUnwritten (error : DiskError)
  | parserUnwritten (path : String) (error : DiskError)
  deriving DecidableEq

def BuildFailure.message : BuildFailure → String
  | .directory v .unset => v.name ++ " not set: NotPresent"
  | .directory v (.garbled bytes) => v.name ++ " not set: NotUnicode(" ++ QuotedText.ofBytes bytes ++ ")"
  | .grammarUnread path error => "failed to read " ++ path ++ ": " ++ error.message
  | .grammarGarbled path => "failed to read " ++ path ++ ": stream did not contain valid UTF-8"
  | .version v .unset => v.name ++ " not set: environment variable not found"
  | .version v (.garbled bytes) =>
    v.name ++ " not set: environment variable was not valid unicode: " ++ QuotedText.ofBytes bytes
  | .versionPart v value fault =>
    v.name ++ "=" ++ value ++ " does not fit a grammar version: " ++ fault.message
  | .generation path (.refused reason) => "failed to generate parser from " ++ path ++ ": " ++ reason
  | .generation _ (.gaveUp text) => text
  | .otherName path name =>
    "assertion `left == right` failed: unexpected grammar name in " ++ path ++ "\n  left: "
      ++ QuotedText.ofText name ++ "\n right: " ++ QuotedText.ofText languageName
  | .directoryNotMade path error => "failed to create " ++ path ++ ": " ++ error.message
  | .headerUnwritten error => "failed to write parser.h: " ++ error.message
  | .parserUnwritten path error => "failed to write " ++ path ++ ": " ++ error.message

/-! ## The steps before anything is written -/

namespace Build

def directory (env : Environment) (v : BuildVariable) : Except BuildFailure String :=
  (env.text v).mapError (.directory v)

def readGrammar (disk : Disk) (path : String) : Except BuildFailure (List Char) :=
  match disk.read path with
  | .error e => .error (.grammarUnread path e)
  | .ok bytes =>
    match Glyph.text? (Glyph.decode bytes) with
    | some text => .ok text.toList
    | none => .error (.grammarGarbled path)

/-- The part of the version that a variable gives. -/
def versionPart (env : Environment) (v : BuildVariable) : Except BuildFailure UInt8 :=
  match env.text v with
  | .error fault => .error (.version v fault)
  | .ok value => (VersionPart.read value.toList).mapError (.versionPart v value)

def version (env : Environment) : Except BuildFailure Version := do
  let major ← versionPart env .major
  let minor ← versionPart env .minor
  let patch ← versionPart env .patch
  return ⟨major, minor, patch⟩

def grammarPath (manifest : String) : String := Path.join (Path.join manifest "src") "grammar.json"

/-- The text of the parser of the grammar at a path. -/
def parserText (tools : Toolchain) (env : Environment) (disk : Disk) (path : String) :
    Except BuildFailure String := do
  let grammar ← readGrammar disk path
  let version ← version env
  match tools.generate grammar version with
  | .error fault => .error (.generation path fault)
  | .ok parser => if parser.name = languageName then .ok parser.text else .error (.otherName path parser.name)

/-! ## The steps that write -/

/-- What a build leaves behind: the lines printed, the disk, and the failure at which it stopped. -/
structure Outcome where
  printed : List String
  disk : Disk
  failure : Option BuildFailure

def headerDirectory (out : String) : String := Path.join out "tree_sitter"

def headerPath (out : String) : String := Path.join (headerDirectory out) "parser.h"

def parserPath (out : String) : String := Path.join out "parser.c"

def archiveName : String := "libtree-sitter-roxygen2.a"

def archivePath (out : String) : String := Path.join out archiveName

/-- The line that asks for a new build when the grammar changes. -/
def changeLine (path : String) : String := "cargo:rerun-if-changed=" ++ path

/-- The lines that tell what to link and where it is. -/
def linkLines (out : String) : List String :=
  ["cargo:rustc-link-lib=static=tree-sitter-roxygen2", "cargo:rustc-link-search=native=" ++ Path.trimmed out]

/-- Puts the archive of a parser where it goes. -/
def compile (tools : Toolchain) (disk : Disk) (out parser : String) : Disk :=
  match disk.followPath (archivePath out) with
  | .ok here => disk.put here (.file (tools.compile parser))
  | .error _ => disk

/-- Writes the header and the parser and compiles it. -/
def write (tools : Toolchain) (disk : Disk) (out parser : String) : Disk × Except BuildFailure Unit :=
  match disk.makePath (headerDirectory out) with
  | (disk, some e) => (disk, .error (.directoryNotMade (headerDirectory out) e))
  | (disk, none) =>
    match disk.write (headerPath out) (encode tools.header) with
    | .error e => (disk, .error (.headerUnwritten e))
    | .ok disk =>
      match disk.write (parserPath out) (encode parser) with
      | .error e => (disk, .error (.parserUnwritten (parserPath out) e))
      | .ok disk => (compile tools disk out parser, .ok ())

def run (tools : Toolchain) (env : Environment) (disk : Disk) : Outcome :=
  match directory env .manifestDirectory with
  | .error f => ⟨[], disk, some f⟩
  | .ok manifest =>
    match directory env .outDirectory with
    | .error f => ⟨[], disk, some f⟩
    | .ok out =>
      let printed := [changeLine (grammarPath manifest)]
      match parserText tools env disk (grammarPath manifest) with
      | .error f => ⟨printed, disk, some f⟩
      | .ok parser =>
        match write tools disk out parser with
        | (disk, .error f) => ⟨printed, disk, some f⟩
        | (disk, .ok ()) => ⟨printed ++ linkLines out, disk, none⟩

end Build

end DocComment
