/-!
# Languages and the load check

A language is what a loader hands out for parsing. The load check calls the loader once to see whether there
is a language at all and a second time for the language to use; that one needs node kinds and a version that
the runtime supports. A parser, when bound to a language, checks the version alone.
-/

namespace DocComment

def languageName : String := "roxygen2"

/-- A language as a parser sees it: the layout version of its tables, and its symbols and aliases by their
number. Its own name and the version of its package are known only from layout version 15 on. -/
structure Language where
  abi : UInt32
  symbols : UInt32
  aliases : UInt32
  name : Option String
  metadata : Option (Nat × Nat × Nat)
  deriving DecidableEq

namespace Language

/-- The layout version from which on a language has a name and metadata. -/
def firstDescribed : UInt32 := 15

/-- The language behind a header that only counts symbols and aliases. -/
def ofHeader (abi symbols aliases : UInt32) : Language where
  abi := abi
  symbols := symbols
  aliases := aliases
  name := none
  metadata := if firstDescribed ≤ abi then some (0, 0, 0) else none

/-- The language of documentation comments. -/
def linked : Language where
  abi := 15
  symbols := 19
  aliases := 0
  name := some languageName
  metadata := some (0, 0, 1)

/-- The number of node kinds: the symbols and the aliases, in a sum that wraps at 32 bits. -/
def nodeKinds (l : Language) : UInt32 := l.symbols + l.aliases

def oldest : UInt32 := 13

def newest : UInt32 := 15

/-- The layout version is in the supported range. -/
def isSupported (l : Language) : Bool := oldest ≤ l.abi && l.abi ≤ newest

end Language

/-- A loader: it returns nothing, or a language at each call, which may be another one every time. -/
inductive Loader where
  | null
  | languages (nth : Nat → Language)

/-! ## Errors and records -/

/-- Why there is no language to use: there is none or it has no node kinds, its layout version is not supported, or the
parser refused it for that. -/
inductive LoadError where
  | grammarLoad
  | incompatibleVersion (version : UInt32)
  | language (version : UInt32)
  deriving DecidableEq

namespace LoadError

/-- What the parser says of a layout version that it refuses. -/
def refusal (version : UInt32) : String :=
  s!"Incompatible language version {version}. Expected minimum {Language.oldest}, maximum {Language.newest}"

def message : LoadError → String
  | .grammarLoad => "Error loading roxygen2 grammar"
  | .incompatibleVersion v =>
    s!"Error loading roxygen2 grammar: ABI version {v} is not supported by this runtime"
  | .language v => "Error loading roxygen2 grammar: " ++ refusal v

/-- The error written as a value. -/
def debug : LoadError → String
  | .grammarLoad => "GrammarLoad"
  | .incompatibleVersion v => "IncompatibleVersion \x7b version: " ++ toString v ++ " \x7d"
  | .language v => "Language(LanguageError \x7b version: " ++ toString v ++ " \x7d)"

/-- The text of the error that caused this one. -/
def source? : LoadError → Option String
  | .language v => some (refusal v)
  | _ => none

end LoadError

/-- How much a record matters. -/
inductive Level where
  | debug
  | warn
  deriving DecidableEq

/-- A logged record. -/
structure Record where
  level : Level
  text : String
  deriving DecidableEq

/-- Under what name records are logged. -/
def Record.target : String := "tree_sitter_roxygen2"

/-! ## Checks -/

/-- What a check has done so far: how often it called the loader, and what it logged. -/
structure Trace where
  calls : Nat
  log : List Record

/-- A check. What it has done stays done when it fails. -/
abbrev LoadCheck := ExceptT LoadError (StateM Trace)

/-- What a check came to: its result, what it logged, and how often it called the loader. -/
structure Checked where
  result : Except LoadError Language
  log : List Record
  calls : Nat

namespace LoadCheck

/-- Calls the loader once more, and tells how many calls there were before. -/
def call : LoadCheck Nat := modifyGet fun t => (t.calls, { t with calls := t.calls + 1 })

def log (r : Record) : LoadCheck Unit := modify fun t => { t with log := t.log ++ [r] }

/-- Logs a warning and fails. -/
def fail {α : Type} (warning : String) (e : LoadError) : LoadCheck α := do
  log ⟨.warn, warning⟩
  throw e

/-- What a check comes to from the start. -/
def outcome (check : LoadCheck Language) : Checked :=
  let (result, trace) := check.run.run ⟨0, []⟩
  ⟨result, trace.log, trace.calls⟩

end LoadCheck

/-! ## Loading -/

namespace Language

/-- The parser refuses a language whose layout version is older or newer than those it supports. -/
def isRefused (l : Language) : Bool := l.abi < oldest || newest < l.abi

/-- Binds a parser to the language. -/
def bind (l : Language) : Except LoadError Language :=
  if l.isRefused then .error (.language l.abi) else .ok l

end Language

namespace Loader

/-- The loader of the language of documentation comments. -/
def linked : Loader := .languages fun _ => .linked

/-- The load check. The first call only tells whether there is a language. -/
def check (loader : Loader) : LoadCheck Language := do
  let _ ← LoadCheck.call
  match loader with
  | .null => .fail "roxygen2 grammar loader returned a null language" .grammarLoad
  | .languages nth =>
    let l := nth (← LoadCheck.call)
    if l.nodeKinds = 0 then .fail "roxygen2 grammar has no node kinds" .grammarLoad
    else if l.isSupported then
      LoadCheck.log ⟨.debug, s!"loaded roxygen2 grammar: ABI {l.abi}, {l.nodeKinds} node kinds"⟩
      return l
    else
      .fail (s!"roxygen2 grammar has ABI version {l.abi}, runtime supports "
        ++ s!"{Language.oldest}..={Language.newest}") (.incompatibleVersion l.abi)

/-- What the load check comes to. -/
def load (loader : Loader) : Checked := loader.check.outcome

/-- What the load check comes to, with a parser bound to the language that it finds. -/
def loadParser (loader : Loader) : Checked :=
  LoadCheck.outcome do
    let l ← loader.check
    liftExcept l.bind

end Loader

end DocComment
