import DocComment.Grammar.Vocabulary

/-!
# Productions of a grammar

A nonterminal stands for sequences of symbols, its productions. A repetition becomes a nonterminal of its own
that joins two of itself. Each symbol of a production carries what is said about it; a production carries what
is said about it as a whole.
-/

namespace DocComment

/-- A step of a production: a symbol and what is said about it. -/
structure ProductionStep where
  atom : Atom
  precedence : Option Precedence
  side : Option Side
  shown : Option Shown
  field : Option String
  reserved : Nat
  deriving DecidableEq, Ord, Hashable

/-- What a nonterminal may stand for. -/
structure Production where
  steps : List ProductionStep
  dynamic : Int
  deriving DecidableEq

/-- A nonterminal: its name, how its nodes are shown, and what it may stand for. One that stands for a
repetition is auxiliary. -/
structure Nonterminal where
  name : String
  visibility : Visibility
  productions : List Production

/-! ## Repetitions -/

/-- The repetitions that were given a nonterminal of their own, numbered from `first` on: their contents, and the rule
in which each was first met. -/
structure Repetitions where
  first : Nat
  known : List (Phrase Atom × String)

namespace Repetitions

/-- The symbol of the repetition of some content, met in a rule. -/
def meet (r : Repetitions) (rule : String) (content : Phrase Atom) : Phrase Atom × Repetitions :=
  match r.known.findIdx? fun k => k.1 == content with
  | some i => (.symbol (.nonterminal (r.first + i)), r)
  | none =>
    (.symbol (.nonterminal (r.first + r.known.length)), { r with known := r.known ++ [(content, rule)] })

end Repetitions

namespace Phrase

mutual

/-- The phrase in which repetitions are nonterminals. What stands inside reserved words stays as it is. -/
def name (rule : String) (r : Repetitions) : Phrase Atom → Phrase Atom × Repetitions
  | .choice members =>
    let (members, r) := nameAll rule r members
    (.choice members, r)
  | .sequence members =>
    let (members, r) := nameAll rule r members
    (.sequence members, r)
  | .marked m content =>
    let (content, r) := name rule r content
    (.marked m content, r)
  | .repeated content =>
    let (content, r) := name rule r content
    r.meet rule content
  | p => (p, r)

def nameAll (rule : String) (r : Repetitions) : List (Phrase Atom) → List (Phrase Atom) × Repetitions
  | [] => ([], r)
  | p :: rest =>
    let (p, r) := name rule r p
    let (rest, r) := nameAll rule r rest
    (p :: rest, r)

end

/-- What a repetition stands for: two of itself, or its content. -/
def join (self : Nat) (content : Phrase Atom) : Phrase Atom :=
  choose [.sequence [.symbol (.nonterminal self), .symbol (.nonterminal self)], content]

end Phrase

/-! ## Stretches -/

/-- What is said around a place in a phrase. -/
structure Surroundings where
  precedence : Option Precedence
  side : Option Side
  shown : Option Shown
  field : Option String
  reserved : Nat

namespace Surroundings

def empty : Surroundings := ⟨none, none, none, none, 0⟩

/-- What is said inside a marking, as far as that says something. -/
def inside (s : Surroundings) (m : Marking) : Surroundings :=
  { s with
    precedence := m.precedence <|> s.precedence
    side := m.side <|> s.side
    shown := m.shown <|> s.shown
    field := m.field <|> s.field }

end Surroundings

/-- One way to read a phrase: the steps, a dynamic precedence, and the sets of reserved words asked for. -/
structure Stretch where
  steps : List ProductionStep
  dynamic : Int
  contexts : List String

namespace Stretch

def empty : Stretch := ⟨[], 0, []⟩

/-- The greater of two dynamic precedences by size, the first of equal ones. -/
def stronger (a b : Int) : Int := if a.natAbs < b.natAbs then b else a

def followedBy (a b : Stretch) : Stretch :=
  ⟨a.steps ++ b.steps, stronger a.dynamic b.dynamic, a.contexts ++ b.contexts⟩

/-- The stretch behind a marking: its last step binds as what stands around it, unless it ends the whole. -/
def leave (around : Surroundings) (m : Marking) (atEnd : Bool) (s : Stretch) : Stretch :=
  let rebind (step : ProductionStep) : ProductionStep :=
    { step with
      precedence := if m.precedence.isSome then around.precedence else step.precedence
      side := if m.side.isSome then around.side else step.side }
  let steps :=
    if atEnd then s.steps
    else
      match s.steps.reverse with
      | [] => []
      | last :: before => (rebind last :: before).reverse
  { s with steps := steps, dynamic := stronger m.dynamic s.dynamic }

end Stretch

namespace Phrase

mutual

/-- The ways to read a phrase, where sets of reserved words have these names. -/
def stretches (sets : List String) (around : Surroundings) (atEnd : Bool) : Phrase Atom → List Stretch
  | .symbol a =>
    [⟨[⟨a, around.precedence, around.side, around.shown, around.field, around.reserved⟩], 0, []⟩]
  | .choice members => stretchesOfOne sets around atEnd members
  | .sequence members => stretchesInTurn sets around atEnd members
  | .marked m content =>
    (stretches sets (around.inside m) atEnd content).map (Stretch.leave around m atEnd)
  | .reserved context content =>
    (stretches sets { around with reserved := sets.idxOf context } atEnd content).map fun s =>
      { s with contexts := context :: s.contexts }
  | _ => [.empty]

def stretchesOfOne (sets : List String) (around : Surroundings) (atEnd : Bool) :
    List (Phrase Atom) → List Stretch
  | [] => []
  | p :: rest => stretches sets around atEnd p ++ stretchesOfOne sets around atEnd rest

def stretchesInTurn (sets : List String) (around : Surroundings) (atEnd : Bool) :
    List (Phrase Atom) → List Stretch
  | [] => [.empty]
  | p :: rest =>
    (stretches sets around (atEnd && rest.isEmpty) p).flatMap fun s =>
      (stretchesInTurn sets around atEnd rest).map s.followedBy

end

/-- The productions of a phrase, each once. A set of reserved words that none of the names stands for is
refused. -/
def productions (sets : List String) (p : Phrase Atom) : Except Flaw (List Production) := do
  let found := p.stretches sets .empty true
  match (found.flatMap Stretch.contexts).find? fun c => !sets.contains c with
  | some c => .error (.unknownContext c)
  | none => return (found.map fun s => (⟨s.steps, s.dynamic⟩ : Production)).eraseDups

end Phrase

/-! ## Nonterminals -/

/-- A nonterminal before it is taken apart. -/
structure NonterminalPhrase where
  name : String
  visibility : Visibility
  phrase : Phrase Atom

namespace Vocabulary

/-- The rules that are nonterminals, with repetitions made nonterminals. A hidden rule that is a repetition as a
whole stands for it itself. -/
def nameRules (v : Vocabulary) : List NonterminalPhrase × Repetitions :=
  let rules := v.nonterminalRules
  rules.zipIdx.foldl
    (fun (done, r) ((name, p), self) =>
      let visibility := visibilityOfRule v.outline name
      match visibility, v.settle p with
      | .hidden, .repeated content =>
        let (content, r) := content.name name r
        (done ++ [⟨name, .auxiliary, .join self content⟩], r)
      | _, p =>
        let (p, r) := p.name name r
        (done ++ [⟨name, visibility, p⟩], r))
    ([], ⟨rules.length, []⟩)

/-- The nonterminals of repetitions, each named after the rule in which it was first met. -/
def ofRepetitions (r : Repetitions) : List NonterminalPhrase :=
  r.known.zipIdx.map fun ((content, rule), i) =>
    let number := ((r.known.take (i + 1)).filter fun k => k.2 == rule).length
    ⟨rule ++ "_repeat" ++ toString number, .auxiliary, .join (r.first + i) content⟩

/-- The nonterminals of a vocabulary: first one for each rule, then one for each repetition. -/
def nonterminals (v : Vocabulary) : Except Flaw (List Nonterminal) :=
  let (rules, r) := v.nameRules
  (rules ++ ofRepetitions r).mapM fun n => do
    return ⟨n.name, n.visibility, ← n.phrase.productions (v.outline.reserved.map Prod.fst)⟩

end Vocabulary

end DocComment
