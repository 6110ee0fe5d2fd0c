import DocComment.Grammar.Production

/-!
# Plans of parsers

A plan holds all that decides how a grammar is parsed and how its nodes are shown: the nonterminals with their
productions, the tokens, and what the grammar says about symbols. Aliases under which a symbol is always shown
are said once for the symbol and not at each step.
-/

namespace DocComment

/-- Everything that decides how a grammar is parsed and shown. The `aliases` show the nodes of symbols that have a name
of their own nowhere. -/
structure ParserPlan where
  nonterminals : Array Nonterminal
  tokens : Array GrammarToken
  externals : Array String
  inlined : List Atom
  supertypes : List Atom
  extras : List Atom
  intended : List (List Atom)
  precedences : List (List Rank)
  aliases : List (Atom × Shown)

namespace ParserPlan

def productionsOf (plan : ParserPlan) (v : Nat) : List Production :=
  match plan.nonterminals[v]? with
  | some found => found.productions
  | none => []

/-- The nonterminal stands for a repetition. -/
def isAuxiliary (plan : ParserPlan) (v : Nat) : Bool :=
  match plan.nonterminals[v]? with
  | some found => found.visibility = .auxiliary
  | none => false

def steps (plan : ParserPlan) : List ProductionStep :=
  plan.nonterminals.toList.flatMap fun v => v.productions.flatMap Production.steps

/-! ## Making a plan -/

def ofVocabulary (v : Vocabulary) : Except Flaw ParserPlan := do
  let nonterminals := (← v.nonterminals).toArray
  let symbols (names : List String) := names.filterMap v.resolve
  let isRepetition (a : Atom) : Bool :=
    match a with
    | .nonterminal i => (nonterminals[i]?).any fun x => x.visibility = .auxiliary
    | _ => false
  return { nonterminals, tokens := v.tokens.toArray,
           externals := (v.outline.externalNames.map fun n => n.getD "").toArray,
           inlined := (symbols v.outline.inlined).filter fun a => !isRepetition a,
           supertypes := symbols v.outline.supertypes, extras := v.extras,
           intended := v.outline.conflicts.map symbols, precedences := v.outline.precedences,
           aliases := [] }

/-- A nonterminal that some production contains does not match the empty text, and no nonterminal to be inlined
contains itself. -/
def checkProductions (plan : ParserPlan) : Except Flaw Unit :=
  let used := (plan.steps.map ProductionStep.atom).eraseDups
  plan.nonterminals.toList.zipIdx.forM fun (v, i) => do
    if used.contains (.nonterminal i) && v.productions.any (fun p => p.steps.isEmpty) then
      .error (.emptyRule v.name)
    if plan.inlined.contains (.nonterminal i)
        && v.productions.any (fun p => p.steps.any fun s => s.atom == .nonterminal i) then
      .error .badInline

/-- Only nonterminals can be inlined, and not the first one. -/
def checkInlined (plan : ParserPlan) : Except Flaw Unit :=
  if plan.inlined.all fun a => Vocabulary.isNonterminal a && a != .nonterminal 0 then .ok ()
  else .error .badInline

/-! ## Aliases -/

/-- Counts an alias once more among those met so far. -/
def countAlias (met : List (Shown × Nat)) (s : Shown) : List (Shown × Nat) :=
  if met.any fun m => m.1 == s then met.map fun m => if m.1 == s then (m.1, m.2 + 1) else m
  else met ++ [(s, 1)]

/-- The alias met most often, the first of those met equally often. -/
def mostFrequent? (met : List (Shown × Nat)) : Option Shown :=
  (met.foldl
    (fun (best : Option (Shown × Nat)) m =>
      match best with
      | some b => if b.2 < m.2 then some m else some b
      | none => some m)
    none).map Prod.fst

/-- The alias of a symbol that is shown under an alias wherever it stands: the most frequent one. Symbols to
be inlined have none. -/
def aliasOf? (plan : ParserPlan) (a : Atom) : Option Shown :=
  let uses := (plan.steps.filter fun s => s.atom == a).map ProductionStep.shown
  if plan.inlined.contains a || plan.extras.contains a || uses.any Option.isNone then none
  else mostFrequent? ((uses.filterMap id).foldl countAlias [])

/-- The step has the alias that its symbol has everywhere, and no other production of the nonterminal needs the
alias to be said at this place. -/
def isSaid (aliases : List (Atom × Shown)) (productions : List Production) (i j : Nat)
    (s : ProductionStep) : Bool :=
  s.shown.isSome && aliases.lookup s.atom == s.shown
    && !productions.zipIdx.any fun (other, k) =>
      k != i && (other.steps[j]?).any fun t => t.shown == s.shown && aliases.lookup t.atom != s.shown

/-- The productions of a nonterminal with needless aliases left out. -/
def withoutSaid (aliases : List (Atom × Shown)) (productions : List Production) : List Production :=
  productions.zipIdx.map fun (p, i) =>
    { p with
      steps := p.steps.zipIdx.map fun (s, j) =>
        if isSaid aliases productions i j s then { s with shown := none } else s }

/-- The plan in which an alias that a symbol has everywhere is that of the symbol. -/
def gatherAliases (plan : ParserPlan) : ParserPlan :=
  let atoms := (plan.steps.map ProductionStep.atom).eraseDups
  let aliases := atoms.filterMap fun a => (plan.aliasOf? a).map fun s => (a, s)
  { plan with
    aliases := aliases
    nonterminals := plan.nonterminals.map fun v =>
      { v with productions := withoutSaid aliases v.productions } }

/-! ## Supertypes -/

/-- How the nodes of a symbol are shown. -/
def visibility (plan : ParserPlan) (a : Atom) : Visibility :=
  if plan.supertypes.contains a then .named
  else if plan.inlined.contains a then .hidden
  else
    match a with
    | .nonterminal i => (plan.nonterminals[i]?.map Nonterminal.visibility).getD .hidden
    | .token i => (plan.tokens[i]?.map GrammarToken.visibility).getD .hidden
    | .external i => (plan.externals[i]?.map Visibility.ofName).getD .hidden

def name (plan : ParserPlan) (a : Atom) : String :=
  match a with
  | .nonterminal i => (plan.nonterminals[i]?.map Nonterminal.name).getD ""
  | .token i => (plan.tokens[i]?.map GrammarToken.name).getD ""
  | .external i => (plan.externals[i]?).getD ""

/-- How a step is shown, if not by its symbol. -/
def shownAt (plan : ParserPlan) (s : ProductionStep) : Option Shown := s.shown <|> plan.aliases.lookup s.atom

/-- The nonterminal whose parts are shown in place of a step. -/
def openAt? (plan : ParserPlan) (s : ProductionStep) : Option Nat :=
  match s.atom with
  | .nonterminal i =>
    if (plan.shownAt s).isNone && !(plan.visibility s.atom).isVisible then some i else none
  | _ => none

/-- The nonterminals whose parts are shown in place of those in a nonterminal, and so on. -/
def openedFrom (plan : ParserPlan) (v : Nat) : List Nat :=
  let edges := plan.nonterminals.toList.zipIdx.map fun (x, i) =>
    (i, (x.productions.flatMap fun p => p.steps.filterMap plan.openAt?))
  reachable edges [v]

/-- A nonterminal may be shown as more than one symbol. -/
def isWide (plan : ParserPlan) (v : Nat) : Bool :=
  (plan.openedFrom v).any fun u => (plan.productionsOf u).any fun p => p.steps.length > 1

def kinds (plan : ParserPlan) (v : Nat) : List String :=
  ((plan.openedFrom v).flatMap fun u => (plan.productionsOf u).flatMap Production.steps).filterMap fun s =>
    match plan.shownAt s with
    | some shown => some shown.kind
    | none => if (plan.visibility s.atom).isVisible then some (plan.name s.atom) else none

/-- The place of a symbol among those of its sort. -/
def index : Atom → Nat
  | .external i | .token i | .nonterminal i => i

/-- No supertype is wide. A supertype is looked up among the nonterminals by its place, whatever its sort. -/
def checkWidth (plan : ParserPlan) : Except Flaw Unit :=
  plan.supertypes.forM fun a => do
    if plan.nonterminals.size ≤ index a then .error (.outOfBounds plan.nonterminals.size (index a))
    if plan.isWide (index a) then .error .wideSupertype

/-- The kinds under which the nodes of a nonterminal are described: every alias that it has somewhere, and its own
name where it has none. Supertypes and symbols to be inlined have no nodes to be described. -/
def describedKinds (plan : ParserPlan) (v : Nat) : List String :=
  let a := Atom.nonterminal v
  let own := if (plan.nonterminals[v]?).any fun n => n.visibility.isVisible then [plan.name a] else []
  if plan.supertypes.contains a || plan.inlined.contains a then []
  else if v = 0 then own
  else
    let uses := (plan.steps.filter fun s => s.atom == a).map plan.shownAt
    let isBare := plan.extras.contains a || uses.any Option.isNone
    (uses.filterMap fun s => s.map Shown.kind) ++ if isBare then own else []

/-- A nonterminal is described under the name of a supertype that comes before it, where none before the supertype
is. The description of a supertype has no place for the parts of nodes. -/
def isTaken (plan : ParserPlan) (supertype : Nat) : Bool :=
  let name := plan.name (.nonterminal supertype)
  let isDescribed (v : Nat) : Bool := (plan.describedKinds v).contains name
  !(List.range supertype).any isDescribed
    && (List.range plan.nonterminals.size).any fun v => supertype < v && isDescribed v

/-- No kind of nodes is a supertype of itself, not even by way of others. The name of a supertype is not taken. Of
several supertypes each has a kind of nodes or is one of those of another, for else their order is not known. -/
def checkSupertypes (plan : ParserPlan) : Except Flaw Unit := do
  let places := (plan.supertypes.filterMap fun a =>
    match a with
    | .nonterminal v => some v
    | _ => none).eraseDups
  if places.any plan.isTaken then .error .missing
  let edges := places.map fun v => (plan.name (.nonterminal v), (plan.kinds v).eraseDups)
  if edges.any fun e => (reachable edges e.2).contains e.1 then .error .supertypeCycle
  if edges.length > 1 && edges.any fun e => e.2.isEmpty && !edges.any fun other => other.2.contains e.1 then
    .error .missing

end ParserPlan

end DocComment
