import DocComment.Grammar.Phrase

/-!
# Outlines of grammars

An outline is a grammar whose rules are phrases and which has no rules that nothing leads to. Its names must
stand for something, its precedences must not contradict each other, and no rule may come back to itself
through rules that stand for nothing else.
-/

namespace DocComment

/-- A grammar whose rules are phrases. -/
structure Outline where
  word : Option String
  rules : List (String × Phrase String)
  extras : List (Phrase String)
  conflicts : List (List String)
  precedences : List (List Rank)
  externals : List (Phrase String)
  inlined : List String
  supertypes : List String
  reserved : List (String × List (Phrase String))

/-- The elements that a relation leads to from some elements, in as many rounds as it has members. -/
def reachable {α : Type} [BEq α] (edges : List (α × List α)) (start : List α) : List α :=
  let round (reached : List α) : List α :=
    (edges.filter fun e => reached.contains e.1).foldl (fun all e => all ++ e.2.filter fun n => !all.contains n)
      reached
  Nat.repeat round edges.length start

namespace Outline

/-! ## Rules that are used -/

/-- The names of the rules that are used: the first, what extras and externals refer to, and what those lead
to. The word is used whatever refers to it, but leads nowhere by itself. -/
def usedNames (o : Outline) : List String :=
  reachable (o.rules.map fun r => (r.1, r.2.references))
    ((o.rules.head?.map Prod.fst).toList ++ o.extras.flatMap Phrase.references
      ++ o.externals.flatMap Phrase.innerReferences) ++ o.word.toList

/-- The outline without the rules that are not used, and without what is said about those. -/
def trimmed (o : Outline) : Outline :=
  let used := o.usedNames
  let dropped := (o.rules.map Prod.fst).filter fun n => !used.contains n
  { o with
    rules := o.rules.filter fun r => used.contains r.1
    conflicts := o.conflicts.filter fun set => !set.any dropped.contains
    precedences := o.precedences.filter fun order => !order.any fun entry =>
      match entry with
      | .rule n => dropped.contains n
      | .name _ => false
    inlined := o.inlined.filter fun n => !dropped.contains n
    supertypes := o.supertypes.filter fun n => !dropped.contains n }

/-! ## Precedences -/

/-- Compares an entry with those behind it. Each pair is put with the lesser entry first, together with whether
the list has it so; the lesser entry of a pair is the one compared next. -/
def orderedPairsFrom (entry : Rank) : List Rank → List ((Rank × Rank) × Bool)
  | [] => []
  | other :: rest =>
    if other = entry then orderedPairsFrom entry rest
    else if (compare other entry).isLT then ((other, entry), false) :: orderedPairsFrom other rest
    else ((entry, other), true) :: orderedPairsFrom entry rest

/-- The pairs of different entries that a list puts in order. -/
def orderedPairs : List Rank → List ((Rank × Rank) × Bool)
  | [] => []
  | entry :: rest => orderedPairsFrom entry rest ++ orderedPairs rest

/-- Some pair of entries is put in both orders. -/
def hasContradiction (o : Outline) : Bool :=
  let pairs := o.precedences.flatMap orderedPairs
  pairs.any fun (pair, inOrder) => pairs.contains (pair, !inOrder)

/-- The precedences of an outline are in order, and every named one that rules ask for is among them. -/
def checkPrecedences (o : Outline) : Except Flaw Unit :=
  if o.hasContradiction then .error .contradictoryPrecedences
  else
    match (o.rules.flatMap fun r => r.2.precedences).find? fun n =>
        !o.precedences.flatten.contains (.name n) with
    | some n => .error (.unknownPrecedence n)
    | none => .ok ()

/-! ## Cycles -/

/-- No rule comes back to itself through other rules that stand for nothing else. -/
def checkCycles (o : Outline) : Except Flaw Unit :=
  let edges := o.rules.map fun r => (r.1, r.2.standsFor.filter (· != r.1))
  if edges.any fun e => (reachable edges e.2).contains e.1 then .error .cycle else .ok ()

/-! ## Names -/

def isHiddenName (name : String) : Bool := name.startsWith "_"

/-- The names of tokens that are recognised elsewhere. -/
def externalNames (o : Outline) : List (Option String) := o.externals.map Phrase.symbol?

/-- Every name that must be known: in rules, externals, extras, and reserved words, as a supertype, in a
conflict, and as the word. -/
def references (o : Outline) : List String :=
  (o.rules.map Prod.snd ++ o.externals ++ o.extras ++ o.reserved.flatMap Prod.snd).flatMap Phrase.references
    ++ o.supertypes ++ o.conflicts.flatten ++ o.word.toList

/-- The first rule can be shown, and every name is that of a rule or of an external. -/
def checkNames (o : Outline) : Except Flaw Unit :=
  match o.rules with
  | [] => .error (.outOfBounds 0 0)
  | (start, _) :: _ =>
    if isHiddenName start then .error .hiddenStart
    else
      match o.references.find? fun n =>
          !((o.rules.map Prod.fst).contains n || o.externalNames.contains (some n)) with
      | some n => .error (.unknownName n)
      | none => .ok ()

end Outline

def Grammar.outline (g : Grammar) : Except Flaw Outline := do
  let rules ← g.rules.mapM fun r => do return (r.1, ← r.2.phrase false)
  let extras ← Rule.phrases false g.extras
  if extras.any fun p => p.string? == some "" then .error .emptyExtra
  let externals ← Rule.phrases false g.externals
  let reserved ← g.reserved.mapM fun set => do return (set.1, ← Rule.phrases false set.2)
  return Outline.trimmed
    { word := g.word, rules, extras, externals, reserved, conflicts := g.conflicts,
      precedences := g.precedences, inlined := g.inlined, supertypes := g.supertypes }

end DocComment
