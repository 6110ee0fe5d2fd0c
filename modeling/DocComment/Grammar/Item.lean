import DocComment.Grammar.Follow
import Std.Data.HashMap

/-!
# Items

An item is a production of a nonterminal, read up to a step. Of the steps that were read only what is said about
nodes counts, so that items that differ in nothing else are one. A nonterminal that is to be inlined is replaced
by what it stands for when an item comes to it.
-/

namespace DocComment

/-- What is said about the node of a step that was read. -/
structure PassedStep where
  shown : Option Shown
  field : Option String
  deriving DecidableEq, Ord, Hashable

/-- A production of a nonterminal, read up to a step. Items are in order by their parts, as these stand here. -/
structure Item where
  dot : Nat
  owner : Nat
  dynamic : Int
  length : Nat
  precedence : Option Precedence
  side : Option Side
  passed : List PassedStep
  rest : List ProductionStep
  deriving DecidableEq, Ord, Hashable

namespace Item

def start (owner : Nat) (p : Production) : Item :=
  ⟨0, owner, p.dynamic, p.steps.length, none, none, [], p.steps⟩

/-- The symbol that comes next; none if the production is complete. -/
def next? (i : Item) : Option Atom := i.rest.head?.map ProductionStep.atom

def advance (i : Item) : Item :=
  match i.rest with
  | [] => i
  | s :: rest =>
    { i with
      dot := i.dot + 1
      precedence := s.precedence
      side := s.side
      passed := i.passed ++ [⟨s.shown, s.field⟩]
      rest := rest }

/-- The step put in place of another that holds for it, as far as the other says something. -/
def shownAs (outer s : ProductionStep) : ProductionStep :=
  { s with shown := outer.shown <|> s.shown, field := outer.field <|> s.field }

/-- The steps of a production put in place of a step. What is said about nodes holds for all of them; the last
one binds and groups like the step, if nothing is said about it. -/
def replacement (outer : ProductionStep) (steps : List ProductionStep) : List ProductionStep :=
  match (steps.map (shownAs outer)).reverse with
  | [] => []
  | last :: before =>
    ({ last with precedence := last.precedence <|> outer.precedence, side := last.side <|> outer.side }
      :: before).reverse

/-- The item with a production in place of its next step. -/
def replace (i : Item) (p : Production) : Item :=
  match i.rest with
  | [] => i
  | s :: rest =>
    let steps := replacement s p.steps
    { i with
      dynamic := Stretch.stronger i.dynamic p.dynamic
      length := i.dot + steps.length + rest.length
      rest := steps ++ rest }

end Item

namespace ParserPlan

/-- The number that stands for the nonterminal of a whole input, which nothing refers to. -/
def whole (plan : ParserPlan) : Nat := plan.nonterminals.size

def startItem (plan : ParserPlan) : Item :=
  .start plan.whole ⟨[⟨.nonterminal 0, none, none, none, none, 0⟩], 0⟩

/-- The items that stand for an item: if a nonterminal to be inlined comes next, those with its productions in
its place, to a depth. -/
def expand (plan : ParserPlan) : Nat → Item → List Item
  | 0, i => [i]
  | depth + 1, i =>
    match i.next? with
    | some (.nonterminal v) =>
      if plan.inlined.contains (.nonterminal v) then
        ((plan.productionsOf v).map i.replace).flatMap (plan.expand depth)
      else [i]
    | _ => [i]

/-- How deep nonterminals may be inlined in each other. -/
def depth (plan : ParserPlan) : Nat := plan.nonterminals.size + 1

/-- How many steps a production may have when all that is to be inlined is in place. -/
def stepLimit : Nat := 65535

/-- An item and those that it becomes when up to so many steps are read. -/
def spread (plan : ParserPlan) : Nat → Item → List Item
  | 0, i => [i]
  | steps + 1, i =>
    i :: (plan.expand plan.depth i).flatMap fun j =>
      j :: if j.rest.isEmpty then [] else plan.spread steps j.advance

def items (plan : ParserPlan) : List Item :=
  let starts := plan.startItem :: plan.nonterminals.toList.zipIdx.flatMap fun (v, owner) =>
    v.productions.map (Item.start owner)
  ((starts.flatMap (plan.spread stepLimit)).mergeSort fun a b => (compare a b).isLE).eraseReps

end ParserPlan

end DocComment
