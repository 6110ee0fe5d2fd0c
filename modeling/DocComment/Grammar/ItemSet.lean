import DocComment.Grammar.Item

/-!
# Sets of items

The items of a plan are numbered in their order. A set of items lists their numbers in order, each with what may
follow the item. The closure of a set adds the items of the nonterminals that may come next, and theirs in turn.
-/

namespace DocComment

/-- Items by number, in order, each with what may follow. -/
abbrev ItemSet := List (Nat × FollowSet)

namespace ItemSet

def insert (number : Nat) (follow : FollowSet) : ItemSet → ItemSet
  | [] => [(number, follow)]
  | (n, f) :: rest =>
    if number < n then (number, follow) :: (n, f) :: rest
    else if number = n then (n, f.union follow) :: rest
    else (n, f) :: insert number follow rest

def union : ItemSet → ItemSet → ItemSet
  | [], b => b
  | a, [] => a
  | (m, f) :: as, (n, g) :: bs =>
    if m < n then (m, f) :: union as ((n, g) :: bs)
    else if m = n then (m, f.union g) :: union as bs
    else (n, g) :: union ((m, f) :: as) bs

def ofList (items : List (Nat × FollowSet)) : ItemSet := items.foldl (fun s e => s.insert e.1 e.2) []

end ItemSet

/-- What may follow a nonterminal that an item brings along: these symbols, and what follows the item as well if
asked for. -/
structure Bringing where
  follow : FollowSet
  passesOn : Bool
  deriving DecidableEq

namespace Bringing

def empty : Bringing := ⟨.empty, false⟩

def union (a b : Bringing) : Bringing := ⟨a.follow.union b.follow, a.passesOn || b.passesOn⟩

/-- What may follow, where this follows the item. -/
def resolve (b : Bringing) (follow : FollowSet) : FollowSet :=
  if b.passesOn then b.follow.union follow else b.follow

end Bringing

/-- The items of a plan by their numbers: what each becomes with one more step read, which items stand for it, and what
its nonterminals start with and bring along. -/
structure ItemTable where
  plan : ParserPlan
  items : Array Item
  advanced : Array Nat
  expanded : Array (List Nat)
  starts : Array FollowSet
  brought : Array (List (Nat × Bringing))

namespace ItemTable

def startsOf (t : ItemTable) (a : Atom) : FollowSet := ParserPlan.startsWith t.starts a

/-! ## Nonterminals that are brought along -/

/-- One round from the nonterminals that are brought along to those that come first in their productions. Of a
nonterminal that nothing may follow, the productions are not looked into. -/
def bringRound (plan : ParserPlan) (starts : Array FollowSet) (known : Array (Option Bringing)) :
    Array (Option Bringing) :=
  let add (known : Array (Option Bringing)) (v : Nat) (b : Bringing) : Array (Option Bringing) :=
    known.modify v fun old => some ((old.getD .empty).union b)
  known.toList.zipIdx.foldl
    (fun found (entry, v) =>
      match entry with
      | some b =>
        if b = .empty then found
        else
          (plan.productionsOf v).foldl
            (fun found p =>
              match p.steps with
              | ⟨.nonterminal u, _, _, _, _, _⟩ :: [] => add found u b
              | ⟨.nonterminal u, _, _, _, _, _⟩ :: s :: _ =>
                add found u ⟨ParserPlan.startsWith starts s.atom, false⟩
              | _ => found)
            found
      | none => found)
    known

/-- The rounds until nothing changes, or as many as given. -/
def bringRounds (plan : ParserPlan) (starts : Array FollowSet) :
    Nat → Array (Option Bringing) → Array (Option Bringing)
  | 0, known => known
  | rounds + 1, known =>
    let found := bringRound plan starts known
    if found = known then known else bringRounds plan starts rounds found

/-- The nonterminals that a nonterminal brings along, itself first of all, with what may follow them. It takes as
many rounds as there are nonterminals to come to one of them, and as many again for what follows it to be passed
on. -/
def broughtBy (plan : ParserPlan) (starts : Array FollowSet) (v : Nat) : List (Nat × Bringing) :=
  let nothing : Array (Option Bringing) := plan.nonterminals.map fun _ => none
  let found :=
    bringRounds plan starts (2 * plan.nonterminals.size) (nothing.modify v fun _ => some ⟨.empty, true⟩)
  found.toList.zipIdx.filterMap fun (b, u) =>
    b.bind fun b => if plan.inlined.contains (.nonterminal u) then none else some (u, b)

/-- The items of nonterminals that are brought along, in order. -/
def itemsBrought (plan : ParserPlan) (numbers : Std.HashMap Item Nat) (found : List (Nat × Bringing)) :
    List (Nat × Bringing) :=
  let items := found.flatMap fun (u, b) =>
    ((plan.productionsOf u).flatMap fun p => plan.expand plan.depth (.start u p)).map fun i =>
      (numbers.getD i 0, b)
  (items.mergeSort fun a b => a.1 ≤ b.1).foldr
    (fun e rest =>
      match rest with
      | (n, b) :: more => if n = e.1 then (n, e.2.union b) :: more else e :: rest
      | [] => [e])
    []

def ofPlan (plan : ParserPlan) : ItemTable :=
  let items := plan.items.toArray
  let numbers : Std.HashMap Item Nat := Std.HashMap.ofList items.toList.zipIdx
  let starts := plan.starts
  { plan, items, starts,
    advanced := items.map fun i => numbers.getD i.advance 0,
    expanded := items.map fun i => (plan.expand plan.depth i).map fun j => numbers.getD j 0,
    brought := plan.nonterminals.mapIdx fun v _ => itemsBrought plan numbers (broughtBy plan starts v) }

def numberOf (t : ItemTable) (i : Item) : Nat := (t.items.findIdx? (· == i)).getD 0

/-! ## Closures -/

/-- Adds an item to a set, with all that it brings along. -/
def addWithBrought (t : ItemTable) (s : ItemSet) (number : Nat) (follow : FollowSet) : ItemSet :=
  let rest := (t.items[number]?.map Item.rest).getD []
  let brought : ItemSet :=
    match rest with
    | ⟨.nonterminal v, _, _, _, _, _⟩ :: after =>
      let follow := (after.head?.map fun s => t.startsOf s.atom).getD follow
      ((t.brought[v]?).getD []).map fun (n, b) => (n, b.resolve follow)
    | _ => []
  (s.union brought).insert number follow

/-- The closure of a set. -/
def closure (t : ItemTable) (kernel : ItemSet) : ItemSet :=
  kernel.foldl
    (fun s (number, follow) =>
      ((t.expanded[number]?).getD []).foldl (fun s n => t.addWithBrought s n follow) s)
    []

def entries (t : ItemTable) (s : ItemSet) : List (Item × FollowSet) :=
  s.filterMap fun (number, follow) => (t.items[number]?).map fun i => (i, follow)

/-- The sets that a set leads to, each by the symbol that is read; externals come first, then tokens, then
nonterminals. -/
def successors (t : ItemTable) (s : ItemSet) : List (Atom × ItemSet) :=
  let moves := s.filterMap fun (number, follow) => do
    let a ← (← t.items[number]?).next?
    return (a, ← t.advanced[number]?, follow)
  let atoms := ((moves.map Prod.fst).mergeSort fun a b => (compare a b).isLE).eraseReps
  atoms.map fun a => (a, .ofList ((moves.filter fun m => m.1 == a).map Prod.snd))

end ItemTable

end DocComment
