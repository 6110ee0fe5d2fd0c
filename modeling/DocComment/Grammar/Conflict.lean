import DocComment.Grammar.ItemSet

/-!
# Conflicts of a grammar

A parser that looks one symbol ahead works through sets of items. There is a conflict where a set leaves open
whether to read on or which production is complete, neither precedence nor grouping decides, and the grammar does
not say that it is intended. Two of the same repetition in a row are no conflict.
-/

namespace DocComment

namespace ParserPlan

/-! ## Precedence -/

def isRanked (plan : ParserPlan) (p : Option Precedence) (owners : List Nat) : Rank → Bool
  | .name n => p == some (.named n)
  | .rule n => owners.any fun v => (plan.nonterminals[v]?.map Nonterminal.name) == some n

/-- What an order says of two precedences: the one whose entry comes first is the greater, once both were met. An
entry of both counts for the first. -/
def compareInOrder (isFirst isSecond : Rank → Bool) (sawFirst sawSecond : Bool) : List Rank → Option Ordering
  | [] => none
  | r :: rest =>
    if isFirst r then
      if sawSecond then some .lt else compareInOrder isFirst isSecond true sawSecond rest
    else if isSecond r then
      if sawFirst then some .gt else compareInOrder isFirst isSecond sawFirst true rest
    else compareInOrder isFirst isSecond sawFirst sawSecond rest

/-- Compares two precedences by number, if one of the numbers is not zero. No precedence counts as zero. -/
def compareLevels : Option Precedence → Option Precedence → Option Ordering
  | some (.level m), some (.level n) => if m ≠ 0 || n ≠ 0 then some (compare m n) else none
  | some (.level m), none => if m ≠ 0 then some (compare m 0) else none
  | none, some (.level n) => if n ≠ 0 then some (compare 0 n) else none
  | _, _ => none

/-- Compares two precedences, each asked for by some nonterminals. Where numbers do not decide, the first order
that has both does. -/
def comparePrecedence (plan : ParserPlan) (a : Option Precedence) (as : List Nat) (b : Option Precedence)
    (bs : List Nat) : Ordering :=
  match compareLevels a b with
  | some o => o
  | none =>
    (plan.precedences.findSome?
      (compareInOrder (plan.isRanked a as) (plan.isRanked b bs) false false)).getD .eq

def ranksRules (plan : ParserPlan) : Bool :=
  plan.precedences.flatten.any fun r =>
    match r with
    | .rule _ => true
    | .name _ => false

end ParserPlan

/-! ## Completions -/

/-- The complete items that compete for what follows, with what they bind as. -/
structure Completion where
  items : List Item
  precedence : Option Precedence
  owners : List Nat
  sides : List (Option Side)

namespace Completion

def single (i : Item) : Completion := ⟨[i], i.precedence, [i.owner], [i.side]⟩

/-- A place beyond every list of nonterminals. -/
def nowhere : Nat := 0xFFFFFFFF

/-- Takes in a complete item: one that binds tighter drives out the others, one that binds looser is left out.
The whole input cannot be compared with what orders say of rules. -/
def add (plan : ParserPlan) (c : Option Completion) (i : Item) : Except Flaw (Option Completion) :=
  match c with
  | none => .ok (some (single i))
  | some c =>
    if i.owner = plan.whole && plan.ranksRules && (ParserPlan.compareLevels i.precedence c.precedence).isNone then
      .error (.outOfBounds plan.nonterminals.size nowhere)
    else
      match plan.comparePrecedence i.precedence [i.owner] c.precedence c.owners with
      | .gt => .ok (some (single i))
      | .lt => .ok (some c)
      | .eq => .ok (some ⟨c.items ++ [i], i.precedence, i.owner :: c.owners, i.side :: c.sides⟩)

end Completion

/-! ## Decisions -/

/-- How a choice between reading on and completing a production comes out. -/
inductive Verdict where
  | readOn
  | complete
  | undecided

/-- The repetitions met on the way to a set of items, the last first, each with the nonterminals in which it was
met. -/
abbrev Repeated := List (Nat × List Nat)

namespace ItemTable

/-- Decides between reading on, as some items would, and a completion: by precedence, and where that is silent by
the sides to which the complete items group. -/
def judge (t : ItemTable) (reading : List Item) (c : Completion) : Verdict :=
  let orders := reading.map fun i => t.plan.comparePrecedence i.precedence [i.owner] c.precedence c.owners
  let tighter := orders.any (· == .gt)
  let looser := orders.any (· == .lt)
  if tighter then if looser then .undecided else .readOn
  else if looser then .complete
  else if c.sides.all (· == some .left) then .complete
  else if c.sides.all (· == some .right) then .readOn
  else .undecided

/-- The nonterminals that the items of a conflict belong to. For a repetition those count that it was last met
in. -/
def parties (t : ItemTable) (met : Repeated) : List Item → Except Flaw (List Nat)
  | [] => .ok []
  | i :: rest => do
    let own ←
      if t.plan.isAuxiliary i.owner then
        match met.lookup i.owner with
        | some parents => .ok parents
        | none => .error .missing
      else .ok [i.owner]
    return own ++ (← t.parties met rest)

def checkIntended (t : ItemTable) (met : Repeated) (items : List Item) : Except Flaw Unit := do
  let atoms := (← t.parties met items).map Atom.nonterminal
  if t.plan.intended.any fun set => set.all atoms.contains && atoms.all set.contains then .ok ()
  else .error .conflict

def readingBefore (t : ItemTable) (entries : List (Item × FollowSet)) (f : Follow) : List Item :=
  (entries.map Prod.fst).filter fun i =>
    i.dot != 0 && i.next?.any fun a => (t.startsOf a).contains f

def completeBefore (entries : List (Item × FollowSet)) (f : Follow) : List Item :=
  (entries.filter fun e => e.1.rest.isEmpty && e.2.contains f).map Prod.fst

/-- A set of items leaves nothing open before a symbol, which may be read or not. -/
def checkBefore (t : ItemTable) (met : Repeated) (entries : List (Item × FollowSet)) (isRead : Bool)
    (f : Follow) : Except Flaw Unit := do
  let inGrammar (items : List Item) := items.filter fun i => i.owner != t.plan.whole
  let complete := completeBefore entries f
  match ← complete.foldlM (Completion.add t.plan) none with
  | none => .ok ()
  | some c =>
    let reading := t.readingBefore entries f
    let either := (entries.map Prod.fst).filter fun i =>
      i.owner != t.plan.whole && (reading.contains i || complete.contains i)
    if isRead then
      match either with
      | [] => .ok ()
      | i :: rest =>
        if t.plan.isAuxiliary i.owner && rest.all fun j => j.owner == i.owner then .ok ()
        else
          match t.judge reading c with
          | .readOn => .ok ()
          | .complete => if c.items.length > 1 then t.checkIntended met (inGrammar complete) else .ok ()
          | .undecided => t.checkIntended met either
    else if c.items.length > 1 then t.checkIntended met either
    else .ok ()

/-- The nonterminals in which a repetition comes next, repetitions apart. -/
def parents (t : ItemTable) (entries : List (Item × FollowSet)) (v : Nat) : List Nat :=
  ((entries.filter fun e => e.1.next? == some (.nonterminal v) && !t.plan.isAuxiliary e.1.owner).map
    fun e => e.1.owner).eraseDups

/-- The repetitions that come next in a set, put before those met earlier. -/
def meet (t : ItemTable) (entries : List (Item × FollowSet)) (met : Repeated) : Repeated :=
  let next := (entries.filterMap fun e =>
    match e.1.next? with
    | some (.nonterminal v) => if t.plan.isAuxiliary v then some v else none
    | _ => none).eraseDups
  next.map (fun v => (v, t.parents entries v)) ++ met.filter fun m => !next.contains m.1

/-- What a set of items does is settled for whatever follows. Where an extra ends, nothing else may follow. -/
def checkSet (t : ItemTable) (met : Repeated) (entries : List (Item × FollowSet)) (read : List Atom) :
    Except Flaw Unit := do
  let follow := entries.foldl (fun (s : FollowSet) e => if e.1.rest.isEmpty then s.union e.2 else s) .empty
  let isRead (f : Follow) : Bool := f.atom?.any read.contains
  follow.members.forM fun f => t.checkBefore met entries (isRead f) f
  if follow.contains .extraFinish then
    if follow.members.length > 1 || read.any fun a => !Vocabulary.isNonterminal a then .error .openExtra

/-! ## All sets -/

def setLimit : Nat := 65535

/-- Settles pending sets, each with the repetitions met on the way to it, and those they lead to. The sets in
`seen` were pending before. -/
def checkFrom (t : ItemTable) :
    Nat → List (ItemSet × Repeated) → Std.HashMap ItemSet Unit → Except Flaw Unit
  | _, [], _ => .ok ()
  | 0, _ :: _, _ => .error .tooManyStates
  | fuel + 1, (kernel, met) :: pending, seen => do
    let set := t.closure kernel
    let entries := t.entries set
    let met := t.meet entries met
    let next := t.successors set
    t.checkSet met entries (next.map Prod.fst)
    let fresh := (next.map Prod.snd).filter fun k => !seen.contains k
    t.checkFrom fuel (pending ++ fresh.map fun k => (k, met)) (fresh.foldl (fun s k => s.insert k ()) seen)

/-! ## Starts -/

def extraNonterminals (plan : ParserPlan) : List Nat :=
  plan.extras.filterMap fun a =>
    match a with
    | .nonterminal v => some v
    | _ => none

def extraItems (plan : ParserPlan) : Except Flaw (List (Atom × Item)) :=
  ((extraNonterminals plan).flatMap fun v => (plan.productionsOf v).map (Item.start v)).mapM fun i =>
    match i.next? with
    | some a => .ok (a, i.advance)
    | none => .error .missing

def extraSets (t : ItemTable) : Except Flaw (List ItemSet) := do
  let items ← extraItems t.plan
  let atoms := ((items.map Prod.fst).mergeSort fun a b => (compare a b).isLE).eraseReps
  if atoms.any Vocabulary.isNonterminal then .error .improperExtra
  return atoms.map fun a =>
    .ofList ((items.filter fun i => i.1 == a).map fun i => (t.numberOf i.2, .single .extraFinish))

end ItemTable

/-- No set of items of a plan leaves anything open. -/
def ParserPlan.checkConflicts (plan : ParserPlan) : Except Flaw Unit := do
  let t := ItemTable.ofPlan plan
  let sets := [(t.numberOf plan.startItem, .single .finish)] :: (← t.extraSets)
  t.checkFrom ItemTable.setLimit (sets.map fun k => (k, [])) (Std.HashMap.ofList (sets.map fun k => (k, ())))

end DocComment
