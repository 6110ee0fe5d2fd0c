import DocComment.Grammar.Plan

/-!
# What may follow

A parser looks one symbol ahead, at a token or at an end. A set of such symbols is kept as a number: each has a
place among the binary digits. What the texts of a nonterminal may begin with is such a set.
-/

namespace DocComment

/-- What may follow a production. -/
inductive Follow where
  | finish
  | extraFinish
  | token (t : Nat)
  | external (e : Nat)
  deriving DecidableEq

namespace Follow

/-- The place of a symbol among the binary digits. -/
def place : Follow → Nat
  | .finish => 0
  | .extraFinish => 1
  | .token t => 2 * t + 2
  | .external e => 2 * e + 3

def ofPlace (n : Nat) : Follow :=
  if n = 0 then .finish
  else if n = 1 then .extraFinish
  else if n % 2 = 0 then .token ((n - 2) / 2)
  else .external ((n - 3) / 2)

def atom? : Follow → Option Atom
  | .token t => some (.token t)
  | .external e => some (.external e)
  | _ => none

end Follow

/-- A set of what may follow. -/
structure FollowSet where
  digits : Nat
  deriving DecidableEq, Hashable

namespace FollowSet

def empty : FollowSet := ⟨0⟩

def single (f : Follow) : FollowSet := ⟨1 <<< f.place⟩

/-- What follows by one set or the other. -/
def union (a b : FollowSet) : FollowSet := ⟨a.digits ||| b.digits⟩

def contains (s : FollowSet) (f : Follow) : Bool := s.digits.testBit f.place

def members (s : FollowSet) : List Follow :=
  ((List.range (s.digits.log2 + 1)).filter s.digits.testBit).map Follow.ofPlace

end FollowSet

namespace ParserPlan

/-- What the texts of a symbol may begin with, if that is known for nonterminals. -/
def startsWith (known : Array FollowSet) : Atom → FollowSet
  | .token t => .single (.token t)
  | .external e => .single (.external e)
  | .nonterminal v => (known[v]?).getD .empty

/-- What the texts of nonterminals may begin with: the first symbols of their productions, found in as many
rounds as there are nonterminals. -/
def starts (plan : ParserPlan) : Array FollowSet :=
  let round (known : Array FollowSet) : Array FollowSet :=
    plan.nonterminals.map fun v =>
      v.productions.foldl
        (fun (found : FollowSet) p =>
          match p.steps with
          | [] => found
          | s :: _ => found.union (startsWith known s.atom))
        .empty
  Nat.repeat round plan.nonterminals.size (plan.nonterminals.map fun _ => .empty)

end ParserPlan

end DocComment
