import DocComment.Grammar.Flaw

/-!
# Phrases

A phrase is a rule in the form in which rules are compared and taken apart. What rules say about a stretch is
gathered in one marking around it; choices do not stand in choices, and no alternative is repeated. A phrase
refers to symbols of any kind, at first by their names.
-/

namespace DocComment

/-- How a node is shown: the kind, and whether it is a named one. -/
structure Shown where
  kind : String
  isNamed : Bool
  deriving DecidableEq, Ord, Hashable

/-- What is said about a stretch of a rule. Nothing may stand before a token that is immediate. -/
structure Marking where
  precedence : Option Precedence
  side : Option Side
  dynamic : Int
  shown : Option Shown
  field : Option String
  isToken : Bool
  isImmediate : Bool
  deriving DecidableEq

def Marking.empty : Marking := ⟨none, none, 0, none, none, false, false⟩

/-- A rule with symbols of some kind. -/
inductive Phrase (α : Type) where
  | blank
  | string (value : String)
  | pattern (value flags : String)
  | symbol (a : α)
  | choice (members : List (Phrase α))
  | sequence (members : List (Phrase α))
  | repeated (content : Phrase α)
  | marked (m : Marking) (content : Phrase α)
  | reserved (context : String) (content : Phrase α)
  deriving BEq

namespace Phrase
variable {α : Type}

/-- The phrase with more said about it. A marking around it takes that in, unless it makes a token. -/
def mark (say : Marking → Marking) : Phrase α → Phrase α
  | .marked m content =>
    if m.isToken then .marked (say .empty) (.marked m content) else .marked (say m) content
  | p => .marked (say .empty) p

def alternatives : Phrase α → List (Phrase α)
  | .choice members => members
  | p => [p]

/-- One of some phrases. -/
def choose [BEq α] (members : List (Phrase α)) : Phrase α :=
  .choice (members.flatMap alternatives).eraseDups

mutual

/-- A phrase and all inside it; what stands inside reserved words only if asked for. -/
def parts (intoReserved : Bool) : Phrase α → List (Phrase α)
  | .choice members => .choice members :: partsOfAll intoReserved members
  | .sequence members => .sequence members :: partsOfAll intoReserved members
  | .repeated content => .repeated content :: parts intoReserved content
  | .marked m content => .marked m content :: parts intoReserved content
  | .reserved context content =>
    .reserved context content :: if intoReserved then parts intoReserved content else []
  | p => [p]

def partsOfAll (intoReserved : Bool) : List (Phrase α) → List (Phrase α)
  | [] => []
  | p :: rest => parts intoReserved p ++ partsOfAll intoReserved rest

end

def symbol? : Phrase α → Option α
  | .symbol a => some a
  | _ => none

def string? : Phrase α → Option String
  | .string value => some value
  | _ => none

def references (p : Phrase α) : List α := (p.parts true).filterMap symbol?

def precedences (p : Phrase α) : List String :=
  (p.parts false).filterMap fun q =>
    match q with
    | .marked m _ =>
      match m.precedence with
      | some (.named name) => some name
      | _ => none
    | _ => none

/-- The symbols that a phrase refers to, unless it is no more than one. -/
def innerReferences : Phrase α → List α
  | .symbol _ => []
  | .marked _ content | .reserved _ content => innerReferences content
  | p => p.references

mutual

/-- The symbols that a phrase may stand for with nothing added. -/
def standsFor : Phrase α → List α
  | .symbol a => [a]
  | .choice members => standsForAmong members
  | .marked _ content => standsFor content
  | _ => []

def standsForAmong : List (Phrase α) → List α
  | [] => []
  | p :: rest => standsFor p ++ standsForAmong rest

end

mutual

/-- The phrase matches the empty text by its form alone. -/
def isEmpty : Phrase α → Bool
  | .string value => value.isEmpty
  | .choice members => anyEmpty members
  | .sequence members => allEmpty members
  | .repeated content | .marked _ content | .reserved _ content => isEmpty content
  | .blank | .pattern _ _ | .symbol _ => false

def anyEmpty : List (Phrase α) → Bool
  | [] => false
  | p :: rest => isEmpty p || anyEmpty rest

def allEmpty : List (Phrase α) → Bool
  | [] => true
  | p :: rest => isEmpty p && allEmpty rest

end

end Phrase

namespace Rule

mutual

/-- The phrase of a rule. Inside a token no symbol may stand. -/
def phrase (inToken : Bool) : Rule → Except Flaw (Phrase String)
  | .blank => .ok .blank
  | .string value => .ok (.string value)
  | .pattern value flags =>
    .ok (.pattern value (String.ofList ((flags.getD "").toList.filter (· == 'i'))))
  | .symbol name => if inToken then .error (.openToken name) else .ok (.symbol name)
  | .choice members => return .choose (← phrases inToken members)
  | .sequence members => return .sequence (← phrases inToken members)
  | .zeroOrMore content => return .choose [.repeated (← phrase inToken content), .blank]
  | .oneOrMore content => return .repeated (← phrase inToken content)
  | .field name content => return (← phrase inToken content).mark fun m => { m with field := some name }
  | .renamed content named value =>
    return (← phrase inToken content).mark fun m => { m with shown := some ⟨value, named⟩ }
  | .binding none value content =>
    return (← phrase inToken content).mark fun m => { m with precedence := some value }
  | .binding (some side) value content =>
    return (← phrase inToken content).mark fun m =>
      { m with precedence := some value, side := some side }
  | .dynamic value content => return (← phrase inToken content).mark fun m => { m with dynamic := value }
  | .token content => return (← phrase true content).mark fun m => { m with isToken := true }
  | .immediate content =>
    return (← phrase inToken content).mark fun m => { m with isToken := true, isImmediate := true }
  | .reserved context content => return .reserved context (← phrase inToken content)

def phrases (inToken : Bool) : List Rule → Except Flaw (List (Phrase String))
  | [] => .ok []
  | r :: rest => return (← phrase inToken r) :: (← phrases inToken rest)

end

end Rule

end DocComment
