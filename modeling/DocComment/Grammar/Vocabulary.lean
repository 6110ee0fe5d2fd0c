import DocComment.Grammar.Outline

/-!
# Vocabularies of grammars

The vocabulary of an outline is its tokens. A token is a phrase that describes characters; equal phrases are one
token, and a rule that is nothing but a token used nowhere else is that token. What remains are nonterminals.
-/

namespace DocComment

inductive Atom where
  | external (e : Nat)
  | token (t : Nat)
  | nonterminal (v : Nat)
  deriving DecidableEq, Ord, Hashable

/-- How the nodes of a symbol are shown. The grammar wants no nodes of `hidden` ones, and has no name for `auxiliary`
ones. -/
inductive Visibility where
  | hidden
  | auxiliary
  | anonymous
  | named
  deriving DecidableEq

def Visibility.isVisible : Visibility → Bool
  | .hidden | .auxiliary => false
  | .anonymous | .named => true

def Visibility.ofName (name : String) : Visibility :=
  if Outline.isHiddenName name then .hidden else .named

/-- A token: its phrase, its name and how it is shown, and how often it is used. -/
structure GrammarToken where
  phrase : Phrase String
  name : String
  visibility : Visibility
  uses : Nat

namespace Phrase

/-- The token that a phrase is, if it is one, and the one text that it spells. A marking that makes a token and
says nothing else is left out. -/
def token? : Phrase String → Option (Phrase String × Option String)
  | .string value => some (.string value, some value)
  | .pattern value flags => some (.pattern value flags, none)
  | .marked m content =>
    if m.isToken then
      let bare := { m with isToken := false }
      some (if bare = .empty then content else .marked m content, content.string?)
    else none
  | _ => none

mutual

/-- The tokens of a phrase, as often as they occur. -/
def tokens (p : Phrase String) : List (Phrase String × Option String) :=
  match p.token? with
  | some t => [t]
  | none =>
    match p with
    | .choice members | .sequence members => tokensAmong members
    | .repeated content | .marked _ content | .reserved _ content => tokens content
    | _ => []

def tokensAmong : List (Phrase String) → List (Phrase String × Option String)
  | [] => []
  | p :: rest => tokens p ++ tokensAmong rest

end

end Phrase

/-- The tokens of an outline, and the rules that are no more than one. -/
structure Vocabulary where
  outline : Outline
  tokens : List GrammarToken
  merged : List (String × Nat)

namespace Vocabulary

/-! ## Gathering tokens -/

/-- Adds a token met in a rule to those met before. Only the first rule may have the empty text for one. -/
def add (inFirst : Bool) (known : List GrammarToken) (found : Phrase String × Option String) :
    Except Flaw (List GrammarToken) :=
  if known.any fun t => t.phrase == found.1 then
    .ok (known.map fun t => if t.phrase == found.1 then { t with uses := t.uses + 1 } else t)
  else
    match found.2 with
    | some text =>
      if text.isEmpty && !inFirst then .error .emptyToken
      else .ok (known ++ [⟨found.1, text, .anonymous, 1⟩])
    | none => .ok (known ++ [⟨found.1, "", .auxiliary, 1⟩])

/-- The tokens of an outline, by the order in which they are met in rules and externals. -/
def gather (o : Outline) : Except Flaw (List GrammarToken) := do
  let first := (o.rules.take 1).flatMap fun r => r.2.tokens
  let others := (o.rules.drop 1).flatMap (fun r => r.2.tokens) ++ o.externals.flatMap Phrase.tokens
  others.foldlM (add false) (← first.foldlM (add true) [])

def visibilityOfRule (o : Outline) (name : String) : Visibility :=
  if o.supertypes.contains name then .hidden else .ofName name

/-- The place of the token that takes the place of a rule: the only use of the token is the whole rule, and one
that spells a text does not hide behind it. -/
def tokenInPlace? (o : Outline) (tokens : List GrammarToken) (r : String × Phrase String) : Option Nat := do
  let (p, _) ← r.2.token?
  let i ← tokens.findIdx? fun t => t.phrase == p
  let t ← tokens[i]?
  if t.uses = 1 && (t.visibility = .auxiliary || visibilityOfRule o r.1 ≠ .hidden) then some i else none

/-- A token that takes the place of a rule has the name of the rule and is shown like it. -/
def renamed (o : Outline) (merged : List (String × Nat)) (t : GrammarToken) (i : Nat) : GrammarToken :=
  match merged.find? fun m => m.2 == i with
  | some (name, _) => { t with name := name, visibility := visibilityOfRule o name }
  | none => t

/-- The vocabulary of an outline. -/
def ofOutline (o : Outline) : Except Flaw Vocabulary := do
  let tokens ← gather o
  let merged := (o.rules.drop 1).filterMap fun r => (tokenInPlace? o tokens r).map fun i => (r.1, i)
  return ⟨o, tokens.zipIdx.map fun (t, i) => renamed o merged t i, merged⟩

/-! ## Symbols -/

/-- The rules that are nonterminals. -/
def nonterminalRules (v : Vocabulary) : List (String × Phrase String) :=
  v.outline.rules.filter fun r => (v.merged.lookup r.1).isNone

/-- The symbol that a name stands for: a rule goes before a token that is recognised elsewhere. -/
def resolve (v : Vocabulary) (name : String) : Option Atom :=
  match v.merged.lookup name with
  | some t => some (.token t)
  | none =>
    match v.nonterminalRules.findIdx? fun r => r.1 == name with
    | some i => some (.nonterminal i)
    | none => (v.outline.externalNames.idxOf? (some name)).map .external

def tokenOf? (v : Vocabulary) (p : Phrase String) : Option Atom :=
  (v.tokens.findIdx? fun t => t.phrase == p).map .token

mutual

/-- A phrase in terms of the symbols of a vocabulary. -/
def settle (v : Vocabulary) (p : Phrase String) : Phrase Atom :=
  match p.token? with
  | some (t, _) =>
    match v.tokenOf? t with
    | some a => .symbol a
    | none => .blank
  | none =>
    match p with
    | .symbol name =>
      match v.resolve name with
      | some a => .symbol a
      | none => .blank
    | .choice members => .choice (v.settleAll members)
    | .sequence members => .sequence (v.settleAll members)
    | .repeated content => .repeated (v.settle content)
    | .marked m content => .marked m (v.settle content)
    | .reserved context content => .reserved context (v.settle content)
    | _ => .blank

def settleAll (v : Vocabulary) : List (Phrase String) → List (Phrase Atom)
  | [] => []
  | p :: rest => v.settle p :: v.settleAll rest

end

/-- The symbols of extras that are symbols: a name, or a phrase that is a token. -/
def extras (v : Vocabulary) : List Atom :=
  v.outline.extras.filterMap fun p =>
    match p with
    | .symbol name => v.resolve name
    | p => v.tokenOf? p

/-- What may stand between tokens and is no symbol. -/
def separators (v : Vocabulary) : List (Phrase String) :=
  v.outline.extras.filter fun p => p.symbol?.isNone && (v.tokenOf? p).isNone

/-- The symbol of a reserved word. -/
def reservedWord (v : Vocabulary) : Phrase String → Except Flaw Atom
  | .symbol name =>
    match v.resolve name with
    | some a => .ok a
    | none => .error (.unknownName name)
  | p =>
    match v.tokenOf? p with
    | some a => .ok a
    | none => .error .reservedNotToken

def isNonterminal : Atom → Bool
  | .nonterminal _ => true
  | _ => false

/-- The externals, the word and the reserved words are tokens; whether a reserved word has parts is looked at
later. -/
def checkUses (v : Vocabulary) : Except Flaw Unit := do
  if (v.settleAll v.outline.externals).any fun p => p.symbol?.all isNonterminal then
    .error .externalNotToken
  if (v.outline.word.bind v.resolve).any isNonterminal then .error .wordNotToken
  (v.outline.reserved.flatMap Prod.snd).forM fun p => discard (v.reservedWord p)

def checkReserved (v : Vocabulary) : Except Flaw Unit :=
  (v.outline.reserved.flatMap Prod.snd).forM fun p => do
    if isNonterminal (← v.reservedWord p) then .error .nonterminalReserved

end Vocabulary

end DocComment
