import DocComment.Json

/-!
# Grammars

A grammar is a name, rules, and some lists about them. It is described by a JSON value: `Grammar.toJson`
writes that value, and `Grammar.ofText?` reads it from a text in which lines may be comments.
-/

namespace DocComment

/-- How tightly a rule binds: a number, or a name that the grammar puts in order. -/
inductive Precedence where
  | level (n : Int)
  | named (name : String)
  deriving DecidableEq, Ord, Hashable

inductive Side where
  | left
  | right
  deriving DecidableEq, Ord, Hashable

/-- A rule of a grammar. A `binding` groups to a side, if one is given. -/
inductive Rule where
  | blank
  | string (value : String)
  | pattern (value : String) (flags : Option String)
  | symbol (name : String)
  | choice (members : List Rule)
  | sequence (members : List Rule)
  | zeroOrMore (content : Rule)
  | oneOrMore (content : Rule)
  | field (name : String) (content : Rule)
  | renamed (content : Rule) (named : Bool) (value : String)
  | binding (side : Option Side) (value : Precedence) (content : Rule)
  | dynamic (value : Int) (content : Rule)
  | token (content : Rule)
  | immediate (content : Rule)
  | reserved (context : String) (content : Rule)
  deriving BEq

/-- An entry of an order of precedences: a name, or a rule by its name. -/
inductive Rank where
  | name (n : String)
  | rule (n : String)
  deriving DecidableEq, Ord, Hashable

/-- A grammar. The first rule is where a derivation starts. Keywords are taken from the `word`, `extras` may stand between
tokens, and `externals` are recognised elsewhere. -/
structure Grammar where
  name : String
  word : Option String
  rules : List (String × Rule)
  extras : List Rule
  conflicts : List (List String)
  precedences : List (List Rank)
  externals : List Rule
  inlined : List String
  supertypes : List String
  reserved : List (String × List Rule)

/-! ## Writing -/

namespace Rule

/-- A rule's JSON object: its type, and further members. -/
def tagged (type : String) (members : List (String × Json)) : Json :=
  .object (("type", .string type) :: members)

def jsonOfPrecedence : Precedence → Json
  | .level n => .integer n
  | .named name => .string name

def bindingType : Option Side → String
  | none => "PREC"
  | some .left => "PREC_LEFT"
  | some .right => "PREC_RIGHT"

mutual

def toJson : Rule → Json
  | .blank => tagged "BLANK" []
  | .string value => tagged "STRING" [("value", .string value)]
  | .pattern value none => tagged "PATTERN" [("value", .string value)]
  | .pattern value (some flags) => tagged "PATTERN" [("value", .string value), ("flags", .string flags)]
  | .symbol name => tagged "SYMBOL" [("name", .string name)]
  | .choice members => tagged "CHOICE" [("members", .array (toJsons members))]
  | .sequence members => tagged "SEQ" [("members", .array (toJsons members))]
  | .zeroOrMore content => tagged "REPEAT" [("content", toJson content)]
  | .oneOrMore content => tagged "REPEAT1" [("content", toJson content)]
  | .field name content => tagged "FIELD" [("name", .string name), ("content", toJson content)]
  | .renamed content named value =>
    tagged "ALIAS" [("content", toJson content), ("named", .bool named), ("value", .string value)]
  | .binding side value content =>
    tagged (bindingType side) [("value", jsonOfPrecedence value), ("content", toJson content)]
  | .dynamic value content => tagged "PREC_DYNAMIC" [("value", .integer value), ("content", toJson content)]
  | .token content => tagged "TOKEN" [("content", toJson content)]
  | .immediate content => tagged "IMMEDIATE_TOKEN" [("content", toJson content)]
  | .reserved context content =>
    tagged "RESERVED" [("context_name", .string context), ("content", toJson content)]

def toJsons : List Rule → List Json
  | [] => []
  | r :: rest => toJson r :: toJsons rest

end

end Rule

def Rank.toJson : Rank → Json
  | .name n => (Rule.string n).toJson
  | .rule n => (Rule.symbol n).toJson

namespace Grammar

def schema : String :=
  "https://tree-sitter.github.io/tree-sitter/assets/schemas/grammar.schema.json"

def jsonOfNames (names : List String) : Json := .array (names.map .string)

def toJson (g : Grammar) : Json :=
  .object (("$schema", .string schema) :: ("name", .string g.name)
    :: (g.word.toList.map fun w => ("word", .string w))
    ++ [("rules", .object (g.rules.map fun r => (r.1, r.2.toJson))),
      ("extras", .array (Rule.toJsons g.extras)),
      ("conflicts", .array (g.conflicts.map jsonOfNames)),
      ("precedences", .array (g.precedences.map fun order => .array (order.map Rank.toJson))),
      ("externals", .array (Rule.toJsons g.externals)),
      ("inline", jsonOfNames g.inlined),
      ("supertypes", jsonOfNames g.supertypes),
      ("reserved", .object (g.reserved.map fun set => (set.1, .array (Rule.toJsons set.2))))])

end Grammar

/-! ## Reading -/

/-- What a JSON value can be taken for inside a rule. -/
structure Part where
  value : Json
  rule : Option Rule
  rules : Option (List Rule)

namespace Part

/-- The only member with a key; a repeated key is refused. -/
def member? (members : List (String × Part)) (key : String) : Option Part :=
  match members.filter fun m => m.1 == key with
  | [m] => some m.2
  | _ => none

def string? (members : List (String × Part)) (key : String) : Option String :=
  match (member? members key).map Part.value with
  | some (.string s) => some s
  | _ => none

def isNarrow (n : Int) : Bool := -0x80000000 ≤ n && n < 0x80000000

def precedence? (members : List (String × Part)) (key : String) : Option Precedence :=
  match (member? members key).map Part.value with
  | some (.integer n) => if isNarrow n then some (.level n) else none
  | some (.string name) => some (.named name)
  | _ => none

def content? (members : List (String × Part)) : Option Rule :=
  (member? members "content").bind Part.rule

/-- The flags of a pattern: none, a null, or a string. -/
def flags? (members : List (String × Part)) : Option (Option String) :=
  if members.any fun m => m.1 == "flags" then
    match (member? members "flags").map Part.value with
    | some (.string s) => some (some s)
    | some .null => some none
    | _ => none
  else some none

def ruleOf? (members : List (String × Part)) : Option Rule := do
  match ← string? members "type" with
  | "BLANK" => some .blank
  | "STRING" => return .string (← string? members "value")
  | "PATTERN" => return .pattern (← string? members "value") (← flags? members)
  | "SYMBOL" => return .symbol (← string? members "name")
  | "CHOICE" => return .choice (← (← member? members "members").rules)
  | "SEQ" => return .sequence (← (← member? members "members").rules)
  | "REPEAT" => return .zeroOrMore (← content? members)
  | "REPEAT1" => return .oneOrMore (← content? members)
  | "FIELD" => return .field (← string? members "name") (← content? members)
  | "ALIAS" =>
    match (← member? members "named").value with
    | .bool named => return .renamed (← content? members) named (← string? members "value")
    | _ => none
  | "PREC" => return .binding none (← precedence? members "value") (← content? members)
  | "PREC_LEFT" => return .binding (some .left) (← precedence? members "value") (← content? members)
  | "PREC_RIGHT" => return .binding (some .right) (← precedence? members "value") (← content? members)
  | "PREC_DYNAMIC" =>
    match ← precedence? members "value" with
    | .level n => return .dynamic n (← content? members)
    | .named _ => none
  | "TOKEN" => return .token (← content? members)
  | "IMMEDIATE_TOKEN" => return .immediate (← content? members)
  | "RESERVED" => return .reserved (← string? members "context_name") (← content? members)
  | _ => none

/-- The keys of a rule of a type, in the order in which an array gives their values. -/
def keysOf : String → List String
  | "STRING" => ["value"]
  | "PATTERN" => ["value", "flags"]
  | "SYMBOL" => ["name"]
  | "CHOICE" | "SEQ" => ["members"]
  | "REPEAT" | "REPEAT1" | "TOKEN" | "IMMEDIATE_TOKEN" => ["content"]
  | "FIELD" => ["name", "content"]
  | "ALIAS" => ["content", "named", "value"]
  | "PREC" | "PREC_LEFT" | "PREC_RIGHT" | "PREC_DYNAMIC" => ["value", "content"]
  | "RESERVED" => ["context_name", "content"]
  | _ => []

/-- The rule that an array describes: its type and then the values of its keys. -/
def ruleOfItems? : List Part → Option Rule
  | ⟨.string type, _, _⟩ :: values =>
    if (keysOf type).length = values.length then
      ruleOf? (("type", ⟨.string type, none, none⟩) :: (keysOf type).zip values)
    else none
  | _ => none

mutual

def of : Json → Part
  | .object members => ⟨.object members, ruleOf? (ofMembers members), none⟩
  | .array items =>
    let parts := ofItems items
    ⟨.array items, ruleOfItems? parts, parts.mapM rule⟩
  | v => ⟨v, none, none⟩

def ofItems : List Json → List Part
  | [] => []
  | item :: rest => of item :: ofItems rest

def ofMembers : List (String × Json) → List (String × Part)
  | [] => []
  | (key, value) :: rest => (key, of value) :: ofMembers rest

end

end Part

def Rule.ofJson? (v : Json) : Option Rule := (Part.of v).rule

namespace Grammar

def items? : Json → Option (List Json)
  | .array items => some items
  | _ => none

def string? : Json → Option String
  | .string s => some s
  | _ => none

def strings? (v : Json) : Option (List String) := (items? v).bind fun items => items.mapM string?

def rank? : Rule → Option Rank
  | .string n => some (.name n)
  | .symbol n => some (.rule n)
  | _ => none

def members? : Json → Option (List (String × Json))
  | .object members => some members
  | _ => none

/-- The keys that say something about a grammar, in the order in which an array gives their values. -/
def keys : List String :=
  ["name", "rules", "precedences", "conflicts", "externals", "extras", "inline", "supertypes", "reserved",
    "word"]

/-- How deep containers may stand in each other in the value of a key. -/
def depthLimit : Nat := 126

/-- The values of keys that say something, each key once. An array gives all of them; in an object there may
be others, which need not be sound. -/
def known? (v : Json) : Option (List (String × Json)) := do
  let members ← match v with
    | .object members => some (members.filter fun m => keys.contains m.1)
    | .array values => if values.length = keys.length then some (keys.zip values) else none
    | _ => none
  let found := members.map Prod.fst
  if found.eraseDups.length = found.length && members.all fun m => m.2.isSound depthLimit then some members
  else none

/-- The value of a key read by a function, or what stands for a missing one. A value that cannot be read is
refused. -/
def read? {α : Type} (members : List (String × Json)) (key : String) (missing : Option α)
    (f : Json → Option α) : Option α :=
  match members.lookup key with
  | some v => f v
  | none => missing

def ofJson? (v : Json) : Option Grammar := do
  let members ← known? v
  let name ← read? members "name" none string?
  let word ← read? members "word" (some none) fun w =>
    match w with
    | .null => some none
    | w => (string? w).map some
  let settledMembers (v : Json) := members? v.settled
  let rules ← read? members "rules" none fun v => do
    (← settledMembers v).mapM fun m => do return (m.1, ← Rule.ofJson? m.2)
  let extras ← read? members "extras" (some []) (Part.rules ∘ Part.of)
  let conflicts ← read? members "conflicts" (some []) fun v => do (← items? v).mapM strings?
  let precedences ← read? members "precedences" (some []) fun v => do
    (← items? v).mapM fun order => do (← (Part.of order).rules).mapM rank?
  let externals ← read? members "externals" (some []) (Part.rules ∘ Part.of)
  let inlined ← read? members "inline" (some []) strings?
  let supertypes ← read? members "supertypes" (some []) strings?
  let reserved ← read? members "reserved" (some []) fun v => do
    (← settledMembers v).mapM fun m => do return (m.1, ← (Part.of m.2).rules)
  return { name, word, rules, extras, conflicts, precedences, externals, inlined, supertypes, reserved }

/-! ## Comment lines -/

/-- A line that holds nothing but a comment: two slashes behind white space. -/
def isComment (line : List Char) : Bool :=
  "//".toList.isPrefixOf (line.dropWhile Text.isBlank)

/-- Empties the comment lines and the blank lines right before one; tells whether the first was emptied. -/
def emptyComments : List (List Char) → List (List Char) × Bool
  | [] => ([], false)
  | line :: rest =>
    let (more, emptied) := emptyComments rest
    if isComment line || (emptied && line.all Text.isBlank) then ([] :: more, true) else (line :: more, false)

def withoutComments (text : List Char) : List Char :=
  ['\n'].intercalate (emptyComments (Text.parts '\n' text)).1

def ofText? (text : List Char) : Option Grammar := (Json.ofText? (withoutComments text)).bind ofJson?

end Grammar

end DocComment
