import DocComment.Source.Glyph

/-!
# The classes of tags

The name of a tag tells what may follow it. Three lists name the tags that take one parameter, a list
of parameters, or a block of text; every other name is a plain one, which takes a block as well.
-/

namespace DocComment

/-- What the name of a tag asks for. -/
inductive TagClass where
  | single
  | multiple
  | block
  | plain
  deriving DecidableEq

namespace TagClass

/-- The names that belong to a class by being listed, each with its at sign. -/
def names : TagClass → List String
  | .single =>
    ["@param", "@slot", "@field", "@describeIn", "@templateVar", "@inheritDotParams", "@concept",
      "@family", "@example", "@inheritParams", "@order", "@rdname", "@includeRmd", "@template", "@backref"]
  | .multiple => ["@keywords", "@method", "@inherit", "@inheritSection", "@aliases"]
  | .block =>
    ["@description", "@examples", "@returns", "@return", "@title", "@details", "@rawRd", "@references",
      "@seealso", "@format", "@examplesIf", "@usage", "@source", "@evalRd", "@eval"]
  | .plain => []

/-- Whether a class lists a name. -/
def lists (c : TagClass) (name : List Glyph) : Bool :=
  c.names.any fun listed => Glyph.spell listed == name

/-- The class of a name: the one that lists the whole of it, or plain. -/
def ofName (name : List Glyph) : TagClass :=
  if single.lists name then .single
  else if multiple.lists name then .multiple
  else if block.lists name then .block
  else .plain

end TagClass

end DocComment
