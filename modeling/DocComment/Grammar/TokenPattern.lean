import DocComment.Grammar.TokenPattern.Reading
import DocComment.Grammar.TokenPattern.Shape

/-!
# Patterns that describe tokens

A pattern in a grammar describes tokens if it is well formed and of a sound shape: it must not look around or
assert a place. The shorthands for digits, blanks and word characters stand for ASCII classes; they are expanded in
the text before it is read.
-/

namespace DocComment

namespace TokenPattern

/-- The class that a shorthand stands for. -/
def shorthand? : Char → Option String
  | 'w' => some "[0-9A-Za-z_]"
  | 's' => some "[\\t-\\r ]"
  | 'd' => some "[0-9]"
  | 'W' => some "[^0-9A-Za-z_]"
  | 'S' => some "[^\\t-\\r ]"
  | 'D' => some "[^0-9]"
  | _ => none

/-- The text with every shorthand replaced by its class. -/
def expandShorthands : List Char → List Char
  | [] => []
  | [c] => [c]
  | '\\' :: c :: rest =>
    match shorthand? c with
    | some cls => cls.toList ++ expandShorthands rest
    | none => '\\' :: expandShorthands (c :: rest)
  | c :: rest => c :: expandShorthands rest

/-- Whether a text describes tokens, in which letters may stand for both cases. -/
def isValid (text : String) (ignoresCase : Bool) : Bool :=
  match (ofText? (expandShorthands text.toList)).bind (shape ⟨'u' :: if ignoresCase then ['i'] else []⟩) with
  | some (s, _) => s.isSound
  | none => false

end TokenPattern

end DocComment
