/-!
# Parts of a version

A part of a version is a number that fits in eight bits. It is read from decimal digits, which a plus sign
may precede; the first fault met from the left is the one reported.
-/

namespace DocComment

/-- Why a text is no part of a version. -/
inductive VersionFault where
  | empty
  | invalidDigit
  | overflow
  deriving DecidableEq

def VersionFault.message : VersionFault → String
  | .empty => "cannot parse integer from empty string"
  | .invalidDigit => "invalid digit found in string"
  | .overflow => "number too large to fit in target type"

/-- A version: three parts. -/
structure Version where
  major : UInt8
  minor : UInt8
  patch : UInt8
  deriving DecidableEq

namespace VersionPart

/-- The value of a decimal digit. -/
def digit? (c : Char) : Option Nat :=
  if '0' ≤ c && c ≤ '9' then some (c.toNat - '0'.toNat) else none

/-- Reads digits on from a number. A digit is looked at before the number it makes. -/
def readFrom (n : Nat) : List Char → Except VersionFault Nat
  | [] => .ok n
  | c :: rest =>
    match digit? c with
    | none => .error .invalidDigit
    | some d => if n * 10 + d < 256 then readFrom (n * 10 + d) rest else .error .overflow

/-- Reads a part of a version. A plus sign counts as a sign only if something follows it. -/
def read (text : List Char) : Except VersionFault UInt8 :=
  match text with
  | [] => .error .empty
  | '+' :: c :: rest => (readFrom 0 (c :: rest)).map UInt8.ofNat
  | text => (readFrom 0 text).map UInt8.ofNat

end VersionPart

end DocComment
