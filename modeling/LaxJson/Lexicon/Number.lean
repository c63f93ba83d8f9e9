import LaxJson.Token

/-!
# Numbers

A number is an optional minus, digits, an optional fraction and an optional exponent,
`-?digits(.digits)?([eE][+-]?digits)?`, with ASCII digits only. The machine stops where
none of these goes on; `isComplete` tells whether a digit was still owed.
-/
namespace LaxJson.Lexicon.Number

/-- How far a number has been read. A digit is owed behind the minus, the point and the mark or
the sign of an exponent. -/
inductive Stage
  | sign
  | integer
  | point
  | fraction
  | exponentMark
  | exponentSign
  | exponent
deriving DecidableEq, Repr

def first? (c : Char) : Option Stage :=
  if c = '-' then some .sign else if c.isDigit then some .integer else none

def Stage.digit : Stage → Stage
  | .sign | .integer => .integer
  | .point | .fraction => .fraction
  | .exponentMark | .exponentSign | .exponent => .exponent

def next? (s : Stage) (c : Char) : Option Stage :=
  if c.isDigit then some s.digit
  else match s with
    | .integer =>
      if c = '.' then some .point
      else if c = 'e' ∨ c = 'E' then some .exponentMark
      else none
    | .fraction => if c = 'e' ∨ c = 'E' then some .exponentMark else none
    | .exponentMark => if c = '+' ∨ c = '-' then some .exponentSign else none
    | .sign | .point | .exponentSign | .exponent => none

def isComplete : Stage → Bool
  | .integer | .fraction | .exponent => true
  | .sign | .point | .exponentMark | .exponentSign => false

/-- A number is an integer until its point or its exponent begins. -/
def kind : Stage → ScalarKind
  | .sign | .integer => .integer
  | .point | .fraction | .exponentMark | .exponentSign | .exponent => .real

end LaxJson.Lexicon.Number
