/-!
# Quoted strings

A string runs from a double quotation mark through the next one that no backslash has
taken. What the escapes mean is of no concern here: a backslash takes any character.
-/
namespace LaxJson.Lexicon.Quotation

/-- An escape is a backslash that has not taken its character yet. -/
inductive Stage
  | body
  | escape
  | closed
deriving DecidableEq, Repr

def first? (c : Char) : Option Stage := if c = '"' then some .body else none

def next? : Stage → Char → Option Stage
  | .body, c =>
    if c = '\\' then some .escape else if c = '"' then some .closed else some .body
  | .escape, _ => some .body
  | .closed, _ => none

def isComplete : Stage → Bool
  | .closed => true
  | .body | .escape => false

end LaxJson.Lexicon.Quotation
