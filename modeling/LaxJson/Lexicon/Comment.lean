/-!
# Comments

A line comment runs from its marker through the next newline, or to the end of the
input. A block comment runs from `/*` through the first `*/`; it does not nest. Each
is a small machine: `next` gives the stage after one more character, or `none` if the
comment cannot take it.
-/
namespace LaxJson.Lexicon

namespace LineComment

inductive Marker
  | hash | doubleSlash
deriving DecidableEq, Repr

/-- The opener is the first of two slashes, and a comment is closed by its newline. -/
inductive Stage
  | opener
  | body
  | closed
deriving DecidableEq, Repr

def first? : Marker → Char → Option Stage
  | .hash, '#' => some .body
  | .doubleSlash, '/' => some .opener
  | _, _ => none

def next? : Stage → Char → Option Stage
  | .opener, c => if c = '/' then some .body else none
  | .body, c => if c = '\n' then some .closed else some .body
  | .closed, _ => none

/-- The end of the input may stand for the newline. -/
def isComplete : Stage → Bool
  | .opener => false
  | .body | .closed => true

end LineComment

namespace BlockComment

/-- The opener is the slash, which a star must follow, and a star is one that a slash may
follow. -/
inductive Stage
  | opener
  | body
  | star
  | closed
deriving DecidableEq, Repr

def first? (c : Char) : Option Stage := if c = '/' then some .opener else none

def next? : Stage → Char → Option Stage
  | .opener, c => if c = '*' then some .body else none
  | .body, c => if c = '*' then some .star else some .body
  | .star, c => if c = '*' then some .star else if c = '/' then some .closed else some .body
  | .closed, _ => none

def isComplete : Stage → Bool
  | .closed => true
  | .opener | .body | .star => false

end BlockComment

end LaxJson.Lexicon
