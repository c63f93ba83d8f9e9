/-!
# Input

An input is the list of what its reads will answer, one after another: a character,
or a failure after which reading may go on. Where the list ends, so does the input,
and every later read finds the end again.
-/
namespace LaxJson

/-- What a failed read complains of: bytes that are no text, or whatever else keeps a device
from answering. -/
inductive FailureKind
  | invalidData
  | other
deriving DecidableEq, Repr, Inhabited

/-- A read that brought no character, with the words of its complaint. -/
structure ReadFailure where
  kind : FailureKind
  message : String
deriving DecidableEq, Repr, Inhabited

/-- The answers that reads will get, in order. -/
abbrev Input := List (Except ReadFailure Char)

namespace Input

/-- The characters of a text, which no read fails on. -/
def ofChars (cs : List Char) : Input := cs.map .ok

def ofString (s : String) : Input := ofChars s.toList

@[simp] theorem ofChars_nil : ofChars [] = [] := rfl

@[simp] theorem ofChars_cons (c : Char) (cs : List Char) :
    ofChars (c :: cs) = .ok c :: ofChars cs := rfl

@[simp] theorem ofChars_append (cs ds : List Char) :
    ofChars (cs ++ ds) = ofChars cs ++ ofChars ds := by simp [ofChars]

@[simp] theorem length_ofChars (cs : List Char) : (ofChars cs).length = cs.length := by
  simp [ofChars]

end Input

end LaxJson
