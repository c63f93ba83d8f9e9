/-!
# Positions in a text

Lines and columns count from zero, and a newline is the last character of its line.
`Position.after` says where the character stands that follows a given text, and
`after_append_singleton` that a reader who moves on character by character agrees.
-/
namespace LaxJson

structure Position where
  line : Nat := 0
  column : Nat := 0
deriving DecidableEq, Repr, Inhabited

namespace Position

def start : Position := ⟨0, 0⟩

/-- The place of the character that follows `c`, where `c` stands at `p`. -/
def next (p : Position) (c : Char) : Position :=
  if c = '\n' then ⟨p.line + 1, 0⟩ else ⟨p.line, p.column + 1⟩

/-- The place of the character that follows the whole of `text`: the newlines in it, and
the characters behind the last of them. -/
def after (text : List Char) : Position :=
  ⟨text.count '\n', (text.reverse.takeWhile (· ≠ '\n')).length⟩

def message (p : Position) : String := s!"line {p.line}, column {p.column}"

@[simp] theorem after_nil : after [] = start := rfl

@[simp] theorem after_append_singleton (text : List Char) (c : Char) :
    after (text ++ [c]) = (after text).next c := by
  by_cases h : c = '\n'
  · subst h; simp [after, next]
  · simp [after, next, h]

end Position

/-- Earlier lines come first, and within a line earlier columns. -/
instance : Ord Position where
  compare p q := (compare p.line q.line).then (compare p.column q.column)

/-- The places of the first and the last character of a token. -/
structure Span where
  first : Position := .start
  last : Position := .start
deriving DecidableEq, Repr, Inhabited

/-- The words for a stretch of text in a message; one character needs one place. -/
def Span.message (s : Span) : String :=
  if s.first = s.last then s.first.message
  else s.first.message ++ " to " ++ s.last.message

end LaxJson
