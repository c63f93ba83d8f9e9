/-!
# Reading options

The limits under which a document is read. `Options.deepest` caps every limit on
nesting, whatever is asked for.
-/
namespace LaxJson

namespace Options

def defaultDepth : Nat := 100

/-- The nesting beyond which no document is built. -/
def deepest : Nat := 512

def defaultMaxChars : Nat := 10 * 1024 * 1024

end Options

/-- What a reader allows: how many containers may be open at once, and how many characters
may be read, if there is a limit. White space that is not passed over is offered to the
lexicon like any text. -/
structure Options where
  maxDepth : Nat := Options.defaultDepth
  maxChars : Option Nat := some Options.defaultMaxChars
  skipWhiteSpace : Bool := true
deriving DecidableEq, Repr, Inhabited

namespace Options

/-- For trusted input: no limit on its length, and the deepest nesting. -/
def unlimited : Options := { maxDepth := deepest, maxChars := none }

/-- A limit on nesting, within what is supported. -/
def capDepth (depth : Nat) : Nat := min depth deepest

@[simp] theorem capDepth_le (depth : Nat) : capDepth depth ≤ deepest := Nat.min_le_right ..

end Options

end LaxJson
