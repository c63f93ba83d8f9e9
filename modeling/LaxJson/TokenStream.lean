import LaxJson.Parser

/-!
# Token streams

A parser can also hand out the tokens of a document one by one, without building a tree.
The stream leaves out trivia and ends with the first fault; an input that ends inside a
container is such a fault, if the checker knows of the container.
-/
namespace LaxJson

/-- The tokens of one input on their way out of a parser. -/
structure TokenStream (V : Type) (R : Type := Recognizer) where
  parser : Parser V R
  input : Input
  finished : Bool := false
deriving Repr

/-- The tokens of an input, none of them read yet. -/
def Parser.tokens {V R : Type} [Checker V] [Descriptor R] (p : Parser V R) (input : Input) :
    TokenStream V R :=
  { parser := { p with lexer := p.lexer.reset }, input }

namespace TokenStream
variable {V R : Type} [Checker V] [Descriptor R]

def moveTo (s : TokenStream V R) (lexer : Lexer V R) (input : Input) (finished : Bool) :
    TokenStream V R :=
  { parser := { s.parser with lexer }, input, finished }

/-- The next token, or `none` when the stream is finished. -/
def next (s : TokenStream V R) : Option (Except ParseFault Token) × TokenStream V R :=
  if s.finished then (none, s)
  else match s.parser.lexer.nextSignificant s.input with
    | (.ok (some t), lexer, rest) => (some (.ok t), s.moveTo lexer rest false)
    | (.error f, lexer, rest) => (some (.error (.ofToken f)), s.moveTo lexer rest true)
    | (.ok none, lexer, rest) =>
      match lexer.unclosed? with
      | some (container, opened) =>
        (some (.error (.unclosed container opened lexer.position)), s.moveTo lexer rest true)
      | none => (none, s.moveTo lexer rest true)

@[simp] theorem next_of_finished {s : TokenStream V R} (h : s.finished = true) :
    s.next = (none, s) := by
  simp [next, h]

end TokenStream

end LaxJson
