import LaxJson.Checker.Document
import LaxJson.Lexer
import LaxJson.Tree.Assembly

/-!
# Parsers

A parser reads documents into trees, one input after another. The usual one has the
lexicon and the checker of documents; any other lexer will do, since the tree is assembled
without trust in what checked the tokens. Each input begins with a reset, so that nothing
of the last one is left.
-/
namespace LaxJson

/-- A lexer with a limit on the nesting of the trees built from its tokens. -/
structure Parser (V : Type) (R : Type := Recognizer) where
  lexer : Lexer V R
  maxDepth : Nat := Options.defaultDepth
deriving DecidableEq, Repr

/-- The parser of documents within the given options. -/
def Parser.ofOptions (options : Options := {}) : Parser DocumentChecker :=
  let maxDepth := Options.capDepth options.maxDepth
  { lexer := ⟨.ofOptions Lexicon.document options, some { maxDepth }⟩, maxDepth }

namespace Parser
variable {V W R : Type}

/-- The same parser with another limit on nesting, within what is supported. Its checker
keeps a limit of its own. -/
def withMaxDepth (p : Parser V R) (maxDepth : Nat) : Parser V R :=
  { p with maxDepth := Options.capDepth maxDepth }

def mapChecker (f : V → W) (p : Parser V R) : Parser W R := ⟨p.lexer.mapChecker f, p.maxDepth⟩

variable [Checker V] [Descriptor R]

/-- Fits the tokens of the input into an assembly, up to the end of the input or the first
fault. -/
def assemble (maxDepth : Nat) (a : Assembly) (l : Lexer V R) (input : Input) :
    Except ParseFault Tree × Lexer V R × Input :=
  match h : l.nextSignificant input with
  | (.error f, l', rest) => (.error (.ofToken f), l', rest)
  | (.ok none, l', rest) => (a.finish l'.position, l', rest)
  | (.ok (some t), l', rest) =>
    have : l'.weight rest < l.weight input := by
      have := Lexer.weight_nextSignificant_lt l input (by simp [h])
      rwa [h] at this
    match a.add maxDepth t with
    | .error f => (.error f, l', rest)
    | .ok a => assemble maxDepth a l' rest
termination_by l.weight input

/-- Reads one document, which is the whole of the input but for trivia. -/
def parse (p : Parser V R) (input : Input) : Except ParseFault Tree × Parser V R × Input :=
  match assemble p.maxDepth .document p.lexer.reset input with
  | (result, lexer, rest) => (result, { p with lexer }, rest)

end Parser

/-- Reads one document within the given options. -/
def parse (input : Input) (options : Options := {}) : Except ParseFault Tree :=
  ((Parser.ofOptions options).parse input).1

end LaxJson
