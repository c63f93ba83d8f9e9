import LaxJson.Lexicon.Comment
import LaxJson.Lexicon.Descriptor
import LaxJson.Lexicon.Keyword
import LaxJson.Lexicon.Number
import LaxJson.Lexicon.Quotation
import LaxJson.Text.Alphanumeric
import LaxJson.Text.WhiteSpace

/-!
# Recognizers and lexicons

A recognizer knows one class of tokens and how far it has come with the token at hand:
`start` shows it the first character and `next?` each further one. It tells where a
token of its class can end, never whether a longer one was meant; that is settled
between the recognizers of a lexicon, in whose order ties are broken.
-/
namespace LaxJson
open Lexicon

/-- A class of tokens, with the stage of the token being read. The words of a keyword have all
one role, an identifier is a bare word, and a symbol a single character. -/
inductive Recognizer
  | lineComment (marker : LineComment.Marker) (stage : LineComment.Stage)
  | blockComment (stage : BlockComment.Stage)
  | whiteSpace
  | number (stage : Number.Stage)
  | keyword (words : List (List Char)) (role : Role) (stage : Keyword.Stage)
  | quotation (stage : Quotation.Stage)
  | identifier
  | symbol (char : Char) (role : Role)
deriving DecidableEq, Repr

namespace Recognizer

def isWordChar (c : Char) : Bool := Text.Alphanumeric.isAlphanumeric c || c == '_'

/-- The same class of tokens, with no token begun. -/
def fresh : Recognizer → Recognizer
  | lineComment marker _ => lineComment marker .body
  | blockComment _ => blockComment .opener
  | whiteSpace => whiteSpace
  | number _ => number .integer
  | keyword words role _ => keyword words role .idle
  | quotation _ => quotation .body
  | identifier => identifier
  | symbol char role => symbol char role

/-- The recognizer after the first character of a token, if a token can begin with it. It
does not matter what was read before. -/
def begin? (r : Recognizer) (c : Char) : Option Recognizer :=
  match r with
  | lineComment marker _ => (LineComment.first? marker c).map (lineComment marker)
  | blockComment _ => (BlockComment.first? c).map blockComment
  | whiteSpace => if Text.WhiteSpace.isBlank c then some whiteSpace else none
  | number _ => (Number.first? c).map number
  | keyword words role _ => (Keyword.first? words c).map (keyword words role)
  | quotation _ => (Quotation.first? c).map quotation
  | identifier => if isWordChar c then some identifier else none
  | symbol char role => if c = char then some (symbol char role) else none

/-- The recognizer after a first character that no token can begin with: a line comment
takes no notice of it, and every other class gives up the token at hand. -/
def refuse : Recognizer → Recognizer
  | lineComment marker stage => lineComment marker stage
  | r => r.fresh

/-- Whether a token can begin with `c`, and the recognizer after that question. -/
def start (r : Recognizer) (c : Char) : Bool × Recognizer :=
  match r.begin? c with
  | some r => (true, r)
  | none => (false, r.refuse)

/-- The recognizer after one more character, if the token at hand goes on with it. -/
def next? (r : Recognizer) (c : Char) : Option Recognizer :=
  match r with
  | lineComment marker stage => (LineComment.next? stage c).map (lineComment marker)
  | blockComment stage => (BlockComment.next? stage c).map blockComment
  | whiteSpace => if Text.WhiteSpace.isBlank c then some whiteSpace else none
  | number stage => (Number.next? stage c).map number
  | keyword words role stage => (Keyword.next? stage c).map (keyword words role)
  | quotation stage => (Quotation.next? stage c).map quotation
  | identifier => if isWordChar c then some identifier else none
  | symbol _ _ => none

/-- Whether the token at hand goes on with `c`, and the recognizer after that question,
which a refused character leaves as it was. -/
def extend (r : Recognizer) (c : Char) : Bool × Recognizer :=
  match r.next? c with
  | some r => (true, r)
  | none => (false, r)

def isComplete : Recognizer → Bool
  | lineComment _ stage => LineComment.isComplete stage
  | blockComment stage => BlockComment.isComplete stage
  | number stage => Number.isComplete stage
  | keyword _ _ stage => Keyword.isComplete stage
  | quotation stage => Quotation.isComplete stage
  | whiteSpace | identifier | symbol _ _ => true

def role : Recognizer → Role
  | lineComment _ _ | blockComment _ => .comment
  | whiteSpace => .whiteSpace
  | number stage => .scalar (Number.kind stage)
  | keyword _ role _ => role
  | quotation _ => .scalar .string
  | identifier => .word
  | symbol _ role => role

def category : Recognizer → Category
  | lineComment _ _ | blockComment _ => .comment
  | whiteSpace => .whiteSpace
  | number _ | keyword _ _ _ | quotation _ | identifier => .operand
  | symbol _ _ => .operator

instance : Descriptor Recognizer where
  init := fresh
  start := start
  extend := extend
  isComplete := isComplete
  role := role
  category := category

def hashComment : Recognizer := lineComment .hash .body

def slashComment : Recognizer := lineComment .doubleSlash .body

def enclosedComment : Recognizer := blockComment .opener

def anyNumber : Recognizer := number .integer

def anyOf (words : List String) (role : Role) : Recognizer :=
  keyword (words.map String.toList) role .idle

def boolean : Recognizer := anyOf ["true", "false"] (.scalar .boolean)

def null : Recognizer := anyOf ["null"] (.scalar .null)

def string : Recognizer := quotation .body

def comma : Recognizer := symbol ',' .separator

def colon : Recognizer := symbol ':' .assignment

def opening : Container → Recognizer
  | .object => symbol '{' (.opening .object)
  | .array => symbol '[' (.opening .array)

def closing : Container → Recognizer
  | .object => symbol '}' (.closing .object)
  | .array => symbol ']' (.closing .array)

@[simp] theorem begin?_fresh (r : Recognizer) (c : Char) : r.fresh.begin? c = r.begin? c := by
  cases r <;> rfl

@[simp] theorem extend_snd_of_refused {r : Recognizer} {c : Char} (h : (r.extend c).1 = false) :
    (r.extend c).2 = r := by
  rw [extend] at h ⊢
  cases hn : r.next? c with
  | none => rfl
  | some r' =>
    rw [hn] at h
    cases h

end Recognizer

/-- Classes of tokens, the preferred ones first. -/
abbrev Lexicon := List Recognizer

namespace Lexicon

/-- The lexicon of documents. Numbers and keywords stand before bare words, so that `123`
and `true` are a number and a keyword where `123abc` and `trueish` are bare words. -/
def document : Lexicon :=
  [.hashComment, .slashComment, .enclosedComment, .anyNumber, .boolean, .null, .comma, .colon,
    .string, .opening .object, .closing .object, .opening .array, .closing .array, .identifier]

end Lexicon

end LaxJson
