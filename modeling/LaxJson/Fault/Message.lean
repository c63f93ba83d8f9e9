import LaxJson.Fault
import LaxJson.Text.Quoted

/-!
# The words of faults

One sentence for each kind of fault. A sentence names the place it speaks of, and what it
cites from the input stands between quotation marks. A refusal has the same words
wherever it is met.
-/
namespace LaxJson
open Text

def ScanFault.message : ScanFault → String
  | noMatch c p => "no token type starts with " ++ Quoted.character c ++ " at " ++ p.message
  | incomplete role text span =>
    "incomplete " ++ role.message ++ " token " ++ Quoted.text text ++ " at " ++ span.message
  | tooLong limit p =>
    "input exceeds the limit of " ++ toString limit ++ " characters at " ++ p.message
  | unreadable _ p => "failed to read input at " ++ p.message

def Reason.message : Reason → String
  | noStart => "no valid start token: a document begins with an object, an array or a value"
  | afterScalar => "no token may follow a bare scalar document"
  | afterDocument => "no token may follow a complete document"
  | fieldName => "object field name must be a string"
  | missingAssignment => "expected ':' after object field name"
  | missingFieldValue => "expected an object, array or value for object field"
  | afterField => "expected field separator or closing brace"
  | missingElement => "expected an object, array or value as array element"
  | afterElement => "expected array separator or closing bracket"
  | tooDeep limit => "maximum nesting depth of " ++ toString limit ++ " exceeded"
  | other words => words

def Refusal.message (r : Refusal) : String := r.reason.message ++ " at " ++ r.span.message

def TokenFault.message : TokenFault → String
  | scan f => f.message
  | refused r => r.message

def ParseFault.message : ParseFault → String
  | scan f => f.message
  | refused r => r.message
  | unclosed container opened p =>
    "unexpected end of input at " ++ p.message ++ ": " ++ container.message ++
      " opened at " ++ opened.message ++ " is not closed"
  | noDocument p => "empty input at " ++ p.message
  | unexpected role text span =>
    "unexpected " ++ role.message ++ " token " ++ Quoted.text text ++ " at " ++ span.message

/-- The words for a kind of node, with its article. -/
def Shape.message : Shape → String
  | container .object => "an object"
  | container .array => "an array"
  | scalar => "a scalar"

def AccessFault.message : AccessFault → String
  | wrongShape expected found => "expected " ++ expected.message ++ " but found " ++ found.message
  | noField name => "no field named " ++ Quoted.text name
  | outOfRange index size found =>
    "index " ++ toString index ++ " is out of range: " ++ found.message ++
      " of length " ++ toString size
  | wrongKind expected found =>
    "expected a " ++ expected.message ++ " scalar but found " ++ found.message
  | notRepresentable text format => Quoted.text text ++ " is not representable as " ++ format

@[simp] theorem ParseFault.message_ofToken (f : TokenFault) :
    (ofToken f).message = f.message := by
  cases f <;> rfl

end LaxJson
