import LaxJson.Input
import LaxJson.Token

/-!
# Faults

What can go wrong, by cause: no token can be made of the characters (`ScanFault`), a
checker refuses a token (`Refusal`), no tree can be built (`ParseFault`), or a tree is
asked for what it does not hold (`AccessFault`). All but the last have a place in the
input, which is where the offending characters begin.
-/
namespace LaxJson

/-- A failure to make a token of the characters read: no class of tokens begins with one, the
token stopped before it was whole, the input is longer than the limit, or a read failed. -/
inductive ScanFault
  | noMatch (char : Char) (position : Position)
  | incomplete (role : Role) (text : List Char) (span : Span)
  | tooLong (limit : Nat) (position : Position)
  | unreadable (failure : ReadFailure) (position : Position)
deriving DecidableEq, Repr

/-- Why a checker refuses a token. Checkers other than that of documents have words of their
own. -/
inductive Reason
  | noStart
  | afterScalar
  | afterDocument
  | fieldName
  | missingAssignment
  | missingFieldValue
  | afterField
  | missingElement
  | afterElement
  | tooDeep (limit : Nat)
  | other (words : String)
deriving DecidableEq, Repr

/-- A token that is whole but may not stand where it does. -/
structure Refusal where
  reason : Reason
  span : Span
deriving DecidableEq, Repr

inductive TokenFault
  | scan (fault : ScanFault)
  | refused (refusal : Refusal)
deriving DecidableEq, Repr

/-- A failure to build a tree. The input may end inside a container, or hold no document, or a
token that nothing refused has no place in the tree. -/
inductive ParseFault
  | scan (fault : ScanFault)
  | refused (refusal : Refusal)
  | unclosed (container : Container) (opened position : Position)
  | noDocument (position : Position)
  | unexpected (role : Role) (text : List Char) (span : Span)
deriving DecidableEq, Repr

inductive Shape
  | container (kind : Container)
  | scalar
deriving DecidableEq, Repr

inductive AccessFault
  | wrongShape (expected found : Shape)
  | noField (name : List Char)
  | outOfRange (index size : Nat) (found : Shape)
  | wrongKind (expected found : ScalarKind)
  | notRepresentable (text : List Char) (format : String)
deriving DecidableEq, Repr

/-- Where the offending characters begin. -/
def ScanFault.position : ScanFault → Position
  | noMatch _ p | tooLong _ p | unreadable _ p => p
  | incomplete _ _ span => span.first

def Refusal.position (r : Refusal) : Position := r.span.first

@[inherit_doc ScanFault.position]
def TokenFault.position : TokenFault → Position
  | scan f => f.position
  | refused r => r.position

/-- Where the offending characters begin, or where the input ends. -/
def ParseFault.position : ParseFault → Position
  | scan f => f.position
  | refused r => r.position
  | unclosed _ _ p | noDocument p => p
  | unexpected _ _ span => span.first

def ParseFault.ofToken : TokenFault → ParseFault
  | .scan f => .scan f
  | .refused r => .refused r

def ParseFault.refusal? : ParseFault → Option Refusal
  | refused r => some r
  | _ => none

@[simp] theorem ParseFault.position_ofToken (f : TokenFault) :
    (ofToken f).position = f.position := by cases f <;> rfl

end LaxJson
