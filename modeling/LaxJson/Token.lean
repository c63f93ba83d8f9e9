import LaxJson.Position

/-!
# Tokens

A token is a stretch of the input with the role it plays in a document. Comments and
white space are trivia: they separate tokens and mean nothing.
-/
namespace LaxJson

inductive ScalarKind
  | string | integer | real | boolean | null
deriving DecidableEq, Repr, Inhabited

inductive Container
  | object | array
deriving DecidableEq, Repr, Inhabited

/-- The part a token plays in a document. A bare word is no value of a document, and a custom
role is a part in some other grammar. -/
inductive Role
  | opening (container : Container)
  | closing (container : Container)
  | separator
  | assignment
  | scalar (kind : ScalarKind)
  | word
  | comment
  | whiteSpace
  | custom (tag : String)
deriving DecidableEq, Repr, Inhabited

inductive Category
  | comment | operand | operator | whiteSpace
deriving DecidableEq, Repr, Inhabited

def Category.isTrivia : Category → Bool
  | .comment | .whiteSpace => true
  | .operand | .operator => false

structure Token where
  category : Category
  role : Role
  text : List Char
  span : Span
deriving DecidableEq, Repr, Inhabited

/-- Trivia are told by their category alone, whatever their role says. -/
def Token.isTrivia (t : Token) : Bool := t.category.isTrivia

def Role.scalarKind? : Role → Option ScalarKind
  | .scalar kind => some kind
  | _ => none

def Role.isScalar (r : Role) : Bool := r.scalarKind?.isSome

def ScalarKind.message : ScalarKind → String
  | .string => "string"
  | .integer => "integer"
  | .real => "real"
  | .boolean => "boolean"
  | .null => "null"

def Container.message : Container → String
  | .object => "object"
  | .array => "array"

/-- The words for a role in a message; a tag stands for itself. -/
def Role.message : Role → String
  | .opening container => "start of " ++ container.message
  | .closing container => "end of " ++ container.message
  | .separator => "field separator"
  | .assignment => "field assignment"
  | .scalar kind => kind.message
  | .word => "identifier"
  | .comment => "comment"
  | .whiteSpace => "whitespace"
  | .custom tag => tag

@[simp] theorem Role.isScalar_eq_true_iff (r : Role) :
    r.isScalar = true ↔ ∃ kind, r = .scalar kind := by
  cases r <;> simp [isScalar, scalarKind?]

end LaxJson
