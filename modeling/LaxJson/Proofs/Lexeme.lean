import LaxJson.Token
import Mathlib.Data.List.Infix

/-!
# Lexemes and comments

The texts that tokens of a document may have, said without the machines that find them. A
string runs from a quotation mark through the first one that no backslash has taken, and a
block comment through its first `*/`. A line comment ends behind a newline; where the text
ends first there is none.
-/
namespace LaxJson

/-- At least one digit, and nothing else. -/
def IsDigits (text : List Char) : Prop := text ≠ [] ∧ ∀ c ∈ text, c.isDigit = true

/-- Texts of the form `-?digits`. -/
def IsInteger (text : List Char) : Prop :=
  ∃ sign digits, text = sign ++ digits ∧ (sign = [] ∨ sign = ['-']) ∧ IsDigits digits

/-- Texts of the form `.digits`. -/
def IsFraction (text : List Char) : Prop := ∃ digits, text = '.' :: digits ∧ IsDigits digits

/-- Texts of the form `[eE][+-]?digits`. -/
def IsExponent (text : List Char) : Prop :=
  ∃ mark sign digits, text = mark :: (sign ++ digits) ∧ (mark = 'e' ∨ mark = 'E') ∧
    (sign = [] ∨ sign = ['+'] ∨ sign = ['-']) ∧ IsDigits digits

/-- Texts of the form `-?digits(.digits)?([eE][+-]?digits)?` with a fraction or an exponent. -/
def IsReal (text : List Char) : Prop :=
  ∃ whole fraction exponent, text = whole ++ (fraction ++ exponent) ∧ IsInteger whole ∧
    (fraction = [] ∨ IsFraction fraction) ∧ (exponent = [] ∨ IsExponent exponent) ∧
    (fraction ≠ [] ∨ exponent ≠ [])

/-- What stands between the quotation marks of a string: a backslash takes any character,
and no other quotation mark is left. -/
inductive IsStringBody : List Char → Prop
  | nil : IsStringBody []
  | plain {c body} (hq : c ≠ '"') (hb : c ≠ '\\') (h : IsStringBody body) : IsStringBody (c :: body)
  | escape (c) {body} (h : IsStringBody body) : IsStringBody ('\\' :: c :: body)

def IsString (text : List Char) : Prop :=
  ∃ body, text = '"' :: (body ++ ['"']) ∧ IsStringBody body

/-- The lexemes of a kind of scalar. -/
def ScalarKind.Spells : ScalarKind → List Char → Prop
  | .string, text => IsString text
  | .integer, text => IsInteger text
  | .real, text => IsReal text
  | .boolean, text => text = "true".toList ∨ text = "false".toList
  | .null, text => text = "null".toList

/-- The lexemes of a role; only the roles of documents have any. -/
def Role.Spells : Role → List Char → Prop
  | .opening .object, text => text = ['{']
  | .closing .object, text => text = ['}']
  | .opening .array, text => text = ['[']
  | .closing .array, text => text = [']']
  | .separator, text => text = [',']
  | .assignment, text => text = [':']
  | .scalar kind, text => kind.Spells text
  | .word, _ | .comment, _ | .whiteSpace, _ | .custom _, _ => False

/-- A text in a part that it can play. -/
structure Lexeme where
  role : Role
  text : List Char
  spelled : role.Spells text

namespace Lexeme

def opening : Container → Lexeme
  | .object => ⟨.opening .object, ['{'], rfl⟩
  | .array => ⟨.opening .array, ['['], rfl⟩

def closing : Container → Lexeme
  | .object => ⟨.closing .object, ['}'], rfl⟩
  | .array => ⟨.closing .array, [']'], rfl⟩

def comma : Lexeme := ⟨.separator, [','], rfl⟩

def colon : Lexeme := ⟨.assignment, [':'], rfl⟩

end Lexeme

/-- A comment from `#` or `//` to the end of its line, which is not part of it. -/
def IsLineComment (text : List Char) : Prop :=
  ∃ line, '\n' ∉ line ∧ (text = '#' :: line ∨ text = '/' :: '/' :: line)

/-- A comment from `/*` through the first `*/` behind it. -/
def IsBlockComment (text : List Char) : Prop :=
  ∃ body, text = '/' :: '*' :: (body ++ ['*', '/']) ∧ ¬ ['*', '/'] <:+: body ++ ['*']

/-- A comment with its end. -/
def IsComment (text : List Char) : Prop :=
  IsBlockComment text ∨ ∃ line, IsLineComment line ∧ text = line ++ ['\n']

end LaxJson
