import LaxJson.Decimal.Binary64
import LaxJson.Fault
import LaxJson.Text.Escape
import LaxJson.Tree.Basic

/-!
# Reading a tree

Questions to the nodes of a tree. What is asked of the wrong kind of node, or of a
scalar whose text has no such value, is an `AccessFault`.
-/
namespace LaxJson
open Text

namespace Scalar

/-- The text without the quotation marks of a string; escapes are left alone. -/
def text (s : Scalar) : List Char :=
  if s.kind = .string then Escape.unquote s.raw else s.raw

/-- The text with the simple escapes of a string decoded. -/
def unescaped (s : Scalar) : List Char :=
  if s.kind = .string then Escape.decode s.text else s.text

def expect (s : Scalar) (kind : ScalarKind) : Except AccessFault Unit :=
  if s.kind = kind then .ok () else .error (.wrongKind kind s.kind)

/-- The truth value of a boolean, which is false unless its text is `true`. -/
def asBool (s : Scalar) : Except AccessFault Bool := do
  s.expect .boolean
  return s.raw == ['t', 'r', 'u', 'e']

def asInt64 (s : Scalar) : Except AccessFault Int := do
  s.expect .integer
  match Decimal.integer? s.raw with
  | some n =>
    if Int64.minValue.toInt ≤ n ∧ n ≤ Int64.maxValue.toInt then return n
    else throw (.notRepresentable s.raw "i64")
  | none => throw (.notRepresentable s.raw "i64")

def asFloat (s : Scalar) : Except AccessFault Float := do
  if s.kind ≠ .integer then s.expect .real
  match (Decimal.real? s.raw).bind Decimal.Binary64.ofReal? with
  | some x => return x
  | none => throw (.notRepresentable s.raw "f64")

def isNull (s : Scalar) : Bool := s.kind == .null

end Scalar

def Field.name {α : Type} (f : Field α) : List Char := Escape.unquote f.rawName

namespace Tree

def shape : Tree → Shape
  | scalar _ => .scalar
  | object _ => .container .object
  | array _ => .container .array

def fields : Tree → Except AccessFault (List (Field Tree))
  | object fs => .ok fs
  | t => .error (.wrongShape (.container .object) t.shape)

def elements : Tree → Except AccessFault (List Tree)
  | array es => .ok es
  | t => .error (.wrongShape (.container .array) t.shape)

def asScalar : Tree → Except AccessFault Scalar
  | scalar s => .ok s
  | t => .error (.wrongShape .scalar t.shape)

/-- The value of the first field with the name. -/
def field (t : Tree) (name : List Char) : Except AccessFault Tree := do
  match (← t.fields).find? (·.name = name) with
  | some f => return f.value
  | none => throw (.noField name)

def hasField (t : Tree) (name : List Char) : Bool := (t.field name).isOk

def fieldAt (t : Tree) (index : Nat) : Except AccessFault (Field Tree) := do
  let fs ← t.fields
  match fs[index]? with
  | some f => return f
  | none => throw (.outOfRange index fs.length t.shape)

/-- The element with the index, counted from zero. A tree that is no array has no elements
for an index to be in the range of. -/
def element (t : Tree) (index : Nat) : Except AccessFault Tree :=
  let es := match t with
    | array es => es
    | scalar _ | object _ => []
  match es[index]? with
  | some e => .ok e
  | none => .error (.outOfRange index es.length t.shape)

/-- The number of fields or elements; a scalar counts as one. -/
def size : Tree → Nat
  | scalar _ => 1
  | object fs => fs.length
  | array es => es.length

def isEmpty (t : Tree) : Bool := t.size == 0

/-- A move from a node of a tree to the value of its first field with the name, or to that of
the field or the element with the index. -/
inductive Move
  | field (name : List Char)
  | fieldAt (index : Nat)
  | element (index : Nat)
deriving DecidableEq, Repr

/-- The node that a path leads to; the first move that is impossible is the fault. -/
def follow (t : Tree) : List Move → Except AccessFault Tree
  | [] => .ok t
  | .field name :: path => do (← t.field name).follow path
  | .fieldAt index :: path => do (← t.fieldAt index).value.follow path
  | .element index :: path => do (← t.element index).follow path

end Tree

end LaxJson
