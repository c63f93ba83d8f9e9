import LaxJson.Fault
import LaxJson.Tree.Basic

/-!
# Assembling a tree from tokens

An assembly is a tree in the making: the containers around the place that has been
reached, and what that place waits for. `add` fits one more token in, or tells why it
cannot; `finish` takes the tree when the tokens have ended. An assembly relies on nobody
to have checked the tokens before.
-/
namespace LaxJson

/-- A container around the value at hand, which in an object is that of the field `name`. The
finished entries are kept with the last one first. -/
inductive Enclosure
  | object (opened : Position) (fields : List (Field Tree)) (name : List Char)
  | array (opened : Position) (elements : List Tree)
deriving Repr

/-- What the place that has been reached waits for, inside the containers `outer`, the
innermost first. Their end may come in place of a name, an element or a comma. -/
inductive Assembly
  | document
  | fieldName (opened : Position) (fields : List (Field Tree)) (outer : List Enclosure)
  | assignment (opened : Position) (fields : List (Field Tree)) (name : List Char)
      (outer : List Enclosure)
  | fieldValue (opened : Position) (fields : List (Field Tree)) (name : List Char)
      (outer : List Enclosure)
  | afterField (opened : Position) (fields : List (Field Tree)) (outer : List Enclosure)
  | element (opened : Position) (elements : List Tree) (outer : List Enclosure)
  | afterElement (opened : Position) (elements : List Tree) (outer : List Enclosure)
  | complete (tree : Tree)
deriving Repr

namespace Assembly

def place (value : Tree) : List Enclosure → Assembly
  | [] => complete value
  | .object opened fields name :: outer => afterField opened (⟨name, value⟩ :: fields) outer
  | .array opened elements :: outer => afterElement opened (value :: elements) outer

def misplaced (t : Token) : ParseFault := .unexpected t.role t.text t.span

/-- Begins the value that is waited for inside `outer`, where no more than `maxDepth`
containers may be open. -/
def beginValue (maxDepth : Nat) (t : Token) (outer : List Enclosure) :
    Except ParseFault Assembly :=
  match t.role with
  | .opening container =>
    if maxDepth ≤ outer.length then .error (.refused ⟨.tooDeep maxDepth, t.span⟩)
    else match container with
      | .object => .ok (fieldName t.span.first [] outer)
      | .array => .ok (element t.span.first [] outer)
  | .scalar kind => .ok (place (.scalar ⟨t.text, kind, t.span⟩) outer)
  | _ => .error (misplaced t)

/-- Fits in one more token. -/
def add (maxDepth : Nat) (t : Token) : Assembly → Except ParseFault Assembly
  | document => beginValue maxDepth t []
  | fieldName opened fields outer =>
    match t.role with
    | .closing .object => .ok (place (.object fields.reverse) outer)
    | .scalar .string => .ok (assignment opened fields t.text outer)
    | _ => .error (misplaced t)
  | assignment opened fields name outer =>
    match t.role with
    | .assignment => .ok (fieldValue opened fields name outer)
    | _ => .error (misplaced t)
  | fieldValue opened fields name outer =>
    beginValue maxDepth t (.object opened fields name :: outer)
  | afterField opened fields outer =>
    match t.role with
    | .separator => .ok (fieldName opened fields outer)
    | .closing .object => .ok (place (.object fields.reverse) outer)
    | _ => .error (misplaced t)
  | element opened elements outer =>
    match t.role with
    | .closing .array => .ok (place (.array elements.reverse) outer)
    | _ => beginValue maxDepth t (.array opened elements :: outer)
  | afterElement opened elements outer =>
    match t.role with
    | .separator => .ok (element opened elements outer)
    | .closing .array => .ok (place (.array elements.reverse) outer)
    | _ => .error (misplaced t)
  | complete _ => .error (misplaced t)

/-- The tree, when the tokens end at `position`. -/
def finish (position : Position) : Assembly → Except ParseFault Tree
  | document => .error (.noDocument position)
  | fieldName opened _ _ | assignment opened _ _ _ | fieldValue opened _ _ _
  | afterField opened _ _ => .error (.unclosed .object opened position)
  | element opened _ _ | afterElement opened _ _ => .error (.unclosed .array opened position)
  | complete tree => .ok tree

@[simp] theorem add_complete (maxDepth : Nat) (t : Token) (tree : Tree) :
    add maxDepth t (complete tree) = .error (misplaced t) := rfl

end Assembly

end LaxJson
