import LaxJson.Token

/-!
# Document trees

A tree keeps the text of every scalar and of every field's name as it was read, with
quotation marks and escapes. An object is the list of its fields in the order of the
document, so a name may occur more than once. Trees are equal when they have the same
texts, kinds and places.
-/
namespace LaxJson

/-- A leaf: a token's text, what kind of value it is, and where it was read. -/
structure Scalar where
  raw : List Char
  kind : ScalarKind
  span : Span := {}
deriving DecidableEq, Repr

/-- An entry of an object, its name as it was read. -/
structure Field (α : Type) where
  rawName : List Char
  value : α
deriving DecidableEq, Repr

inductive Tree
  | scalar (leaf : Scalar)
  | object (fields : List (Field Tree))
  | array (elements : List Tree)
deriving Repr

namespace Tree

mutual

def decEq : (a b : Tree) → Decidable (a = b)
  | .scalar s, .scalar t =>
    if h : s = t then isTrue (by rw [h]) else isFalse (by simpa using h)
  | .object fs, .object gs =>
    match decEqFields fs gs with
    | isTrue h => isTrue (by rw [h])
    | isFalse h => isFalse (by simpa using h)
  | .array es, .array ds =>
    match decEqElements es ds with
    | isTrue h => isTrue (by rw [h])
    | isFalse h => isFalse (by simpa using h)
  | .scalar _, .object _ | .scalar _, .array _ | .object _, .scalar _ | .object _, .array _
  | .array _, .scalar _ | .array _, .object _ => isFalse nofun

def decEqFields : (as bs : List (Field Tree)) → Decidable (as = bs)
  | [], [] => isTrue rfl
  | [], _ :: _ | _ :: _, [] => isFalse nofun
  | ⟨m, a⟩ :: as, ⟨n, b⟩ :: bs =>
    if hn : m = n then
      match decEq a b with
      | isFalse h => isFalse (by simp [h])
      | isTrue h =>
        match decEqFields as bs with
        | isTrue hs => isTrue (by rw [hn, h, hs])
        | isFalse hs => isFalse (by simp [hs])
    else isFalse (by simp [hn])

def decEqElements : (as bs : List Tree) → Decidable (as = bs)
  | [], [] => isTrue rfl
  | [], _ :: _ | _ :: _, [] => isFalse nofun
  | a :: as, b :: bs =>
    match decEq a b with
    | isFalse h => isFalse (by simp [h])
    | isTrue h =>
      match decEqElements as bs with
      | isTrue hs => isTrue (by rw [h, hs])
      | isFalse hs => isFalse (by simp [hs])

end

instance : DecidableEq Tree := decEq

end Tree

end LaxJson
