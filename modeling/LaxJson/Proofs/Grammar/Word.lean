import LaxJson.Token
import Mathlib.Data.List.Infix

/-!
# Words of the grammar of documents

A document seen through the roles of its tokens is a word of a context-free grammar. A
value is a scalar, an object of fields or an array of elements; commas stand between
fields and between elements, and one more comma may stand behind the last of them.
`NestsWithin` bounds how many containers are open at once, and one lemma for each kind of
role says how much room a token takes or gives back.
-/
namespace LaxJson

/-- Whether a token of the role opens a container. -/
def Role.isOpening : Role → Bool
  | .opening _ => true
  | _ => false

/-- Whether a token of the role closes a container. -/
def Role.isClosing : Role → Bool
  | .closing _ => true
  | _ => false

namespace Grammar

/-- What the grammar derives: a value, a field, or all the fields or elements of a
container that is not empty. -/
inductive Nonterminal
  | value | field | fields | elements

/-- The productions of the grammar. -/
inductive Generates : Nonterminal → List Role → Prop
  | scalar (kind : ScalarKind) : Generates .value [.scalar kind]
  | emptyObject : Generates .value [.opening .object, .closing .object]
  | object {w : List Role} (h : Generates .fields w) :
      Generates .value (.opening .object :: (w ++ [.closing .object]))
  | objectComma {w : List Role} (h : Generates .fields w) :
      Generates .value (.opening .object :: (w ++ [.separator, .closing .object]))
  | emptyArray : Generates .value [.opening .array, .closing .array]
  | array {w : List Role} (h : Generates .elements w) :
      Generates .value (.opening .array :: (w ++ [.closing .array]))
  | arrayComma {w : List Role} (h : Generates .elements w) :
      Generates .value (.opening .array :: (w ++ [.separator, .closing .array]))
  | field {w : List Role} (h : Generates .value w) :
      Generates .field (.scalar .string :: .assignment :: w)
  | oneField {w : List Role} (h : Generates .field w) : Generates .fields w
  | moreFields {u w : List Role} (hu : Generates .fields u) (hw : Generates .field w) :
      Generates .fields (u ++ .separator :: w)
  | oneElement {w : List Role} (h : Generates .value w) : Generates .elements w
  | moreElements {u w : List Role} (hu : Generates .elements u) (hw : Generates .value w) :
      Generates .elements (u ++ .separator :: w)

/-- A document is a single value. -/
def IsDocument (w : List Role) : Prop := Generates .value w

/-- At most `depth` of the brackets opened in any prefix of `w` are still open there. -/
def NestsWithin (depth : Nat) (w : List Role) : Prop :=
  ∀ u, u <+: w → u.countP Role.isOpening ≤ u.countP Role.isClosing + depth

@[simp] theorem nestsWithin_nil (depth : Nat) : NestsWithin depth [] := by
  intro u hu
  simp [List.prefix_nil.1 hu]

theorem NestsWithin.of_prefix {depth : Nat} {u w : List Role} (h : NestsWithin depth w)
    (hu : u <+: w) : NestsWithin depth u :=
  fun v hv => h v (hv.trans hu)

/-- The prefixes of a word that begins with `r` are the empty one and those that begin with
`r` as well. -/
theorem nestsWithin_cons (depth : Nat) (r : Role) (w : List Role) :
    NestsWithin depth (r :: w) ↔
      ∀ u, u <+: w → u.countP Role.isOpening + (if r.isOpening then 1 else 0) ≤
        u.countP Role.isClosing + (if r.isClosing then 1 else 0) + depth := by
  simp only [← List.countP_cons]
  constructor
  · intro h u hu
    exact h (r :: u) (List.cons_prefix_cons.2 ⟨rfl, hu⟩)
  · intro h u hu
    rcases List.prefix_cons_iff.1 hu with rfl | ⟨v, rfl, hv⟩
    · simp
    · exact h v hv

/-- An opening bracket takes room from what follows. -/
@[simp] theorem nestsWithin_opening (depth : Nat) (c : Container) (w : List Role) :
    NestsWithin depth (.opening c :: w) ↔ 0 < depth ∧ NestsWithin (depth - 1) w := by
  rw [nestsWithin_cons]
  simp only [Role.isOpening, Role.isClosing, if_true, Bool.false_eq_true, if_false]
  constructor
  · intro h
    have h0 := h [] (List.nil_prefix ..)
    simp only [List.countP_nil] at h0
    refine ⟨by omega, fun u hu => ?_⟩
    have hu := h u hu
    omega
  · rintro ⟨hpos, h⟩ u hu
    have hu := h u hu
    omega

/-- A closing bracket gives room back. -/
@[simp] theorem nestsWithin_closing (depth : Nat) (c : Container) (w : List Role) :
    NestsWithin depth (.closing c :: w) ↔ NestsWithin (depth + 1) w := by
  rw [nestsWithin_cons]
  simp only [Role.isOpening, Role.isClosing, if_true, Bool.false_eq_true, if_false]
  exact forall₂_congr fun u _ => by omega

/-- Other roles need no room. -/
theorem nestsWithin_of_not_bracket (depth : Nat) {r : Role} (ho : r.isOpening = false)
    (hc : r.isClosing = false) (w : List Role) :
    NestsWithin depth (r :: w) ↔ NestsWithin depth w := by
  rw [nestsWithin_cons]
  simp only [ho, hc, Bool.false_eq_true, if_false, Nat.add_zero, NestsWithin]

@[simp] theorem nestsWithin_scalar (depth : Nat) (kind : ScalarKind) (w : List Role) :
    NestsWithin depth (.scalar kind :: w) ↔ NestsWithin depth w :=
  nestsWithin_of_not_bracket depth rfl rfl w

@[simp] theorem nestsWithin_separator (depth : Nat) (w : List Role) :
    NestsWithin depth (.separator :: w) ↔ NestsWithin depth w :=
  nestsWithin_of_not_bracket depth rfl rfl w

@[simp] theorem nestsWithin_assignment (depth : Nat) (w : List Role) :
    NestsWithin depth (.assignment :: w) ↔ NestsWithin depth w :=
  nestsWithin_of_not_bracket depth rfl rfl w

/-- The tokens that have a part in the grammar. -/
def significant (ts : List Token) : List Token := ts.filter fun t => !t.isTrivia

/-- The word that tokens spell. -/
def roles (ts : List Token) : List Role := (significant ts).map Token.role

/-- The containers that are open behind a token, where `opened` are open before it, the
innermost first; each with the place of the token that opened it. -/
def track (opened : List (Container × Position)) (t : Token) : List (Container × Position) :=
  match t.role with
  | .opening c => (c, t.span.first) :: opened
  | .closing _ => opened.tail
  | _ => opened

/-- The containers that tokens open and do not close. -/
def stillOpen (ts : List Token) : List (Container × Position) := ts.foldl track []

/-- A word that opens nothing needs no room. -/
theorem nestsWithin_of_forall_not_opening (depth : Nat) {w : List Role}
    (h : ∀ r ∈ w, r.isOpening = false) : NestsWithin depth w := by
  intro u hu
  have hz : u.countP Role.isOpening = 0 :=
    List.countP_eq_zero.2 fun r hr => by simp [h r (hu.subset hr)]
  omega

end Grammar

end LaxJson
