import LaxJson.Proofs.Grammar.Reading
import LaxJson.Tree.Render

/-!
# Trees without places

`Tree.unplaced` forgets where the scalars of a tree were read and keeps everything else.
Trees that agree without places nest alike and are written alike, in every layout.
-/
namespace LaxJson

/-- The same scalar with no place of its own. -/
def Scalar.unplaced (leaf : Scalar) : Scalar := { leaf with span := {} }

namespace Tree

mutual

/-- The same tree with no places. -/
def unplaced : Tree → Tree
  | .scalar leaf => .scalar leaf.unplaced
  | .object fields => .object (unplacedFields fields)
  | .array elements => .array (unplacedElements elements)

def unplacedFields : List (Field Tree) → List (Field Tree)
  | [] => []
  | ⟨name, value⟩ :: fields => ⟨name, unplaced value⟩ :: unplacedFields fields

def unplacedElements : List Tree → List Tree
  | [] => []
  | value :: elements => unplaced value :: unplacedElements elements

end

mutual

theorem nesting_unplaced : ∀ tree : Tree, tree.unplaced.nesting = tree.nesting
  | .scalar _ => rfl
  | .object fields => by rw [unplaced, nesting, nesting, nestingFields_unplacedFields fields]
  | .array elements => by
    rw [unplaced, nesting, nesting, nestingElements_unplacedElements elements]

theorem nestingFields_unplacedFields :
    ∀ fields, nestingFields (unplacedFields fields) = nestingFields fields
  | [] => rfl
  | ⟨_, value⟩ :: fields => by
    rw [unplacedFields, nestingFields, nestingFields, nesting_unplaced value,
      nestingFields_unplacedFields fields]

theorem nestingElements_unplacedElements :
    ∀ elements, nestingElements (unplacedElements elements) = nestingElements elements
  | [] => rfl
  | value :: elements => by
    rw [unplacedElements, nestingElements, nestingElements, nesting_unplaced value,
      nestingElements_unplacedElements elements]

end

theorem nesting_eq_of_unplaced_eq {t u : Tree} (h : t.unplaced = u.unplaced) :
    t.nesting = u.nesting := by
  rw [← nesting_unplaced t, h, nesting_unplaced u]

section
variable (layout : Layout)

mutual

theorem render_unplaced : ∀ (depth : Nat) (tree : Tree),
    tree.unplaced.render layout depth = tree.render layout depth
  | _, .scalar _ => rfl
  | depth, .object fields => by
    rw [unplaced, render, render, renderFields_unplacedFields depth fields]
  | depth, .array elements => by
    rw [unplaced, render, render, renderElements_unplacedElements depth elements]

theorem renderFields_unplacedFields : ∀ (depth : Nat) (fields : List (Field Tree)),
    renderFields layout depth (unplacedFields fields) = renderFields layout depth fields
  | _, [] => rfl
  | depth, ⟨_, value⟩ :: fields => by
    rw [unplacedFields, renderFields, renderFields, render_unplaced (depth + 1) value,
      renderMoreFields_unplacedFields depth fields]

theorem renderMoreFields_unplacedFields : ∀ (depth : Nat) (fields : List (Field Tree)),
    renderMoreFields layout depth (unplacedFields fields) = renderMoreFields layout depth fields
  | _, [] => rfl
  | depth, ⟨_, value⟩ :: fields => by
    rw [unplacedFields, renderMoreFields, renderMoreFields, render_unplaced (depth + 1) value,
      renderMoreFields_unplacedFields depth fields]

theorem renderElements_unplacedElements : ∀ (depth : Nat) (elements : List Tree),
    renderElements layout depth (unplacedElements elements) = renderElements layout depth elements
  | _, [] => rfl
  | depth, value :: elements => by
    rw [unplacedElements, renderElements, renderElements, render_unplaced (depth + 1) value,
      renderMoreElements_unplacedElements depth elements]

theorem renderMoreElements_unplacedElements : ∀ (depth : Nat) (elements : List Tree),
    renderMoreElements layout depth (unplacedElements elements) =
      renderMoreElements layout depth elements
  | _, [] => rfl
  | depth, value :: elements => by
    rw [unplacedElements, renderMoreElements, renderMoreElements,
      render_unplaced (depth + 1) value, renderMoreElements_unplacedElements depth elements]

end

end

/-- What is written does not depend on places. -/
theorem render_eq_of_unplaced_eq {t u : Tree} (h : t.unplaced = u.unplaced) (layout : Layout)
    (depth : Nat) : t.render layout depth = u.render layout depth := by
  rw [← render_unplaced layout depth t, h, render_unplaced layout depth u]

end Tree

namespace Grammar

/-- What a phrase is read as from other terminals, up to places. -/
def Phrase.ReadAlike {β : Type} (B : Alphabet β) (us rest : List β) : Phrase → Prop
  | .value tree => ∃ tree', tree'.unplaced = tree.unplaced ∧ Reads B (.value tree') us rest
  | .fields fs => ∃ fs', Tree.unplacedFields fs' = Tree.unplacedFields fs ∧
      Reads B (.fields fs') us rest
  | .moreFields fs => ∃ fs', Tree.unplacedFields fs' = Tree.unplacedFields fs ∧
      Reads B (.moreFields fs') us rest
  | .elements es => ∃ es', Tree.unplacedElements es' = Tree.unplacedElements es ∧
      Reads B (.elements es') us rest
  | .moreElements es => ∃ es', Tree.unplacedElements es' = Tree.unplacedElements es ∧
      Reads B (.moreElements es') us rest

/-- Terminals that stand for the same are read as the same tree, up to places. -/
theorem Reads.readAlike {α β : Type} {A : Alphabet α} {B : Alphabet β} {R : α → β → Prop}
    (hsymbol : ∀ role a b, R a b → A.symbol role a → B.symbol role b)
    (hname : ∀ name a b, R a b → A.name name a → B.name name b)
    (hscalar : ∀ leaf a b, R a b → A.scalar leaf a →
      ∃ leaf', Scalar.unplaced leaf' = leaf.unplaced ∧ B.scalar leaf' b)
    {p : Phrase} {ts rest : List α} (h : Reads A p ts rest) {us : List β}
    (hu : List.Forall₂ R ts us) :
    ∃ rest', List.Forall₂ R rest rest' ∧ p.ReadAlike B us rest' := by
  induction h generalizing us with
  | scalar h =>
    cases hu with
    | cons hr hu =>
      obtain ⟨leaf', hleaf, hb⟩ := hscalar _ _ _ hr h
      exact ⟨_, hu, .scalar leaf', by rw [Tree.unplaced, Tree.unplaced, hleaf], .scalar hb⟩
  | object h _ ih =>
    cases hu with
    | cons hr hu =>
      obtain ⟨rest', hrest, fs, hfs, hread⟩ := ih hu
      exact ⟨rest', hrest, .object fs, by rw [Tree.unplaced, Tree.unplaced, hfs],
        .object (hsymbol _ _ _ hr h) hread⟩
  | array h _ ih =>
    cases hu with
    | cons hr hu =>
      obtain ⟨rest', hrest, es, hes, hread⟩ := ih hu
      exact ⟨rest', hrest, .array es, by rw [Tree.unplaced, Tree.unplaced, hes],
        .array (hsymbol _ _ _ hr h) hread⟩
  | noField h =>
    cases hu with
    | cons hr hu => exact ⟨_, hu, [], rfl, .noField (hsymbol _ _ _ hr h)⟩
  | field hn hc _ _ ihv ihm =>
    cases hu with
    | cons hr hu =>
      cases hu with
      | cons hr' hu =>
        obtain ⟨_, hmid, value, hvalue, hreadv⟩ := ihv hu
        obtain ⟨rest', hrest, fs, hfs, hreadm⟩ := ihm hmid
        refine ⟨rest', hrest, ⟨_, value⟩ :: fs, ?_,
          .field (hname _ _ _ hr hn) (hsymbol _ _ _ hr' hc) hreadv hreadm⟩
        rw [Tree.unplacedFields, Tree.unplacedFields, hvalue, hfs]
  | endFields h =>
    cases hu with
    | cons hr hu => exact ⟨_, hu, [], rfl, .endFields (hsymbol _ _ _ hr h)⟩
  | commaFields h _ ih =>
    cases hu with
    | cons hr hu =>
      obtain ⟨rest', hrest, fs, hfs, hread⟩ := ih hu
      exact ⟨rest', hrest, fs, hfs, .commaFields (hsymbol _ _ _ hr h) hread⟩
  | noElement h =>
    cases hu with
    | cons hr hu => exact ⟨_, hu, [], rfl, .noElement (hsymbol _ _ _ hr h)⟩
  | element _ _ ihv ihm =>
    obtain ⟨_, hmid, value, hvalue, hreadv⟩ := ihv hu
    obtain ⟨rest', hrest, es, hes, hreadm⟩ := ihm hmid
    refine ⟨rest', hrest, value :: es, ?_, .element hreadv hreadm⟩
    rw [Tree.unplacedElements, Tree.unplacedElements, hvalue, hes]
  | endElements h =>
    cases hu with
    | cons hr hu => exact ⟨_, hu, [], rfl, .endElements (hsymbol _ _ _ hr h)⟩
  | commaElements h _ ih =>
    cases hu with
    | cons hr hu =>
      obtain ⟨rest', hrest, es, hes, hread⟩ := ih hu
      exact ⟨rest', hrest, es, hes, .commaElements (hsymbol _ _ _ hr h) hread⟩

end Grammar

end LaxJson
