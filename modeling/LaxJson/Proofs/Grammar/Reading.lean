import LaxJson.Proofs.Grammar.Word
import LaxJson.Tree.Basic
import Mathlib.Data.List.Forall2

/-!
# Reading trees off their tokens

`Reads A p ts rest` says that the phrase `p` of the grammar stands at the front of `ts` and
leaves `rest`. The phrases carry the trees they stand for, so that a reading is a parse tree
of what it consumes. What the terminals look like is left to the alphabet `A`: the same
grammar is read off tokens here and off lexemes where a text is rendered.

A word of roles is a document exactly when its tokens can be read as a tree, and the room
that the word needs is the nesting of the tree.
-/
namespace LaxJson

namespace Tree

mutual

/-- How many containers stand inside one another where they stand deepest. -/
def nesting : Tree → Nat
  | .scalar _ => 0
  | .object fields => nestingFields fields + 1
  | .array elements => nestingElements elements + 1

def nestingFields : List (Field Tree) → Nat
  | [] => 0
  | ⟨_, value⟩ :: fields => max (nesting value) (nestingFields fields)

def nestingElements : List Tree → Nat
  | [] => 0
  | value :: elements => max (nesting value) (nestingElements elements)

end

/-- What a tree holds besides its containers. -/
inductive Leaf
  | name (rawName : List Char)
  | scalar (leaf : Scalar)

mutual

/-- The names and scalars of a tree in the order of the document. -/
def leaves : Tree → List Leaf
  | .scalar leaf => [.scalar leaf]
  | .object fields => leavesFields fields
  | .array elements => leavesElements elements

def leavesFields : List (Field Tree) → List Leaf
  | [] => []
  | ⟨name, value⟩ :: fields => .name name :: (leaves value ++ leavesFields fields)

def leavesElements : List Tree → List Leaf
  | [] => []
  | value :: elements => leaves value ++ leavesElements elements

end

/-- A leaf keeps the text of its token, and a scalar the kind and the place as well. -/
def Leaf.Of : Leaf → Token → Prop
  | .name rawName, t => t.role = .scalar .string ∧ rawName = t.text
  | .scalar leaf, t => t.role = .scalar leaf.kind ∧ leaf.raw = t.text ∧ leaf.span = t.span

end Tree

namespace Grammar

/-- What stands for the terminals of the grammar. -/
structure Alphabet (α : Type) where
  /-- The brackets, the comma and the colon. -/
  symbol : Role → α → Prop
  name : List Char → α → Prop
  scalar : Scalar → α → Prop

/-- Tokens by their roles, whatever the texts of the symbols are. -/
def Alphabet.tokens : Alphabet Token where
  symbol role t := t.role = role
  name rawName t := (Tree.Leaf.name rawName).Of t
  scalar leaf t := (Tree.Leaf.scalar leaf).Of t

/-- What can be read: a value, or what is left of a container, its end included. -/
inductive Phrase
  | value (tree : Tree)
  | fields (fields : List (Field Tree))
  /-- The rest of an object that has a field already. -/
  | moreFields (fields : List (Field Tree))
  | elements (elements : List Tree)
  /-- The rest of an array that has an element already. -/
  | moreElements (elements : List Tree)

/-- Behind a comma an object or an array goes on as from its beginning, so that the comma
may be the last one. -/
inductive Reads {α : Type} (A : Alphabet α) : Phrase → List α → List α → Prop
  | scalar {leaf a rest} (h : A.scalar leaf a) : Reads A (.value (.scalar leaf)) (a :: rest) rest
  | object {fields a ts rest} (h : A.symbol (.opening .object) a)
      (hf : Reads A (.fields fields) ts rest) : Reads A (.value (.object fields)) (a :: ts) rest
  | array {elements a ts rest} (h : A.symbol (.opening .array) a)
      (he : Reads A (.elements elements) ts rest) :
      Reads A (.value (.array elements)) (a :: ts) rest
  | noField {a rest} (h : A.symbol (.closing .object) a) : Reads A (.fields []) (a :: rest) rest
  | field {name value fields a b ts us rest} (hn : A.name name a) (hc : A.symbol .assignment b)
      (hv : Reads A (.value value) ts us) (hm : Reads A (.moreFields fields) us rest) :
      Reads A (.fields (⟨name, value⟩ :: fields)) (a :: b :: ts) rest
  | endFields {a rest} (h : A.symbol (.closing .object) a) :
      Reads A (.moreFields []) (a :: rest) rest
  | commaFields {fields a ts rest} (h : A.symbol .separator a)
      (hf : Reads A (.fields fields) ts rest) : Reads A (.moreFields fields) (a :: ts) rest
  | noElement {a rest} (h : A.symbol (.closing .array) a) :
      Reads A (.elements []) (a :: rest) rest
  | element {value elements ts us rest} (hv : Reads A (.value value) ts us)
      (hm : Reads A (.moreElements elements) us rest) :
      Reads A (.elements (value :: elements)) ts rest
  | endElements {a rest} (h : A.symbol (.closing .array) a) :
      Reads A (.moreElements []) (a :: rest) rest
  | commaElements {elements a ts rest} (h : A.symbol .separator a)
      (he : Reads A (.elements elements) ts rest) : Reads A (.moreElements elements) (a :: ts) rest

section
variable {α : Type} {A : Alphabet α} {a : α} {ts rest : List α}

@[simp] theorem not_reads_nil (p : Phrase) : ¬ Reads A p [] rest := by
  intro h
  generalize ht : ([] : List α) = ts at h
  induction h with
  | element _ _ ihv _ => exact ihv ht
  | _ => cases ht

theorem reads_value_cons {tree : Tree} :
    Reads A (.value tree) (a :: ts) rest ↔
      (∃ leaf, tree = .scalar leaf ∧ A.scalar leaf a ∧ rest = ts) ∨
      (∃ fields, tree = .object fields ∧ A.symbol (.opening .object) a ∧
        Reads A (.fields fields) ts rest) ∨
      ∃ elements, tree = .array elements ∧ A.symbol (.opening .array) a ∧
        Reads A (.elements elements) ts rest := by
  constructor
  · intro h
    cases h with
    | scalar h => exact .inl ⟨_, rfl, h, rfl⟩
    | object h hf => exact .inr (.inl ⟨_, rfl, h, hf⟩)
    | array h he => exact .inr (.inr ⟨_, rfl, h, he⟩)
  · rintro (⟨_, rfl, h, rfl⟩ | ⟨_, rfl, h, hf⟩ | ⟨_, rfl, h, he⟩)
    · exact .scalar h
    · exact .object h hf
    · exact .array h he

theorem reads_fields_cons {fields : List (Field Tree)} :
    Reads A (.fields fields) (a :: ts) rest ↔
      (fields = [] ∧ A.symbol (.closing .object) a ∧ rest = ts) ∨
      ∃ name value more b us vs, fields = ⟨name, value⟩ :: more ∧ A.name name a ∧ ts = b :: us ∧
        A.symbol .assignment b ∧ Reads A (.value value) us vs ∧
        Reads A (.moreFields more) vs rest := by
  constructor
  · intro h
    cases h with
    | noField h => exact .inl ⟨rfl, h, rfl⟩
    | field hn hc hv hm => exact .inr ⟨_, _, _, _, _, _, rfl, hn, rfl, hc, hv, hm⟩
  · rintro (⟨rfl, h, rfl⟩ | ⟨_, _, _, _, _, _, rfl, hn, rfl, hc, hv, hm⟩)
    · exact .noField h
    · exact .field hn hc hv hm

theorem reads_moreFields_cons {fields : List (Field Tree)} :
    Reads A (.moreFields fields) (a :: ts) rest ↔
      (fields = [] ∧ A.symbol (.closing .object) a ∧ rest = ts) ∨
      (A.symbol .separator a ∧ Reads A (.fields fields) ts rest) := by
  constructor
  · intro h
    cases h with
    | endFields h => exact .inl ⟨rfl, h, rfl⟩
    | commaFields h hf => exact .inr ⟨h, hf⟩
  · rintro (⟨rfl, h, rfl⟩ | ⟨h, hf⟩)
    · exact .endFields h
    · exact .commaFields h hf

theorem reads_elements_cons {elements : List Tree} :
    Reads A (.elements elements) (a :: ts) rest ↔
      (elements = [] ∧ A.symbol (.closing .array) a ∧ rest = ts) ∨
      ∃ value more us, elements = value :: more ∧ Reads A (.value value) (a :: ts) us ∧
        Reads A (.moreElements more) us rest := by
  constructor
  · intro h
    cases h with
    | noElement h => exact .inl ⟨rfl, h, rfl⟩
    | element hv hm => exact .inr ⟨_, _, _, rfl, hv, hm⟩
  · rintro (⟨rfl, h, rfl⟩ | ⟨_, _, _, rfl, hv, hm⟩)
    · exact .noElement h
    · exact .element hv hm

theorem reads_moreElements_cons {elements : List Tree} :
    Reads A (.moreElements elements) (a :: ts) rest ↔
      (elements = [] ∧ A.symbol (.closing .array) a ∧ rest = ts) ∨
      (A.symbol .separator a ∧ Reads A (.elements elements) ts rest) := by
  constructor
  · intro h
    cases h with
    | endElements h => exact .inl ⟨rfl, h, rfl⟩
    | commaElements h he => exact .inr ⟨h, he⟩
  · rintro (⟨rfl, h, rfl⟩ | ⟨h, he⟩)
    · exact .endElements h
    · exact .commaElements h he

end

section
variable {t : Token} {ts rest : List Token}

theorem reads_value_of_scalar {kind : ScalarKind} (h : t.role = .scalar kind) {tree : Tree} :
    Reads .tokens (.value tree) (t :: ts) rest ↔
      tree = .scalar ⟨t.text, kind, t.span⟩ ∧ rest = ts := by
  simp only [reads_value_cons, Alphabet.tokens, Tree.Leaf.Of, h, reduceCtorEq, false_and,
    and_false, exists_false, or_false, Role.scalar.injEq]
  constructor
  · rintro ⟨leaf, rfl, ⟨rfl, hraw, hspan⟩, rfl⟩
    rw [← hraw, ← hspan]
    exact ⟨rfl, rfl⟩
  · rintro ⟨rfl, rfl⟩
    exact ⟨_, rfl, ⟨rfl, rfl, rfl⟩, rfl⟩

theorem reads_value_of_object (h : t.role = .opening .object) {tree : Tree} :
    Reads .tokens (.value tree) (t :: ts) rest ↔
      ∃ fields, tree = .object fields ∧ Reads .tokens (.fields fields) ts rest := by
  simp [reads_value_cons, Alphabet.tokens, Tree.Leaf.Of, h]

theorem reads_value_of_array (h : t.role = .opening .array) {tree : Tree} :
    Reads .tokens (.value tree) (t :: ts) rest ↔
      ∃ elements, tree = .array elements ∧ Reads .tokens (.elements elements) ts rest := by
  simp [reads_value_cons, Alphabet.tokens, Tree.Leaf.Of, h]

theorem reads_fields_of_name (h : t.role = .scalar .string) {fields : List (Field Tree)} :
    Reads .tokens (.fields fields) (t :: ts) rest ↔
      ∃ value more b us vs, fields = ⟨t.text, value⟩ :: more ∧ ts = b :: us ∧
        b.role = .assignment ∧ Reads .tokens (.value value) us vs ∧
        Reads .tokens (.moreFields more) vs rest := by
  simp [reads_fields_cons, Alphabet.tokens, Tree.Leaf.Of, h]

theorem reads_fields_of_closing (h : t.role = .closing .object) {fields : List (Field Tree)} :
    Reads .tokens (.fields fields) (t :: ts) rest ↔ fields = [] ∧ rest = ts := by
  simp [reads_fields_cons, Alphabet.tokens, Tree.Leaf.Of, h]

theorem reads_moreFields_of_closing (h : t.role = .closing .object)
    {fields : List (Field Tree)} :
    Reads .tokens (.moreFields fields) (t :: ts) rest ↔ fields = [] ∧ rest = ts := by
  simp [reads_moreFields_cons, Alphabet.tokens, h]

theorem reads_moreFields_of_separator (h : t.role = .separator) {fields : List (Field Tree)} :
    Reads .tokens (.moreFields fields) (t :: ts) rest ↔
      Reads .tokens (.fields fields) ts rest := by
  simp [reads_moreFields_cons, Alphabet.tokens, h]

theorem reads_elements_of_closing (h : t.role = .closing .array) {elements : List Tree} :
    Reads .tokens (.elements elements) (t :: ts) rest ↔ elements = [] ∧ rest = ts := by
  simp [reads_elements_cons, reads_value_cons, Alphabet.tokens, Tree.Leaf.Of, h]

theorem reads_elements_of_value (h : t.role ≠ .closing .array) {elements : List Tree} :
    Reads .tokens (.elements elements) (t :: ts) rest ↔
      ∃ value more us, elements = value :: more ∧ Reads .tokens (.value value) (t :: ts) us ∧
        Reads .tokens (.moreElements more) us rest := by
  simp [reads_elements_cons, Alphabet.tokens, h]

theorem reads_moreElements_of_closing (h : t.role = .closing .array) {elements : List Tree} :
    Reads .tokens (.moreElements elements) (t :: ts) rest ↔ elements = [] ∧ rest = ts := by
  simp [reads_moreElements_cons, Alphabet.tokens, h]

theorem reads_moreElements_of_separator (h : t.role = .separator) {elements : List Tree} :
    Reads .tokens (.moreElements elements) (t :: ts) rest ↔
      Reads .tokens (.elements elements) ts rest := by
  simp [reads_moreElements_cons, Alphabet.tokens, h]

end

/-- What the roles of a phrase add up to, seen from the container they are part of. -/
def Phrase.Yields : Phrase → List Role → Prop
  | .value _, w => Generates .value w
  | .fields _, w => Generates .value (.opening .object :: w) ∧
      ∀ u, Generates .fields u → Generates .value (.opening .object :: (u ++ .separator :: w))
  | .moreFields _, w =>
      ∀ u, Generates .fields u → Generates .value (.opening .object :: (u ++ w))
  | .elements _, w => Generates .value (.opening .array :: w) ∧
      ∀ u, Generates .elements u → Generates .value (.opening .array :: (u ++ .separator :: w))
  | .moreElements _, w =>
      ∀ u, Generates .elements u → Generates .value (.opening .array :: (u ++ w))

/-- The tokens that a reading consumes have the roles of a word of the grammar. -/
theorem Reads.exists_append {p : Phrase} {ts rest : List Token} (h : Reads .tokens p ts rest) :
    ∃ us, ts = us ++ rest ∧ p.Yields (us.map Token.role) := by
  induction h with
  | @scalar leaf t rest h =>
    refine ⟨[t], rfl, ?_⟩
    simpa [Phrase.Yields, h.1] using Generates.scalar leaf.kind
  | @object fields t ts rest h _ ih =>
    obtain ⟨us, rfl, hu⟩ := ih
    have h : t.role = .opening .object := h
    exact ⟨t :: us, rfl, by simpa [Phrase.Yields, h] using hu.1⟩
  | @array elements t ts rest h _ ih =>
    obtain ⟨us, rfl, hu⟩ := ih
    have h : t.role = .opening .array := h
    exact ⟨t :: us, rfl, by simpa [Phrase.Yields, h] using hu.1⟩
  | @noField t rest h =>
    have h : t.role = .closing .object := h
    refine ⟨[t], rfl, ?_, fun u hu => ?_⟩
    · simpa [h] using Generates.emptyObject
    · simpa [h] using Generates.objectComma hu
  | @field name value fields t s ts us rest hn hc _ _ ihv ihm =>
    obtain ⟨vs, rfl, hvs⟩ := ihv
    obtain ⟨ws, rfl, hws⟩ := ihm
    have hc : s.role = .assignment := hc
    have hfield := Generates.field hvs
    refine ⟨t :: s :: (vs ++ ws), by simp, ?_, fun u hu => ?_⟩
    · simpa [hn.1, hc] using hws _ (.oneField hfield)
    · simpa [hn.1, hc] using hws _ (.moreFields hu hfield)
  | @endFields t rest h =>
    have h : t.role = .closing .object := h
    exact ⟨[t], rfl, fun u hu => by simpa [h] using Generates.object hu⟩
  | @commaFields fields t ts rest h _ ih =>
    obtain ⟨us, rfl, hu⟩ := ih
    have h : t.role = .separator := h
    exact ⟨t :: us, rfl, fun u hf => by simpa [h] using hu.2 u hf⟩
  | @noElement t rest h =>
    have h : t.role = .closing .array := h
    refine ⟨[t], rfl, ?_, fun u hu => ?_⟩
    · simpa [h] using Generates.emptyArray
    · simpa [h] using Generates.arrayComma hu
  | element _ _ ihv ihm =>
    obtain ⟨vs, rfl, hvs⟩ := ihv
    obtain ⟨ws, rfl, hws⟩ := ihm
    refine ⟨vs ++ ws, by simp, ?_, fun u hu => ?_⟩
    · simpa using hws _ (.oneElement hvs)
    · simpa using hws _ (.moreElements hu hvs)
  | @endElements t rest h =>
    have h : t.role = .closing .array := h
    exact ⟨[t], rfl, fun u hu => by simpa [h] using Generates.array hu⟩
  | @commaElements elements t ts rest h _ ih =>
    obtain ⟨us, rfl, hu⟩ := ih
    have h : t.role = .separator := h
    exact ⟨t :: us, rfl, fun u he => by simpa [h] using hu.2 u he⟩

/-- What tokens with the roles of a word can be read as: a value, or entries of a container
in front of what is left of it. -/
def Nonterminal.Readable : Nonterminal → List Token → Prop
  | .value, us => ∀ rest, ∃ tree, Reads .tokens (.value tree) (us ++ rest) rest
  | .field, us | .fields, us => ∀ more ts rest, Reads .tokens (.moreFields more) ts rest →
      ∃ fields, Reads .tokens (.fields fields) (us ++ ts) rest
  | .elements, us => ∀ more ts rest, Reads .tokens (.moreElements more) ts rest →
      ∃ elements, Reads .tokens (.elements elements) (us ++ ts) rest

theorem Generates.readable {n : Nonterminal} {w : List Role} (h : Generates n w) :
    ∀ us : List Token, us.map Token.role = w → n.Readable us := by
  induction h with
  | scalar kind =>
    intro us hus rest
    obtain ⟨t, rfl, ht⟩ := List.map_eq_singleton_iff.1 hus
    exact ⟨.scalar ⟨t.text, kind, t.span⟩, .scalar ⟨ht, rfl, rfl⟩⟩
  | emptyObject =>
    intro us hus rest
    obtain ⟨o, _, rfl, ho, hus⟩ := List.map_eq_cons_iff.1 hus
    obtain ⟨c, rfl, hc⟩ := List.map_eq_singleton_iff.1 hus
    exact ⟨.object [], .object ho (.noField hc)⟩
  | object _ ih =>
    intro us hus rest
    obtain ⟨o, _, rfl, ho, hus⟩ := List.map_eq_cons_iff.1 hus
    obtain ⟨us, _, rfl, hw, hcs⟩ := List.map_eq_append_iff.1 hus
    obtain ⟨c, rfl, hc⟩ := List.map_eq_singleton_iff.1 hcs
    obtain ⟨fields, hf⟩ := ih us hw [] (c :: rest) rest (.endFields hc)
    exact ⟨.object fields, by simpa using Reads.object (A := .tokens) ho hf⟩
  | objectComma _ ih =>
    intro us hus rest
    obtain ⟨o, _, rfl, ho, hus⟩ := List.map_eq_cons_iff.1 hus
    obtain ⟨us, _, rfl, hw, hsc⟩ := List.map_eq_append_iff.1 hus
    obtain ⟨s, _, rfl, hs, hcs⟩ := List.map_eq_cons_iff.1 hsc
    obtain ⟨c, rfl, hc⟩ := List.map_eq_singleton_iff.1 hcs
    obtain ⟨fields, hf⟩ := ih us hw [] (s :: c :: rest) rest (.commaFields hs (.noField hc))
    exact ⟨.object fields, by simpa using Reads.object (A := .tokens) ho hf⟩
  | emptyArray =>
    intro us hus rest
    obtain ⟨o, _, rfl, ho, hus⟩ := List.map_eq_cons_iff.1 hus
    obtain ⟨c, rfl, hc⟩ := List.map_eq_singleton_iff.1 hus
    exact ⟨.array [], .array ho (.noElement hc)⟩
  | array _ ih =>
    intro us hus rest
    obtain ⟨o, _, rfl, ho, hus⟩ := List.map_eq_cons_iff.1 hus
    obtain ⟨us, _, rfl, hw, hcs⟩ := List.map_eq_append_iff.1 hus
    obtain ⟨c, rfl, hc⟩ := List.map_eq_singleton_iff.1 hcs
    obtain ⟨elements, he⟩ := ih us hw [] (c :: rest) rest (.endElements hc)
    exact ⟨.array elements, by simpa using Reads.array (A := .tokens) ho he⟩
  | arrayComma _ ih =>
    intro us hus rest
    obtain ⟨o, _, rfl, ho, hus⟩ := List.map_eq_cons_iff.1 hus
    obtain ⟨us, _, rfl, hw, hsc⟩ := List.map_eq_append_iff.1 hus
    obtain ⟨s, _, rfl, hs, hcs⟩ := List.map_eq_cons_iff.1 hsc
    obtain ⟨c, rfl, hc⟩ := List.map_eq_singleton_iff.1 hcs
    obtain ⟨elements, he⟩ :=
      ih us hw [] (s :: c :: rest) rest (.commaElements hs (.noElement hc))
    exact ⟨.array elements, by simpa using Reads.array (A := .tokens) ho he⟩
  | field _ ih =>
    intro us hus more ts rest hm
    obtain ⟨n, _, rfl, hn, hus⟩ := List.map_eq_cons_iff.1 hus
    obtain ⟨s, us, rfl, hs, hw⟩ := List.map_eq_cons_iff.1 hus
    obtain ⟨value, hv⟩ := ih us hw ts
    exact ⟨_, .field ⟨hn, rfl⟩ hs hv hm⟩
  | oneField _ ih => exact ih
  | moreFields _ _ ihu ihw =>
    intro us hus more ts rest hm
    obtain ⟨us, _, rfl, hu, hsw⟩ := List.map_eq_append_iff.1 hus
    obtain ⟨s, ws, rfl, hs, hw⟩ := List.map_eq_cons_iff.1 hsw
    obtain ⟨fields, hf⟩ := ihw ws hw more ts rest hm
    simpa using ihu us hu fields (s :: (ws ++ ts)) rest (.commaFields hs hf)
  | oneElement _ ih =>
    intro us hus more ts rest hm
    obtain ⟨value, hv⟩ := ih us hus ts
    exact ⟨_, .element hv hm⟩
  | moreElements _ _ ihu ihw =>
    intro us hus more ts rest hm
    obtain ⟨us, _, rfl, hu, hsw⟩ := List.map_eq_append_iff.1 hus
    obtain ⟨s, ws, rfl, hs, hw⟩ := List.map_eq_cons_iff.1 hsw
    obtain ⟨value, hv⟩ := ihw ws hw ts
    simpa using ihu us hu _ (s :: (ws ++ ts)) rest (.commaElements hs (.element hv hm))

/-- Tokens are those of a tree when their roles are a document. -/
theorem isDocument_iff_exists_reads (ts : List Token) :
    IsDocument (ts.map Token.role) ↔ ∃ tree, Reads .tokens (.value tree) ts [] := by
  constructor
  · intro h
    obtain ⟨tree, ht⟩ := h.readable ts rfl []
    exact ⟨tree, by simpa using ht⟩
  · rintro ⟨tree, h⟩
    obtain ⟨us, rfl, hu⟩ := h.exists_append
    simpa [IsDocument, Phrase.Yields] using hu

/-- The names and scalars of a phrase in the order of the document. -/
def Phrase.leaves : Phrase → List Tree.Leaf
  | .value tree => tree.leaves
  | .fields fs | .moreFields fs => Tree.leavesFields fs
  | .elements es | .moreElements es => Tree.leavesElements es

/-- The tokens of names and scalars; no other token has the role of a scalar. -/
def scalarTokens (ts : List Token) : List Token := ts.filter (·.role.isScalar)

theorem scalarTokens_cons_of_isScalar {t : Token} {kind : ScalarKind} (h : t.role = .scalar kind)
    (ts : List Token) : scalarTokens (t :: ts) = t :: scalarTokens ts := by
  simp [scalarTokens, h]

theorem scalarTokens_cons_of_not_isScalar {t : Token} (h : t.role.isScalar = false)
    (ts : List Token) : scalarTokens (t :: ts) = scalarTokens ts := by
  simp [scalarTokens, h]

/-- No leaf is lost, added or moved, whatever follows the phrase. -/
theorem Reads.leaves {p : Phrase} {ts rest : List Token} (h : Reads .tokens p ts rest) :
    ∀ ls, List.Forall₂ Tree.Leaf.Of ls (scalarTokens rest) →
      List.Forall₂ Tree.Leaf.Of (p.leaves ++ ls) (scalarTokens ts) := by
  induction h with
  | scalar h =>
    intro ls hl
    rw [scalarTokens_cons_of_isScalar h.1]
    exact .cons h hl
  | object h _ ih | array h _ ih | commaFields h _ ih | commaElements h _ ih =>
    intro ls hl
    rw [scalarTokens_cons_of_not_isScalar (by rw [h]; rfl)]
    exact ih ls hl
  | noField h | endFields h | noElement h | endElements h =>
    intro ls hl
    rw [scalarTokens_cons_of_not_isScalar (by rw [h]; rfl)]
    exact hl
  | field hn hc _ _ ihv ihm =>
    intro ls hl
    rw [scalarTokens_cons_of_isScalar hn.1,
      scalarTokens_cons_of_not_isScalar (by rw [hc]; rfl)]
    rw [Phrase.leaves, Tree.leavesFields, List.cons_append, List.append_assoc]
    exact .cons hn (ihv _ (ihm ls hl))
  | element _ _ ihv ihm =>
    intro ls hl
    rw [Phrase.leaves, Tree.leavesElements, List.append_assoc]
    exact ihv _ (ihm ls hl)

/-- A container takes room for itself and what is in it, and gives it all back. -/
theorem nestsWithin_around (depth n : Nat) (w : List Role) :
    0 < depth ∧ n ≤ depth - 1 ∧ NestsWithin (depth - 1 + 1) w ↔
      n + 1 ≤ depth ∧ NestsWithin depth w := by
  constructor
  · intro ⟨hpos, hle, hw⟩
    rw [Nat.sub_add_cancel hpos] at hw
    exact ⟨by omega, hw⟩
  · intro ⟨hle, hw⟩
    have hpos : 0 < depth := by omega
    rw [Nat.sub_add_cancel hpos]
    exact ⟨hpos, by omega, hw⟩

/-- How a phrase changes the room for what follows it. -/
def Phrase.FitsIn (depth : Nat) (w w' : List Role) : Phrase → Prop
  | .value tree => NestsWithin depth w ↔ tree.nesting ≤ depth ∧ NestsWithin depth w'
  | .fields fs | .moreFields fs =>
      NestsWithin depth w ↔ Tree.nestingFields fs ≤ depth ∧ NestsWithin (depth + 1) w'
  | .elements es | .moreElements es =>
      NestsWithin depth w ↔ Tree.nestingElements es ≤ depth ∧ NestsWithin (depth + 1) w'

theorem Reads.fitsIn {p : Phrase} {ts rest : List Token} (h : Reads .tokens p ts rest) :
    ∀ depth, p.FitsIn depth (ts.map Token.role) (rest.map Token.role) := by
  induction h with
  | scalar h =>
    intro depth
    simp [Phrase.FitsIn, Tree.nesting, h.1]
  | @object fields t ts rest h _ ih =>
    intro depth
    have h : t.role = .opening .object := h
    have hf := ih (depth - 1)
    simp only [Phrase.FitsIn, List.map_cons, h, nestsWithin_opening, Tree.nesting] at hf ⊢
    rw [hf, nestsWithin_around]
  | @array elements t ts rest h _ ih =>
    intro depth
    have h : t.role = .opening .array := h
    have hf := ih (depth - 1)
    simp only [Phrase.FitsIn, List.map_cons, h, nestsWithin_opening, Tree.nesting] at hf ⊢
    rw [hf, nestsWithin_around]
  | @noField t _ h | @endFields t _ h =>
    intro depth
    have h : t.role = .closing .object := h
    simp [Phrase.FitsIn, Tree.nestingFields, h]
  | @noElement t _ h | @endElements t _ h =>
    intro depth
    have h : t.role = .closing .array := h
    simp [Phrase.FitsIn, Tree.nestingElements, h]
  | @commaFields _ t _ _ h _ ih | @commaElements _ t _ _ h _ ih =>
    intro depth
    have h : t.role = .separator := h
    simpa [Phrase.FitsIn, h] using ih depth
  | @field _ _ _ _ s _ _ _ hn hc _ _ ihv ihm =>
    intro depth
    have hc : s.role = .assignment := hc
    have hv := ihv depth
    have hm := ihm depth
    simp only [Phrase.FitsIn, List.map_cons, hn.1, hc, nestsWithin_scalar,
      nestsWithin_assignment, Tree.nestingFields, Nat.max_le] at hv hm ⊢
    rw [hv, hm, and_assoc]
  | element _ _ ihv ihm =>
    intro depth
    have hv := ihv depth
    have hm := ihm depth
    simp only [Phrase.FitsIn, Tree.nestingElements, Nat.max_le] at hv hm ⊢
    rw [hv, hm, and_assoc]

/-- The room that a document needs is the nesting of its tree. -/
theorem nestsWithin_iff_nesting_le {tree : Tree} {ts : List Token}
    (h : Reads .tokens (.value tree) ts []) (depth : Nat) :
    NestsWithin depth (ts.map Token.role) ↔ tree.nesting ≤ depth := by
  have hf := h.fitsIn depth
  simpa [Phrase.FitsIn] using hf

end Grammar

end LaxJson
