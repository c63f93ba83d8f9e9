import LaxJson.Lexicon.Recognizer
import Mathlib.Data.List.Basic

/-!
# The longest token

`survivors lexicon text` are the recognizers that a text may belong to as a whole, in the
order of the lexicon. A text that is munched off a longer one has survivors, and with the
character behind it none has; the first survivor owns it. Of a text that some recognizer can
begin with there is always something to munch (`exists_munches`).
-/
namespace LaxJson

namespace Recognizer

/-- The recognizer after further characters, if the token at hand goes on with them all. -/
def follow? (r : Recognizer) : List Char → Option Recognizer
  | [] => some r
  | c :: text => (r.next? c).bind (·.follow? text)

/-- The recognizer after a whole text, if it may be a token of the class. -/
def read? (r : Recognizer) : List Char → Option Recognizer
  | [] => none
  | c :: text => (r.begin? c).bind (·.follow? text)

@[simp] theorem follow?_nil (r : Recognizer) : r.follow? [] = some r := rfl

@[simp] theorem follow?_cons (r : Recognizer) (c : Char) (text : List Char) :
    r.follow? (c :: text) = (r.next? c).bind (·.follow? text) := rfl

@[simp] theorem read?_nil (r : Recognizer) : r.read? [] = none := rfl

@[simp] theorem read?_cons (r : Recognizer) (c : Char) (text : List Char) :
    r.read? (c :: text) = (r.begin? c).bind (·.follow? text) := rfl

theorem follow?_append (r : Recognizer) (text more : List Char) :
    r.follow? (text ++ more) = (r.follow? text).bind (·.follow? more) := by
  induction text generalizing r with
  | nil => rfl
  | cons c text ih =>
    rw [List.cons_append, follow?_cons, follow?_cons, Option.bind_assoc]
    simp only [ih]

theorem read?_append {text : List Char} (h : text ≠ []) (r : Recognizer) (more : List Char) :
    r.read? (text ++ more) = (r.read? text).bind (·.follow? more) := by
  obtain ⟨c, text, rfl⟩ := List.exists_cons_of_ne_nil h
  rw [List.cons_append, read?_cons, read?_cons, Option.bind_assoc]
  simp only [follow?_append]

theorem start_fst (r : Recognizer) (c : Char) : (r.start c).1 = (r.begin? c).isSome := by
  rw [start]
  cases r.begin? c <;> rfl

theorem extend_fst (r : Recognizer) (c : Char) : (r.extend c).1 = (r.next? c).isSome := by
  rw [extend]
  cases r.next? c <;> rfl

/-! Reading never changes the class of a recognizer. -/

@[simp] theorem fresh_fresh (r : Recognizer) : r.fresh.fresh = r.fresh := by
  cases r <;> rfl

theorem fresh_of_next? {r r' : Recognizer} {c : Char} (h : r.next? c = some r') :
    r'.fresh = r.fresh := by
  cases r with
  | lineComment _ stage | blockComment stage | number stage | keyword _ _ stage
  | quotation stage =>
    obtain ⟨stage', _, rfl⟩ := Option.map_eq_some_iff.1 h
    rfl
  | whiteSpace | identifier =>
    simp only [next?, Option.ite_none_right_eq_some, Option.some.injEq] at h
    rw [← h.2]
  | symbol => cases h

theorem fresh_of_follow? {r r' : Recognizer} {text : List Char} (h : r.follow? text = some r') :
    r'.fresh = r.fresh := by
  induction text generalizing r with
  | nil =>
    cases h
    rfl
  | cons c text ih =>
    obtain ⟨s, hs, hf⟩ := Option.bind_eq_some_iff.1 h
    rw [ih hf, fresh_of_next? hs]

theorem fresh_of_begin? {r r' : Recognizer} {c : Char} (h : r.begin? c = some r') :
    r'.fresh = r.fresh := by
  cases r with
  | lineComment _ stage | blockComment stage | number stage | keyword _ _ stage
  | quotation stage =>
    obtain ⟨stage', _, rfl⟩ := Option.map_eq_some_iff.1 h
    rfl
  | whiteSpace | identifier | symbol _ _ =>
    simp only [begin?, Option.ite_none_right_eq_some, Option.some.injEq] at h
    rw [← h.2]

theorem fresh_of_read? {r r' : Recognizer} {text : List Char} (h : r.read? text = some r') :
    r'.fresh = r.fresh := by
  cases text with
  | nil => cases h
  | cons c text =>
    obtain ⟨s, hs, hf⟩ := Option.bind_eq_some_iff.1 h
    rw [fresh_of_follow? hf, fresh_of_begin? hs]

theorem fresh_start (r : Recognizer) (c : Char) : (r.start c).2.fresh = r.fresh := by
  unfold start
  cases h : r.begin? c with
  | none => cases r <;> rfl
  | some r' => exact fresh_of_begin? h

theorem fresh_extend (r : Recognizer) (c : Char) : (r.extend c).2.fresh = r.fresh := by
  unfold extend
  cases h : r.next? c with
  | none => rfl
  | some r' => exact fresh_of_next? h

end Recognizer

namespace Lexicon

/-- The recognizers that a token beginning with `c` may belong to, in order. -/
def begin (lexicon : Lexicon) (c : Char) : List Recognizer := lexicon.filterMap (·.begin? c)

/-- The recognizers among `candidates` that the token at hand may still belong to after
`c`, in order. -/
def narrow (candidates : List Recognizer) (c : Char) : List Recognizer :=
  candidates.filterMap (·.next? c)

/-- The recognizers that `text` may belong to, in order. -/
def survivors (lexicon : Lexicon) (text : List Char) : List Recognizer :=
  lexicon.filterMap (·.read? text)

@[simp] theorem survivors_nil (lexicon : Lexicon) : survivors lexicon [] = [] := by
  simp [survivors]

theorem survivors_singleton (lexicon : Lexicon) (c : Char) :
    survivors lexicon [c] = begin lexicon c := by
  simp [survivors, begin]

theorem survivors_append {text : List Char} (h : text ≠ []) (lexicon : Lexicon)
    (more : List Char) :
    survivors lexicon (text ++ more) = (survivors lexicon text).filterMap (·.follow? more) := by
  unfold survivors
  rw [List.filterMap_filterMap]
  apply List.filterMap_congr
  intro r _
  exact Recognizer.read?_append h r more

theorem survivors_append_singleton {text : List Char} (h : text ≠ []) (lexicon : Lexicon)
    (c : Char) : survivors lexicon (text ++ [c]) = narrow (survivors lexicon text) c := by
  rw [survivors_append h, narrow]
  apply List.filterMap_congr
  intro r _
  simp

/-- What has been read before does not matter. -/
theorem survivors_map_fresh (lexicon : Lexicon) (text : List Char) :
    survivors (lexicon.map Recognizer.fresh) text = survivors lexicon text := by
  unfold survivors
  rw [List.filterMap_map]
  apply List.filterMap_congr
  intro r _
  cases text with
  | nil => rfl
  | cons c text => simp

theorem begin_map_fresh (lexicon : Lexicon) (c : Char) :
    begin (lexicon.map Recognizer.fresh) c = begin lexicon c := by
  rw [← survivors_singleton, survivors_map_fresh, survivors_singleton]

/-- The survivors of a text have survived each of its beginnings. -/
theorem survivors_ne_nil_of_append {lexicon : Lexicon} {text : List Char} (h : text ≠ [])
    (more : List Char) (hs : survivors lexicon (text ++ more) ≠ []) :
    survivors lexicon text ≠ [] := by
  intro h0
  rw [survivors_append h, h0] at hs
  exact hs rfl

/-- The longest token at the front of `text ++ rest` is `text`, and `owner` has it. -/
structure Munches (lexicon : Lexicon) (text rest : List Char) (owner : Recognizer) : Prop where
  head?_survivors : (survivors lexicon text).head? = some owner
  stops : ∀ c ∈ rest.head?, survivors lexicon (text ++ [c]) = []

theorem Munches.ne_nil {lexicon : Lexicon} {text rest : List Char} {owner : Recognizer}
    (h : Munches lexicon text rest owner) : text ≠ [] := by
  rintro rfl
  simpa using h.head?_survivors

theorem munches_map_fresh {lexicon : Lexicon} {text rest : List Char} {owner : Recognizer} :
    Munches (lexicon.map Recognizer.fresh) text rest owner ↔ Munches lexicon text rest owner := by
  constructor
  · intro ⟨hhead, hstops⟩
    exact ⟨by rwa [survivors_map_fresh] at hhead, by simpa only [survivors_map_fresh] using hstops⟩
  · intro ⟨hhead, hstops⟩
    exact ⟨by rwa [survivors_map_fresh], by simpa only [survivors_map_fresh] using hstops⟩

theorem Munches.exists_rivals {lexicon : Lexicon} {text rest : List Char} {owner : Recognizer}
    (h : Munches lexicon text rest owner) :
    ∃ rivals, survivors lexicon text = owner :: rivals :=
  List.head?_eq_some_iff.1 h.head?_survivors

/-- A text that all but one recognizer have given up belongs to that one as far as it goes. -/
theorem munches_of_survivors_eq_singleton {lexicon : Lexicon} (text more : List Char)
    {rest : List Char} {r owner : Recognizer} (hs : survivors lexicon text = [r])
    (hf : r.follow? more = some owner)
    (hn : ∀ c ∈ rest.head?, owner.next? c = none) : Munches lexicon (text ++ more) rest owner := by
  have ht : text ≠ [] := by
    intro h0
    simp [h0] at hs
  have hmore : survivors lexicon (text ++ more) = [owner] := by
    rw [survivors_append ht, hs]
    simp [hf]
  refine ⟨by rw [hmore, List.head?_cons], fun c hc => ?_⟩
  rw [survivors_append_singleton (by simp [ht]), hmore]
  simp [narrow, hn c hc]

/-- What some recognizer accepts can be prolonged to the longest token. -/
theorem exists_munches_append {lexicon : Lexicon} {text : List Char} (ht : text ≠ [])
    (hs : survivors lexicon text ≠ []) (rest : List Char) :
    ∃ more rest' owner, rest = more ++ rest' ∧
      Munches lexicon (text ++ more) rest' owner := by
  induction rest generalizing text with
  | nil =>
    obtain ⟨owner, rivals, hr⟩ := List.exists_cons_of_ne_nil hs
    exact ⟨[], [], owner, rfl, by simp [hr], by simp⟩
  | cons c rest ih =>
    by_cases hc : survivors lexicon (text ++ [c]) = []
    · obtain ⟨owner, rivals, hr⟩ := List.exists_cons_of_ne_nil hs
      exact ⟨[], c :: rest, owner, rfl, by simp [hr], by simpa using hc⟩
    · obtain ⟨more, rest', owner, rfl, hm⟩ := ih (by simp) hc
      exact ⟨c :: more, rest', owner, rfl, by simpa using hm⟩

theorem exists_munches {lexicon : Lexicon} {c : Char} (h : begin lexicon c ≠ [])
    (rest : List Char) :
    ∃ text rest' owner, c :: rest = text ++ rest' ∧ Munches lexicon text rest' owner := by
  obtain ⟨more, rest', owner, rfl, hm⟩ :=
    exists_munches_append (List.cons_ne_nil c []) (by rwa [survivors_singleton]) rest
  exact ⟨c :: more, rest', owner, rfl, hm⟩

/-- The owner comes from the lexicon and has read the text. -/
theorem Munches.exists_mem {lexicon : Lexicon} {text rest : List Char} {owner : Recognizer}
    (h : Munches lexicon text rest owner) : ∃ r ∈ lexicon, r.read? text = some owner := by
  have hm : owner ∈ survivors lexicon text := List.mem_of_mem_head? h.head?_survivors
  exact List.mem_filterMap.1 hm

/-- Of a text there is one longest token only. -/
theorem Munches.unique {lexicon : Lexicon} {text text' rest rest' : List Char}
    {owner owner' : Recognizer} (h : Munches lexicon text rest owner)
    (h' : Munches lexicon text' rest' owner') (he : text ++ rest = text' ++ rest') :
    text = text' ∧ rest = rest' ∧ owner = owner' := by
  have hnot {text more rest : List Char} {c : Char} {owner owner' : Recognizer}
      (h : Munches lexicon text (c :: (more ++ rest)) owner) :
      ¬ Munches lexicon (text ++ c :: more) rest owner' := by
    intro hlonger
    obtain ⟨rivals, hs⟩ := hlonger.exists_rivals
    have hne : survivors lexicon (text ++ [c] ++ more) ≠ [] := by simp [hs]
    exact survivors_ne_nil_of_append (by simp) more hne (h.stops c rfl)
  rcases List.append_eq_append_iff.1 he with ⟨more, rfl, rfl⟩ | ⟨more, rfl, rfl⟩
  · cases more with
    | nil =>
      rw [List.append_nil] at h' ⊢
      have howner := h.head?_survivors.symm.trans h'.head?_survivors
      exact ⟨rfl, rfl, Option.some.inj howner⟩
    | cons c more => exact absurd h' (hnot h)
  · cases more with
    | nil =>
      rw [List.append_nil] at h ⊢
      have howner := h.head?_survivors.symm.trans h'.head?_survivors
      exact ⟨rfl, rfl, Option.some.inj howner⟩
    | cons c more => exact absurd h (hnot h')

theorem Munches.begin_ne_nil {lexicon : Lexicon} {text rest x : List Char} {c : Char}
    {owner : Recognizer} (h : Munches lexicon text rest owner) (he : text ++ rest = c :: x) :
    begin lexicon c ≠ [] := by
  obtain ⟨d, more, rfl⟩ := List.exists_cons_of_ne_nil h.ne_nil
  cases he
  obtain ⟨rivals, hs⟩ := h.exists_rivals
  rw [← survivors_singleton]
  exact survivors_ne_nil_of_append (by simp) more (by simp [hs])

end Lexicon

end LaxJson
