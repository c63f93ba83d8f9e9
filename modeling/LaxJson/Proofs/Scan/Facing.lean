import LaxJson.Proofs.Scan.Draft

/-!
# A scanner in the middle of a text

`Faces s input done rest` says where a scanner stands that has dealt with the characters
`done` of a text and has `rest` before it: whether the first character of `rest` is held or
still in the input, the cursor and the positions follow from `done`. The next token of such
a scanner is what is munched off `rest` behind the characters that are passed over, with the
positions that `done` gives it, and behind it the scanner faces what is left.
-/
namespace LaxJson
open Lexicon

namespace Scanner

/-- The scanner has dealt with `done`, and `rest` is before it. -/
inductive Faces {R : Type} (s : Scanner R) : Input → List Char → List Char → Prop
  | reading {done rest} (hl : s.lookahead = .nothing) (hc : s.cursor = .behind done) :
      Faces s (.ofChars rest) done rest
  | holding {done c rest} (hl : s.lookahead = .held c (.after done))
      (hc : s.cursor = .behind (done ++ [c])) : Faces s (.ofChars rest) done (c :: rest)
  | ended {done} (hl : s.lookahead = .ended) (hc : s.cursor = .behind done) :
      Faces s [] done []

section
variable {R : Type}

theorem faces_arrival (s : Scanner R) (lexicon : List R) (done rest : List Char) :
    (s.moveTo lexicon (arrival done rest).2.1 (arrival done rest).1.lookahead).Faces
      (arrival done rest).2.2 done rest := by
  cases rest with
  | nil => exact .ended rfl rfl
  | cons c rest => exact .holding rfl rfl

/-- Where nothing is passed over, the first character is that of what is left. -/
theorem first_eq_arrival {s : Scanner R} {input : Input} {done rest : List Char}
    (hf : s.Faces input done rest) (hr : ∀ c ∈ rest.head?, s.skips c = false)
    (ha : Admits s.maxChars (done ++ rest).length) : s.first input = arrival done rest := by
  cases hf with
  | reading hl hc =>
    have hstop : ∀ c ∈ rest.head?, (s.skips c, ()) = (false, ()) := by
      intro c h
      rw [hr c h]
    rw [first, hl]
    simp only [seek, hc]
    rw [gather_ofChars_stop ha hstop]
  | @holding _ c x hl hc =>
    have hs : s.skips c = false := hr c rfl
    simp [first, hl, hs, hc, arrival]
  | ended hl hc => simp [first, hl, hc, arrival]

/-- A character that is passed over might as well have been read before. -/
theorem first_of_skips {s : Scanner R} {input : Input} {done rest : List Char} {c : Char}
    (hf : s.Faces input done (c :: rest)) (hs : s.skips c = true)
    (ha : Admits s.maxChars (done ++ c :: rest).length) :
    s.first input =
      (s.moveTo s.lexicon (.behind (done ++ [c])) .nothing).first (.ofChars rest) := by
  generalize hx : c :: rest = x at hf
  cases hf with
  | reading hl hc =>
    subst hx
    have hstep : (s.skips c, ()) = (true, ()) := by rw [hs]
    simp only [first, hl, moveTo, seek, hc]
    rw [gather_ofChars_take ha hstep]
    rfl
  | holding hl hc =>
    cases hx
    simp only [first, hl, hs, moveTo, seek, hc, if_true]
    rfl
  | ended => cases hx

end

section
variable {s : Scanner} {input : Input} {done rest : List Char}

theorem next_of_nil (hf : s.Faces input done []) (ha : Admits s.maxChars done.length) :
    ∃ s' rest', s.next input = (.ok none, s', rest') := by
  have h1 := first_eq_arrival hf (by simp) (by simpa using ha)
  exact ⟨s.moveTo s.lexicon (.behind done) .ended, [], by rw [next, h1]; rfl⟩

/-- The scanner goes on from behind a character that it passes over. -/
theorem next_of_skips {c : Char} (hf : s.Faces input done (c :: rest)) (hs : s.skips c = true)
    (ha : Admits s.maxChars (done ++ c :: rest).length) :
    ∃ k, s.next input = (s.moveTo s.lexicon k .nothing).next (.ofChars rest) ∧
      (s.moveTo s.lexicon k .nothing).Faces (.ofChars rest) (done ++ [c]) rest := by
  refine ⟨.behind (done ++ [c]), ?_, .reading rfl rfl⟩
  unfold next
  rw [first_of_skips hf hs ha]
  rfl

theorem next_of_begin_eq_nil {c : Char} (hf : s.Faces input done (c :: rest))
    (hc : s.skips c = false) (hn : begin s.lexicon c = [])
    (ha : Admits s.maxChars (done ++ c :: rest).length) :
    ∃ s' rest', s.next input = (.error (.noMatch c (.after done)), s', rest') := by
  have h1 := first_eq_arrival hf (by simpa using hc) ha
  refine ⟨s.moveTo ((s.lexicon.map (.ask c)).map Candidate.descriptor)
    (.behind (done ++ [c])) .nothing, .ofChars rest, ?_⟩
  rw [next, h1]
  simp only [arrival, Draft.begin?_eq_none hn]

/-- The next token is munched off what is left. The recognizers are left as the token has left
them, and are none other than before. -/
theorem next_of_munches {text : List Char} {owner : Recognizer}
    (hf : s.Faces input done (text ++ rest)) (ht : ∀ c ∈ text.head?, s.skips c = false)
    (hm : Munches s.lexicon text rest owner)
    (ha : Admits s.maxChars (done ++ (text ++ rest)).length) :
    ∃ lexicon k lookahead input',
      s.next input = ((owner.token done text).map some, s.moveTo lexicon k lookahead, input') ∧
      lexicon.map Recognizer.fresh = s.lexicon.map Recognizer.fresh ∧
      (s.moveTo lexicon k lookahead).Faces input' (done ++ text) rest := by
  obtain ⟨c, more, rfl⟩ := List.exists_cons_of_ne_nil hm.ne_nil
  have h1 := first_eq_arrival hf (by simpa using ht) ha
  have hb : begin s.lexicon c ≠ [] := by
    obtain ⟨rivals, hr⟩ := hm.exists_rivals
    rw [← survivors_singleton]
    exact survivors_ne_nil_of_append (by simp) more (by simp [hr])
  have hm' : Munches s.lexicon ([c] ++ more) rest owner := hm
  obtain ⟨d, hd, hholds⟩ := Draft.exists_begin? hb done
  obtain ⟨d', hholds', hg⟩ := hholds.gather_extend (by simp) hm' (by simpa using ha)
  have hcat : done ++ [c] ++ more = done ++ c :: more := by simp
  have htoken := hholds'.token_eq hm'
  rw [hcat] at hg
  refine ⟨_, _, _, _, ?_, hholds'.fresh_eq, faces_arrival s _ (done ++ c :: more) rest⟩
  rw [next, h1]
  simp only [List.cons_append, arrival, hd, hg]
  cases rest with
  | nil => simp only [htoken, Read.lookahead, List.singleton_append]
  | cons => simp only [htoken, Read.lookahead, List.singleton_append]

end

end Scanner

end LaxJson
