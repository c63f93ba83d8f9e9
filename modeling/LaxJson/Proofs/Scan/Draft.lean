import LaxJson.Proofs.Scan.Munch
import LaxJson.Scanner

/-!
# The draft of a token

What a scanner gathers for one token, seen from the text. `Draft.Holds` says that a draft has
come of a text: its living candidates are the recognizers that the text may belong to. Reading
on from a draft takes a character exactly when some recognizer survives it, so that what has
been gathered in the end is the longest token (`Draft.Holds.gather_extend`), and the draft
makes of it what its owner does (`Draft.Holds.token_eq`).
-/
namespace LaxJson
open Lexicon

/-- The cursor behind a text that has been read from the start. -/
def Cursor.behind (text : List Char) : Cursor := ⟨.after text, text.length⟩

@[simp] theorem Cursor.pass_behind (text : List Char) (c : Char) :
    (behind text).pass c = behind (text ++ [c]) := by
  simp [behind, pass]

/-- Whether `n` characters may be read. -/
def Admits (maxChars : Option Nat) (n : Nat) : Prop := ∀ limit ∈ maxChars, n ≤ limit

theorem Admits.limit?_eq_none {maxChars : Option Nat} {n : Nat} (h : Admits maxChars n)
    (text : List Char) (hn : text.length < n) : (Cursor.behind text).limit? maxChars = none := by
  rw [Cursor.limit?, Option.filter_eq_none_iff]
  intro limit hl hd
  have hle : n ≤ limit := h limit hl
  have hlt : limit ≤ text.length := of_decide_eq_true hd
  omega

/-- What a read finds behind `done` where `rest` follows, what the cursor is then, and what
is left of the input. -/
def arrival (done : List Char) : List Char → Read × Cursor × Input
  | [] => (.finish, .behind done, [])
  | c :: rest => (.char c (.after done), .behind (done ++ [c]), .ofChars rest)

section
variable {σ : Type} {maxChars : Option Nat} {step : σ → Char → Position → Bool × σ}
  {s s' : σ} {done rest : List Char}

theorem gather_ofChars_take {c : Char} (ha : Admits maxChars (done ++ c :: rest).length)
    (hs : step s c (.after done) = (true, s')) :
    gather maxChars step s (.behind done) (.ofChars (c :: rest)) =
      gather maxChars step s' (.behind (done ++ [c])) (.ofChars rest) := by
  have hl := ha.limit?_eq_none done (by simp)
  have hp : (Cursor.behind done).position = .after done := rfl
  rw [Input.ofChars_cons, gather, hl]
  simp only [hp, hs, Cursor.pass_behind]

theorem gather_ofChars_stop (ha : Admits maxChars (done ++ rest).length)
    (hs : ∀ c ∈ rest.head?, step s c (.after done) = (false, s)) :
    gather maxChars step s (.behind done) (.ofChars rest) =
      ((arrival done rest).1, s, (arrival done rest).2) := by
  cases rest with
  | nil => rfl
  | cons c rest =>
    have hl := ha.limit?_eq_none done (by simp)
    have hp : (Cursor.behind done).position = .after done := rfl
    rw [Input.ofChars_cons, gather, hl]
    simp only [hp, hs c rfl, Cursor.pass_behind, arrival]

end

namespace Candidate

/-- The descriptors that have taken every character, as they are now. -/
def living {R : Type} (candidates : List (Candidate R)) : List R :=
  candidates.filterMap fun a => if a.alive then some a.descriptor else none

theorem any_alive_iff {R : Type} (candidates : List (Candidate R)) :
    candidates.any alive = true ↔ living candidates ≠ [] := by
  induction candidates with
  | nil => simp [living]
  | cons a candidates ih => cases h : a.alive <;> simp_all [living]

theorem head?_living {R : Type} (candidates : List (Candidate R)) :
    (living candidates).head? = (candidates.find? alive).map descriptor := by
  induction candidates with
  | nil => rfl
  | cons a candidates ih => cases h : a.alive <;> simp_all [living]

theorem living_ask (lexicon : Lexicon) (c : Char) :
    living (lexicon.map (ask c)) = begin lexicon c := by
  unfold living begin
  rw [List.filterMap_map]
  apply List.filterMap_congr
  intro r _
  cases h : r.begin? c <;> simp [ask, Descriptor.start, Recognizer.start, h]

theorem living_offer (candidates : List (Candidate Recognizer)) (c : Char) :
    living (candidates.map (offer c)) = narrow (living candidates) c := by
  unfold living narrow
  rw [List.filterMap_map, List.filterMap_filterMap]
  apply List.filterMap_congr
  intro a _
  cases ha : a.alive with
  | false => simp [offer, ha]
  | true =>
    cases h : a.descriptor.next? c <;>
      simp [offer, ha, Descriptor.extend, Recognizer.extend, h]

/-- A recognizer that refuses a character is left as it was. -/
theorem offer_eq_self {candidates : List (Candidate Recognizer)} {c : Char}
    (h : narrow (living candidates) c = []) :
    (candidates.map fun a => { a.offer c with alive := a.alive }) = candidates := by
  have hself : ∀ a ∈ candidates, { a.offer c with alive := a.alive } = a := by
    intro ⟨r, b⟩ ha
    cases b with
    | false => rfl
    | true =>
      have hr : r ∈ living candidates := List.mem_filterMap.2 ⟨_, ha, rfl⟩
      have hnone : r.next? c = none := List.filterMap_eq_nil_iff.1 h r hr
      simp [offer, Descriptor.extend, Recognizer.extend, hnone]
  rw [List.map_congr_left hself, List.map_id']

theorem fresh_ask (c : Char) (r : Recognizer) : (ask c r).descriptor.fresh = r.fresh :=
  r.fresh_start c

theorem fresh_offer (c : Char) (a : Candidate Recognizer) :
    (a.offer c).descriptor.fresh = a.descriptor.fresh := by
  unfold offer
  split
  · exact a.descriptor.fresh_extend c
  · rfl

end Candidate

/-- The places of the first and last characters of `text` behind `done`. -/
def Span.of (done text : List Char) : Span := ⟨.after done, .after (done ++ text.dropLast)⟩

namespace Recognizer

/-- The token that a recognizer makes of a text; it must be whole. -/
def token (r : Recognizer) (done text : List Char) : Except ScanFault Token :=
  if r.isComplete then .ok ⟨r.category, r.role, text, .of done text⟩
  else .error (.incomplete r.role text (.of done text))

end Recognizer

/-- The draft has come of `text` behind `done`. -/
structure Draft.Holds (d : Draft Recognizer) (lexicon : Lexicon) (done text : List Char) :
    Prop where
  living_eq : Candidate.living d.candidates = survivors lexicon text
  reversed_eq : d.reversed = text.reverse
  span_eq : d.span = .of done text
  fresh_eq : d.lexicon.map Recognizer.fresh = lexicon.map Recognizer.fresh

namespace Draft
variable {lexicon : Lexicon} {done text : List Char} {c : Char} {d : Draft Recognizer}

theorem begin?_eq_none (h : begin lexicon c = []) (p : Position) :
    begin? (lexicon.map (Candidate.ask c)) c p = none := by
  rw [begin?, dif_neg]
  rw [Candidate.any_alive_iff, Candidate.living_ask]
  simpa using h

/-- What a draft begins with depends on the recognizers that can begin with the character. -/
theorem exists_begin?_of_begin (h : begin lexicon c ≠ []) (p : Position) :
    ∃ d, begin? (lexicon.map (Candidate.ask c)) c p = some d ∧
      Candidate.living d.candidates = begin lexicon c ∧ d.reversed = [c] ∧ d.span = ⟨p, p⟩ ∧
      d.lexicon.map Recognizer.fresh = lexicon.map Recognizer.fresh := by
  have hany : (lexicon.map (Candidate.ask c)).any Candidate.alive = true := by
    rwa [Candidate.any_alive_iff, Candidate.living_ask]
  refine ⟨_, by rw [begin?, dif_pos hany], Candidate.living_ask lexicon c, rfl, rfl, ?_⟩
  simp [Draft.lexicon, Candidate.fresh_ask]

theorem exists_begin? (h : begin lexicon c ≠ []) (done : List Char) :
    ∃ d, begin? (lexicon.map (Candidate.ask c)) c (.after done) = some d ∧
      d.Holds lexicon done [c] := by
  obtain ⟨d, hd, hliving, hreversed, hspan, hfresh⟩ := exists_begin?_of_begin h (.after done)
  rw [← survivors_singleton] at hliving
  exact ⟨d, hd, hliving, hreversed, by simp [hspan, Span.of], hfresh⟩

/-- A draft goes on with a character as far as its living candidates do. -/
theorem exists_extend_of_narrow (h : narrow (Candidate.living d.candidates) c ≠ [])
    (p : Position) :
    ∃ d', d.extend c p = (true, d') ∧
      Candidate.living d'.candidates = narrow (Candidate.living d.candidates) c ∧
      d'.reversed = c :: d.reversed ∧ d'.span = { d.span with last := p } ∧
      d'.lexicon.map Recognizer.fresh = d.lexicon.map Recognizer.fresh := by
  have hany : (d.candidates.map (Candidate.offer c)).any Candidate.alive = true := by
    rwa [Candidate.any_alive_iff, Candidate.living_offer]
  refine ⟨_, by rw [extend, dif_pos hany], Candidate.living_offer d.candidates c, rfl, rfl, ?_⟩
  simp [Draft.lexicon, Candidate.fresh_offer]

theorem extend_eq_self_of_narrow (h : narrow (Candidate.living d.candidates) c = [])
    (p : Position) : d.extend c p = (false, d) := by
  have hany : ¬ (d.candidates.map (Candidate.offer c)).any Candidate.alive = true := by
    rw [Candidate.any_alive_iff, Candidate.living_offer]
    simpa using h
  rw [extend, dif_neg hany]
  simp only [Candidate.offer_eq_self h]

/-- The owner is the first candidate that is alive. -/
theorem head?_living_candidates (d : Draft Recognizer) :
    (Candidate.living d.candidates).head? = some d.owner := by
  rw [Candidate.head?_living, owner, ← Option.map_some, Option.some_get]

theorem Holds.narrow_eq (h : d.Holds lexicon done text) (ht : text ≠ []) :
    narrow (Candidate.living d.candidates) c = survivors lexicon (text ++ [c]) := by
  rw [h.living_eq, survivors_append_singleton ht]

theorem Holds.exists_extend (h : d.Holds lexicon done text) (ht : text ≠ [])
    (hs : survivors lexicon (text ++ [c]) ≠ []) :
    ∃ d', d.extend c (.after (done ++ text)) = (true, d') ∧
      d'.Holds lexicon done (text ++ [c]) := by
  rw [← h.narrow_eq ht] at hs
  obtain ⟨d', hd', hliving, hreversed, hspan, hfresh⟩ :=
    exists_extend_of_narrow hs (.after (done ++ text))
  refine ⟨d', hd', hliving.trans (h.narrow_eq ht), ?_, ?_, hfresh.trans h.fresh_eq⟩
  · simp [hreversed, h.reversed_eq]
  · simp [hspan, h.span_eq, Span.of]

theorem Holds.extend_eq_self (h : d.Holds lexicon done text) (ht : text ≠ [])
    (hs : survivors lexicon (text ++ [c]) = []) (p : Position) : d.extend c p = (false, d) :=
  extend_eq_self_of_narrow ((h.narrow_eq ht).trans hs) p

/-- Reading on from a draft munches the longest token. -/
theorem Holds.gather_extend {maxChars : Option Nat} {owner : Recognizer} {more rest : List Char}
    (h : d.Holds lexicon done text) (ht : text ≠ [])
    (hm : Munches lexicon (text ++ more) rest owner)
    (ha : Admits maxChars (done ++ text ++ more ++ rest).length) :
    ∃ d', d'.Holds lexicon done (text ++ more) ∧
      gather maxChars Draft.extend d (.behind (done ++ text)) (.ofChars (more ++ rest)) =
        ((arrival (done ++ text ++ more) rest).1, d', (arrival (done ++ text ++ more) rest).2) := by
  induction more generalizing text d with
  | nil =>
    simp only [List.append_nil, List.nil_append] at hm ha ⊢
    refine ⟨d, h, gather_ofChars_stop ha fun c hc => ?_⟩
    exact h.extend_eq_self ht (hm.stops c hc) _
  | cons c more ih =>
    have hs : survivors lexicon (text ++ [c]) ≠ [] := by
      obtain ⟨rivals, hr⟩ := hm.exists_rivals
      refine survivors_ne_nil_of_append (by simp) more ?_
      simp [hr]
    obtain ⟨d', hx, hd'⟩ := h.exists_extend ht hs
    have := ih hd' (by simp) (by simpa using hm) (by simpa using ha)
    rw [List.cons_append, gather_ofChars_take (by simpa using ha) hx]
    simpa using this

theorem Holds.token_eq {owner : Recognizer} {rest : List Char} (h : d.Holds lexicon done text)
    (hm : Munches lexicon text rest owner) : d.token = owner.token done text := by
  have howner : d.owner = owner := by
    have hhead := hm.head?_survivors
    rw [← h.living_eq, head?_living_candidates] at hhead
    exact Option.some.inj hhead
  rw [token, howner, Draft.text, h.reversed_eq, List.reverse_reverse, h.span_eq]
  rfl

end Draft

end LaxJson
