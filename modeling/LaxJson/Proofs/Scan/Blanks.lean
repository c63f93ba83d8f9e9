import LaxJson.Proofs.Barrier
import LaxJson.Proofs.Scan.Document
import LaxJson.Proofs.Scan.Reach

/-!
# White space, passed over or read

White space between the tokens of a document can be passed over by the scanner, or be read as
tokens of a class of its own. The two scanners mirror each other: what the one reads as a token
of white space the other has still to pass over, and every other call comes to the same at the
same place, whether it is a token or a fault (`Scanner.Mirrors.next`).
-/
namespace LaxJson
open Lexicon

/-- Two ways of reading that take the same characters come to the same read at the same place. -/
theorem gather_alike {σ τ : Type} {Alike : σ → τ → Prop} {maxChars : Option Nat}
    {step : σ → Char → Position → Bool × σ} {step' : τ → Char → Position → Bool × τ}
    (hstep : ∀ s t c p, Alike s t →
      (step s c p).1 = (step' t c p).1 ∧ Alike (step s c p).2 (step' t c p).2)
    {s : σ} {t : τ} (h : Alike s t) (k : Cursor) (input : Input) :
    ∃ read s' t' k' rest, Alike s' t' ∧
      gather maxChars step s k input = (read, s', k', rest) ∧
      gather maxChars step' t k input = (read, t', k', rest) := by
  induction input generalizing s t k with
  | nil => exact ⟨_, s, t, _, _, h, rfl, rfl⟩
  | cons answer rest ih =>
    cases answer with
    | error f => exact ⟨_, s, t, _, _, h, rfl, rfl⟩
    | ok c =>
      rw [gather, gather]
      cases k.limit? maxChars with
      | some limit => exact ⟨_, s, t, _, _, h, rfl, rfl⟩
      | none =>
        obtain ⟨htake, halike⟩ := hstep s t c k.position h
        dsimp only
        generalize step s c k.position = one at htake halike ⊢
        generalize step' t c k.position = other at htake halike ⊢
        obtain ⟨b, s'⟩ := one
        obtain ⟨b', t'⟩ := other
        cases htake
        cases b with
        | true => exact ih halike _
        | false => exact ⟨_, s', t', _, _, halike, rfl, rfl⟩

/-- A character that has ended a run of reads was not taken. -/
theorem exists_step_of_gather_eq_char {σ : Type} {maxChars : Option Nat}
    {step : σ → Char → Position → Bool × σ} {s s' : σ} {k k' : Cursor} {input rest : Input}
    {c : Char} {p : Position} (h : gather maxChars step s k input = (.char c p, s', k', rest)) :
    ∃ s₁, step s₁ c p = (false, s') := by
  obtain ⟨_, tail, s₁, k₁, _, _, hh⟩ := exists_takes_halts maxChars step s k input
  rw [h] at hh
  cases hh with
  | char _ hs => exact ⟨s₁, hs⟩

/-- The lexicon with the class of white space added behind its first `n` classes. -/
def Lexicon.withBlanks (lexicon : Lexicon) (n : Nat) : Lexicon :=
  lexicon.take n ++ .whiteSpace :: lexicon.drop n

namespace Lexicon

/-- The class that has been added has no part in what is no white space. -/
theorem begin_withBlanks (lexicon : Lexicon) (n : Nat) (c : Char) :
    begin (lexicon.withBlanks n) c =
      begin (lexicon.take n) c ++
        ((if Text.WhiteSpace.isBlank c then [.whiteSpace] else []) ++ begin (lexicon.drop n) c) := by
  unfold withBlanks begin
  rw [List.filterMap_append, List.filterMap_cons]
  by_cases hc : Text.WhiteSpace.isBlank c = true <;> simp [Recognizer.begin?, hc]

theorem begin_take_append_drop (lexicon : Lexicon) (n : Nat) (c : Char) :
    begin (lexicon.take n) c ++ begin (lexicon.drop n) c = begin lexicon c := by
  unfold begin
  rw [← List.filterMap_append, List.take_append_drop]

theorem begin_withBlanks_of_not_isBlank (lexicon : Lexicon) (n : Nat) {c : Char}
    (hc : Text.WhiteSpace.isBlank c = false) :
    begin (lexicon.withBlanks n) c = begin lexicon c := by
  rw [begin_withBlanks, hc, ← begin_take_append_drop lexicon n]
  rfl

/-- No other class of documents begins with a blank. -/
theorem begin_withBlanks_of_isBlank (n : Nat) {c : Char}
    (hc : Text.WhiteSpace.isBlank c = true) : begin (document.withBlanks n) c = [.whiteSpace] := by
  have hnil := (isBlank_spec hc).1
  rw [← begin_take_append_drop document n, List.append_eq_nil_iff] at hnil
  rw [begin_withBlanks, hnil.1, hnil.2, hc]
  rfl

/-- Asking whether a token begins with a character leaves the classes as they are. -/
theorem map_fresh_ask (lexicon : Lexicon) (c : Char) :
    ((lexicon.map (Candidate.ask c)).map Candidate.descriptor).map Recognizer.fresh =
      lexicon.map Recognizer.fresh := by
  simp [Candidate.fresh_ask]

end Lexicon

namespace Draft

/-- Two drafts of the same characters with the same recognizers alive, from lexicons that have
the recognizers of `lexicon` and of `wide`, up to the stages they are in. -/
structure Alike (lexicon wide : Lexicon) (d e : Draft Recognizer) : Prop where
  living_eq : Candidate.living d.candidates = Candidate.living e.candidates
  reversed_eq : d.reversed = e.reversed
  span_eq : d.span = e.span
  lexicon_eq : d.lexicon.map Recognizer.fresh = lexicon.map Recognizer.fresh
  wide_eq : e.lexicon.map Recognizer.fresh = wide.map Recognizer.fresh

/-- A draft of white space, which no other recognizer goes on with. -/
structure Blank (wide : Lexicon) (d : Draft Recognizer) : Prop where
  living_eq : Candidate.living d.candidates = [.whiteSpace]
  wide_eq : d.lexicon.map Recognizer.fresh = wide.map Recognizer.fresh

variable {lexicon wide : Lexicon} {d e : Draft Recognizer}

theorem Alike.extend (h : Alike lexicon wide d e) (c : Char) (p : Position) :
    (d.extend c p).1 = (e.extend c p).1 ∧
      Alike lexicon wide (d.extend c p).2 (e.extend c p).2 := by
  by_cases hn : narrow (Candidate.living d.candidates) c = []
  · have hn' : narrow (Candidate.living e.candidates) c = [] := h.living_eq ▸ hn
    rw [extend_eq_self_of_narrow hn, extend_eq_self_of_narrow hn']
    exact ⟨rfl, h⟩
  · have hn' : narrow (Candidate.living e.candidates) c ≠ [] := h.living_eq ▸ hn
    obtain ⟨d', hd, hliving, hreversed, hspan, hfresh⟩ := exists_extend_of_narrow hn p
    obtain ⟨e', he, hliving', hreversed', hspan', hfresh'⟩ := exists_extend_of_narrow hn' p
    rw [hd, he]
    refine ⟨rfl, ?_, ?_, ?_, hfresh.trans h.lexicon_eq, hfresh'.trans h.wide_eq⟩
    · rw [hliving, hliving', h.living_eq]
    · rw [hreversed, hreversed', h.reversed_eq]
    · rw [hspan, hspan', h.span_eq]

theorem Alike.token_eq (h : Alike lexicon wide d e) : d.token = e.token := by
  have howner : d.owner = e.owner := by
    apply Option.some.inj
    rw [← head?_living_candidates, ← head?_living_candidates, h.living_eq]
  rw [token, token, howner, text, text, h.reversed_eq, h.span_eq]

theorem Blank.extend (h : Blank wide d) (c : Char) (p : Position) :
    Text.WhiteSpace.isBlank c = (d.extend c p).1 ∧ Blank wide (d.extend c p).2 := by
  have hnarrow : narrow (Candidate.living d.candidates) c =
      if Text.WhiteSpace.isBlank c then [.whiteSpace] else [] := by
    rw [h.living_eq]
    by_cases hc : Text.WhiteSpace.isBlank c = true <;> simp [narrow, Recognizer.next?, hc]
  by_cases hc : Text.WhiteSpace.isBlank c = true
  · rw [if_pos hc] at hnarrow
    have hne : narrow (Candidate.living d.candidates) c ≠ [] := by simp [hnarrow]
    obtain ⟨d', hd, hliving, -, -, hfresh⟩ := exists_extend_of_narrow hne p
    rw [hd]
    exact ⟨hc, hliving.trans hnarrow, hfresh.trans h.wide_eq⟩
  · rw [if_neg hc] at hnarrow
    rw [extend_eq_self_of_narrow hnarrow]
    exact ⟨Bool.eq_false_iff.2 hc, h⟩

theorem Blank.exists_token (h : Blank wide d) :
    ∃ t, d.token = .ok t ∧ t.isTrivia = true := by
  have howner : d.owner = .whiteSpace := by
    apply Option.some.inj
    rw [← head?_living_candidates, h.living_eq, List.head?_cons]
  refine ⟨⟨.whiteSpace, .whiteSpace, d.text, d.span⟩, ?_, rfl⟩
  rw [token, howner]
  rfl

theorem Alike.exists_gather (h : Alike lexicon wide d e) (maxChars : Option Nat) (k : Cursor)
    (input : Input) :
    ∃ read d' e' k' rest, Alike lexicon wide d' e' ∧
      gather maxChars Draft.extend d k input = (read, d', k', rest) ∧
      gather maxChars Draft.extend e k input = (read, e', k', rest) :=
  gather_alike (fun _ _ c p h => h.extend c p) h k input

/-- White space is taken as far as it would be passed over. -/
theorem Blank.exists_gather (h : Blank wide d) (maxChars : Option Nat) (k : Cursor)
    (input : Input) :
    ∃ read d' k' rest, Blank wide d' ∧
      gather maxChars (fun (_ : Unit) c _ => (Text.WhiteSpace.isBlank c, ())) () k input =
        (read, (), k', rest) ∧
      gather maxChars Draft.extend d k input = (read, d', k', rest) := by
  obtain ⟨read, _, d', k', rest, hblank, hseek, hrun⟩ :=
    @gather_alike Unit _ (fun _ d => Blank wide d) maxChars
      (fun _ c _ => (Text.WhiteSpace.isBlank c, ())) Draft.extend
      (fun _ _ c p h => h.extend c p) () d h k input
  exact ⟨read, d', k', rest, hblank, hseek, hrun⟩

end Draft

namespace Scanner

/-- A scanner of documents that passes over white space, and one in the same place that has a
class for it. -/
structure Mirrors (n : Nat) (s r : Scanner) : Prop where
  lexicon_eq : s.lexicon.map Recognizer.fresh = document.map Recognizer.fresh
  wide_eq : r.lexicon.map Recognizer.fresh = (document.withBlanks n).map Recognizer.fresh
  skips_eq : s.skips = Text.WhiteSpace.isBlank
  takes : ∀ c, r.skips c = false
  maxChars_eq : r.maxChars = s.maxChars
  cursor_eq : r.cursor = s.cursor
  lookahead_eq : r.lookahead = s.lookahead

/-- What the search for a first character comes to: a blank that the one scanner finds is passed
over by the other, which seeks on from there. -/
inductive Meets (s : Scanner) : Read × Cursor × Input → Read × Cursor × Input → Prop
  | same {found} (h : ∀ c p, found.1 = .char c p → Text.WhiteSpace.isBlank c = false) :
      Meets s found found
  | blank {c p k rest} (hc : Text.WhiteSpace.isBlank c = true) :
      Meets s ((s.moveTo s.lexicon k .nothing).seek rest) (.char c p, k, rest)

/-- What a call comes to: the same, or a token of white space, which the other scanner passes over
before the same call. -/
inductive Matches (n : Nat) :
    Except ScanFault (Option Token) × Scanner × Input →
    Except ScanFault (Option Token) × Scanner × Input → Prop
  | same {answer s r rest} (h : Mirrors n s r) : Matches n (answer, s, rest) (answer, r, rest)
  | blank {t s r rest} (ht : t.isTrivia = true) (h : Mirrors n s r) :
      Matches n (s.next rest) (.ok (some t), r, rest)

variable {n : Nat} {s r : Scanner}

theorem Meets.of_not_isBlank {c : Char} (hc : Text.WhiteSpace.isBlank c = false) (p : Position)
    (k : Cursor) (rest : Input) : s.Meets (.char c p, k, rest) (.char c p, k, rest) := by
  refine .same ?_
  rintro _ _ ⟨⟩
  exact hc

theorem Mirrors.moveTo (h : Mirrors n s r) {lexicon wide : Lexicon} (k : Cursor) (a : Lookahead)
    (hlexicon : lexicon.map Recognizer.fresh = document.map Recognizer.fresh)
    (hwide : wide.map Recognizer.fresh = (document.withBlanks n).map Recognizer.fresh) :
    Mirrors n (s.moveTo lexicon k a) (r.moveTo wide k a) :=
  ⟨hlexicon, hwide, h.skips_eq, h.takes, h.maxChars_eq, rfl, rfl⟩

theorem Mirrors.position_eq (h : Mirrors n s r) : r.position = s.position := by
  rw [position, position, h.lookahead_eq, h.cursor_eq]

theorem Mirrors.seek (h : Mirrors n s r) (input : Input) :
    s.Meets (s.seek input) (r.seek input) := by
  cases input with
  | nil =>
    rw [Scanner.seek, Scanner.seek, h.cursor_eq]
    exact .same (by simp [gather])
  | cons answer rest =>
    cases answer with
    | error f =>
      rw [Scanner.seek, Scanner.seek, h.cursor_eq]
      exact .same (by simp [gather])
    | ok c =>
      rw [Scanner.seek, Scanner.seek, gather, gather, h.cursor_eq, h.maxChars_eq]
      cases hl : s.cursor.limit? s.maxChars with
      | some limit => exact .same (by simp)
      | none =>
        have hskips : s.skips c = Text.WhiteSpace.isBlank c := congrFun h.skips_eq c
        dsimp only
        rw [h.takes, hskips]
        cases hc : Text.WhiteSpace.isBlank c with
        | true => exact .blank hc
        | false => exact .of_not_isBlank hc _ _ rest

theorem Mirrors.first (h : Mirrors n s r) (input : Input) :
    s.Meets (s.first input) (r.first input) := by
  have hseek := h.seek input
  unfold Scanner.first
  rw [h.lookahead_eq, h.cursor_eq]
  cases s.lookahead with
  | ended => exact .same (by simp)
  | nothing => exact hseek
  | held c p =>
    have hskips : s.skips c = Text.WhiteSpace.isBlank c := congrFun h.skips_eq c
    dsimp only
    rw [h.takes, hskips]
    cases hc : Text.WhiteSpace.isBlank c with
    | true => exact .blank hc
    | false => exact .of_not_isBlank hc p _ input

/-- What has ended a run of white space is found again, held or at the end. -/
theorem Mirrors.first_moveTo (h : Mirrors n s r) {maxChars : Option Nat} {k k' : Cursor}
    {rest rest' : Input} {read : Read}
    (hseek : gather maxChars (fun (_ : Unit) c _ => (Text.WhiteSpace.isBlank c, ())) () k rest =
      (read, (), k', rest')) (hread : ∀ f, read ≠ .fault f) :
    (s.moveTo s.lexicon k' read.lookahead).first rest' = (read, k', rest') := by
  cases read with
  | finish => rfl
  | fault f => exact absurd rfl (hread f)
  | char c p =>
    obtain ⟨_, hstop⟩ := exists_step_of_gather_eq_char hseek
    have hskips : (s.moveTo s.lexicon k' (.held c p)).skips c = false := by
      have hall : (s.moveTo s.lexicon k' (.held c p)).skips = Text.WhiteSpace.isBlank := h.skips_eq
      rw [hall]
      exact congrArg Prod.fst hstop
    rw [Read.lookahead, Scanner.first, lookahead_moveTo]
    dsimp only
    rw [hskips]
    rfl

/-- A call depends on where the search for its first character ends. -/
theorem next_moveTo_of_first_eq {k : Cursor} {a : Lookahead} {input rest : Input}
    (h : (s.moveTo s.lexicon k a).first rest = s.first input) :
    (s.moveTo s.lexicon k a).next rest = s.next input := by
  unfold next
  rw [h]
  rfl

theorem next_of_begin?_eq_none {c : Char} {p : Position} {k : Cursor} {input rest : Input}
    (hf : s.first input = (.char c p, k, rest))
    (hb : Draft.begin? (s.lexicon.map (.ask c)) c p = none) :
    s.next input = (.error (.noMatch c p),
      s.moveTo ((s.lexicon.map (.ask c)).map Candidate.descriptor) k .nothing, rest) := by
  rw [next, hf]
  dsimp only
  rw [hb]

theorem next_of_begin?_eq_some {c : Char} {p : Position} {k : Cursor} {input rest : Input}
    {d : Draft Recognizer} (hf : s.first input = (.char c p, k, rest))
    (hb : Draft.begin? (s.lexicon.map (.ask c)) c p = some d) :
    s.next input = s.conclude (gather s.maxChars Draft.extend d k rest) := by
  rw [next, hf]
  dsimp only
  rw [hb]
  rfl

/-- A token of white space, and what the other scanner makes of it. -/
theorem Mirrors.matches_blank (h : Mirrors n s r) {c : Char} {p : Position} {k : Cursor}
    {input rest : Input} (hc : Text.WhiteSpace.isBlank c = true)
    (hr : r.first input = (.char c p, k, rest))
    (hs : s.first input = (s.moveTo s.lexicon k .nothing).seek rest) :
    Matches n (s.next input) (r.next input) := by
  have hbegin : begin r.lexicon c = [.whiteSpace] := by
    rw [← begin_map_fresh, h.wide_eq, begin_map_fresh, begin_withBlanks_of_isBlank n hc]
  obtain ⟨d, hd, hliving, -, -, hfresh⟩ :=
    Draft.exists_begin?_of_begin (by simp [hbegin] : begin r.lexicon c ≠ []) p
  have hblank : Draft.Blank (document.withBlanks n) d :=
    ⟨hliving.trans hbegin, hfresh.trans h.wide_eq⟩
  obtain ⟨read, d', k', rest', hblank', hseek, hrun⟩ := hblank.exists_gather r.maxChars k rest
  have hfirst : s.first input = (read, k', rest') := by
    have hskips : (s.moveTo s.lexicon k .nothing).skips = Text.WhiteSpace.isBlank := h.skips_eq
    have hmax : (s.moveTo s.lexicon k .nothing).maxChars = r.maxChars := h.maxChars_eq.symm
    have hcursor : (s.moveTo s.lexicon k .nothing).cursor = k := rfl
    rw [hs, Scanner.seek, hskips, hmax, hcursor, hseek]
  have hmirrors (a : Lookahead) :
      Mirrors n (s.moveTo s.lexicon k' a) (r.moveTo d'.lexicon k' a) :=
    h.moveTo k' a h.lexicon_eq hblank'.wide_eq
  obtain ⟨t, htoken, htrivia⟩ := hblank'.exists_token
  rw [next_of_begin?_eq_some hr hd, hrun]
  cases hread : read with
  | fault f =>
    have hnext : s.next input = (.error f, s.moveTo s.lexicon k' .nothing, rest') := by
      rw [next, hfirst, hread]
    rw [hnext]
    exact .same (hmirrors .nothing)
  | finish | char =>
    have hread' : ∀ f, read ≠ .fault f := by
      simp [hread]
    show Matches n (s.next input) (d'.token.map some, _, rest')
    rw [← next_moveTo_of_first_eq ((h.first_moveTo hseek hread').trans hfirst.symm), hread, htoken]
    exact .blank htrivia (hmirrors _)

/-- A token that is no white space. -/
theorem Mirrors.matches_draft (h : Mirrors n s r) {c : Char} {p : Position} {k : Cursor}
    {input rest : Input} (hc : Text.WhiteSpace.isBlank c = false)
    (hs : s.first input = (.char c p, k, rest)) (hr : r.first input = (.char c p, k, rest)) :
    Matches n (s.next input) (r.next input) := by
  have hbegin : begin r.lexicon c = begin s.lexicon c := by
    rw [← begin_map_fresh, h.wide_eq, begin_map_fresh,
      begin_withBlanks_of_not_isBlank document n hc, ← begin_map_fresh, ← h.lexicon_eq,
      begin_map_fresh]
  by_cases hnil : begin s.lexicon c = []
  · rw [next_of_begin?_eq_none hs (Draft.begin?_eq_none hnil p),
      next_of_begin?_eq_none hr (Draft.begin?_eq_none (hbegin.trans hnil) p)]
    exact .same (h.moveTo k .nothing ((Lexicon.map_fresh_ask _ c).trans h.lexicon_eq)
      ((Lexicon.map_fresh_ask _ c).trans h.wide_eq))
  · have hnil' : begin r.lexicon c ≠ [] := hbegin ▸ hnil
    obtain ⟨d, hd, hliving, hreversed, hspan, hfresh⟩ := Draft.exists_begin?_of_begin hnil p
    obtain ⟨e, he, hliving', hreversed', hspan', hfresh'⟩ := Draft.exists_begin?_of_begin hnil' p
    have halike : Draft.Alike document (document.withBlanks n) d e :=
      ⟨by rw [hliving, hliving', hbegin], hreversed.trans hreversed'.symm, hspan.trans hspan'.symm,
        hfresh.trans h.lexicon_eq, hfresh'.trans h.wide_eq⟩
    obtain ⟨read, d', e', k', rest', halike', hrun, hrun'⟩ :=
      halike.exists_gather s.maxChars k rest
    have hmirrors (a : Lookahead) :
        Mirrors n (s.moveTo d'.lexicon k' a) (r.moveTo e'.lexicon k' a) :=
      h.moveTo k' a halike'.lexicon_eq halike'.wide_eq
    rw [next_of_begin?_eq_some hs hd, next_of_begin?_eq_some hr he, h.maxChars_eq, hrun, hrun']
    cases read with
    | fault f => exact .same (hmirrors .nothing)
    | finish | char =>
      show Matches n (d'.token.map some, _, rest') (e'.token.map some, _, rest')
      rw [halike'.token_eq]
      exact .same (hmirrors _)

theorem Mirrors.next (h : Mirrors n s r) (input : Input) :
    Matches n (s.next input) (r.next input) := by
  have hmeets := h.first input
  generalize hs : s.first input = found at hmeets
  generalize hr : r.first input = found' at hmeets
  cases hmeets with
  | @blank c p k rest hc => exact h.matches_blank hc hr hs
  | same hfound =>
    obtain ⟨read, k, rest⟩ := found
    cases read with
    | finish =>
      rw [Scanner.next, Scanner.next, hs, hr]
      exact .same (h.moveTo k .ended h.lexicon_eq h.wide_eq)
    | fault f =>
      rw [Scanner.next, Scanner.next, hs, hr]
      exact .same (h.moveTo k .nothing h.lexicon_eq h.wide_eq)
    | char c p => exact h.matches_draft (hfound c p rfl) hs hr

/-- The two scanners mirror each other from the start. -/
theorem mirrors_ofOptions (n : Nat) (options : Options) :
    Mirrors n (reset (.ofOptions document { options with skipWhiteSpace := true }))
      (reset (.ofOptions (document.withBlanks n) { options with skipWhiteSpace := false })) where
  lexicon_eq := (reset_keeps _).1.trans (reset_keeps _).1
  wide_eq := (reset_keeps _).1.trans (reset_keeps _).1
  skips_eq := by
    funext c
    exact Bool.true_and _
  takes c := Bool.false_and _
  maxChars_eq := rfl
  cursor_eq := rfl
  lookahead_eq := rfl

end Scanner

end LaxJson
