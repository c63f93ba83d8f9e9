import LaxJson.Proofs.Delivery
import LaxJson.Proofs.Scan.Cutting

/-!
# Tokens tile the text

A lexer that has brought some tokens from a text has dealt with a beginning of the text that
consists of the texts of the tokens and the white space between them, and nothing else. Every
token knows its place in it, and the lexer the place of what is left
(`Lexer.tiles_of_brings`). Nothing of this depends on the descriptors or the checker.
-/
namespace LaxJson

/-- White space that is passed over between tokens, if any is passed over. -/
def IsGap (skipWhiteSpace : Bool) (gap : List Char) : Prop :=
  (∀ c ∈ gap, Text.WhiteSpace.isBlank c = true) ∧ (skipWhiteSpace = false → gap = [])

/-- Behind `done` a text consists of the texts of tokens, each behind a gap and in its place. -/
inductive Tiles (skipWhiteSpace : Bool) : List Char → List Token → List Char → Prop
  | nil {done} : Tiles skipWhiteSpace done [] []
  | cons {done gap t ts text} (hg : IsGap skipWhiteSpace gap) (ht : t.text ≠ [])
      (hs : t.span = .of (done ++ gap) t.text)
      (h : Tiles skipWhiteSpace (done ++ gap ++ t.text) ts text) :
      Tiles skipWhiteSpace done (t :: ts) (gap ++ t.text ++ text)

/-- A token that a draft makes has the text of the draft and its place. -/
theorem Draft.Shows.of_token_eq {R : Type} [Descriptor R] {d : Draft R} {done text : List Char}
    {t : Token} (h : d.Shows done text) (ht : d.token = .ok t) :
    t.text = text ∧ t.span = .of done text := by
  unfold Draft.token at ht
  split at ht
  · cases ht
    exact h
  · cases ht

/-- A draft that makes no token is a part of a text that is not whole. -/
theorem Draft.Shows.exists_of_token_eq_error {R : Type} [Descriptor R] {d : Draft R}
    {done text : List Char} {f : ScanFault} (h : d.Shows done text) (ht : d.token = .error f) :
    ∃ role, f = .incomplete role text (.of done text) := by
  unfold Draft.token at ht
  split at ht
  · cases ht
  · cases ht
    exact ⟨_, by rw [h.1, h.2]⟩

namespace Scanner
variable {R : Type}

theorem isGap_of_skips {s : Scanner R} {gap : List Char} (h : ∀ b ∈ gap, s.skips b = true) :
    IsGap s.skipWhiteSpace gap := by
  simp only [skips, Bool.and_eq_true] at h
  refine ⟨fun b hb => (h b hb).2, fun hs => List.eq_nil_iff_forall_not_mem.2 fun b hb => ?_⟩
  have hskip := (h b hb).1
  rw [hs] at hskip
  cases hskip

/-- The scanner has dealt with `done`, and the text `left` is before it, of which one character
may be held. -/
structure Splits (s : Scanner R) (input : Input) (done left : List Char) : Prop where
  stands : s.Stands done
  ahead_eq : s.ahead input = .ofChars left
  eq_nil_of_ended : s.lookahead = .ended → input = []

/-- At most one character of what is left has been taken from the input. -/
theorem Splits.exists_drop {s : Scanner R} {input : Input} {done left : List Char}
    (h : s.Splits input done left) : ∃ n ≤ 1, input = .ofChars (left.drop n) := by
  have hahead := h.ahead_eq
  unfold ahead at hahead
  split at hahead <;> rename_i hl
  · cases left with
    | nil => cases hahead
    | cons c left => exact ⟨1, Nat.le_refl 1, (List.cons.inj hahead).2⟩
  · exact ⟨0, Nat.zero_le 1, hahead⟩
  · cases left with
    | nil => exact ⟨0, Nat.zero_le 1, h.eq_nil_of_ended hl⟩
    | cons c left => cases hahead

/-- A call has cut `part` off what was ahead, behind a gap; what follows may fail. -/
structure CutsOff (s : Scanner R) (done : List Char) (ahead : Input) (gap part : List Char)
    (s' : Scanner R) (rest : Input) : Prop where
  ahead_eq : ahead = Input.ofChars (gap ++ part) ++ s'.ahead rest
  isGap : IsGap s.skipWhiteSpace gap
  ne_nil : part ≠ []
  skip_eq : s'.skipWhiteSpace = s.skipWhiteSpace
  stands : s'.Stands (done ++ gap ++ part)
  eq_nil_of_ended : s'.lookahead = .ended → rest = []

/-- Where a part has been cut off a text, the scanner has dealt with it and goes on behind. -/
theorem CutsOff.exists_splits {s s' : Scanner R} {done left gap part : List Char} {rest : Input}
    (h : s.CutsOff done (.ofChars left) gap part s' rest) :
    ∃ left', left = gap ++ part ++ left' ∧ s'.Splits rest (done ++ gap ++ part) left' := by
  obtain ⟨left', hleft, hahead⟩ := Input.eq_ofChars_of_append h.ahead_eq
  exact ⟨left', hleft, h.stands, hahead, h.eq_nil_of_ended⟩

variable [Descriptor R]

theorem splits_reset (s : Scanner R) (text : List Char) :
    s.reset.Splits (.ofChars text) [] text :=
  ⟨stands_reset s, rfl, nofun⟩

/-- What one call gives, as far as reading does not fail, in the terms of the text ahead. -/
inductive Gives (s : Scanner R) (done : List Char) (ahead : Input) :
    Except ScanFault (Option Token) × Scanner R × Input → Prop
  | finish {gap s' rest} (ha : ahead = .ofChars gap) (hg : IsGap s.skipWhiteSpace gap)
      (hs : s'.Stands (done ++ gap)) : Gives s done ahead (.ok none, s', rest)
  | readFault {f s' rest} (hf : f.isReadFault = true) : Gives s done ahead (.error f, s', rest)
  | noMatch {gap c s' rest} (h : s.CutsOff done ahead gap [c] s' rest) :
      Gives s done ahead (.error (.noMatch c (.after (done ++ gap))), s', rest)
  | incomplete {gap part role s' rest} (h : s.CutsOff done ahead gap part s' rest) :
      Gives s done ahead (.error (.incomplete role part (.of (done ++ gap) part)), s', rest)
  | token {gap t s' rest} (h : s.CutsOff done ahead gap t.text s' rest)
      (hs : t.span = .of (done ++ gap) t.text) : Gives s done ahead (.ok (some t), s', rest)

theorem Stands.gives_next {s : Scanner R} {done : List Char} (h : s.Stands done) (input : Input) :
    s.Gives done (s.ahead input) (s.next input) := by
  have hcuts := cuts_next h input
  generalize s.next input = answer at hcuts ⊢
  cases hcuts with
  | finish ha hg hk => exact .finish ha (isGap_of_skips hg) hk
  | fault hf => exact .readFault hf
  | @noMatch gap c k rest ha hg hc hb hk =>
    refine .noMatch ⟨?_, isGap_of_skips hg, by simp, rfl, hk, nofun⟩
    rw [ha, Input.ofChars_append, List.append_assoc]
    rfl
  | broken ha hb hk ht hh => exact .readFault hh.of_fault.2.2
  | @token gap c more tail d k d₁ k₁ read d' k' rest ha hg hc hb hk ht hh hr =>
    obtain ⟨hk₁, hshows⟩ := Draft.shows_of_run hb hk ht hh
    obtain ⟨hstands, hahead⟩ := stands_of_halts hk₁ hh hr
    have hended : read.lookahead = .ended → rest = [] := by
      intro he
      cases hh with
      | finish => rfl
      | char => cases he
      | unreadable | tooLong => exact absurd rfl (hr _)
    have hcut : s.CutsOff done (s.ahead input) gap (c :: more)
        (s.moveTo d'.lexicon k' read.lookahead) rest :=
      ⟨by rw [hahead, ha], isGap_of_skips hg, by simp, rfl, hstands, hended⟩
    cases htok : d'.token with
    | ok t =>
      obtain ⟨htext, hspan⟩ := hshows.of_token_eq htok
      rw [← htext] at hcut hspan
      exact .token hcut hspan
    | error f =>
      obtain ⟨role, rfl⟩ := hshows.exists_of_token_eq_error htok
      exact .incomplete hcut

/-- A token is cut off what is ahead. -/
theorem Stands.exists_of_next {s s' : Scanner R} {input rest : Input} {done : List Char}
    {t : Token} (h : s.Stands done) (hn : s.next input = (.ok (some t), s', rest)) :
    ∃ gap, s.ahead input = Input.ofChars (gap ++ t.text) ++ s'.ahead rest ∧
      IsGap s.skipWhiteSpace gap ∧ t.text ≠ [] ∧ t.span = .of (done ++ gap) t.text ∧
      s'.skipWhiteSpace = s.skipWhiteSpace ∧ s'.Stands (done ++ gap ++ t.text) ∧
      (s'.lookahead = .ended → rest = []) := by
  have hgives := h.gives_next input
  rw [hn] at hgives
  cases hgives with
  | token hcut hspan =>
    exact ⟨_, hcut.ahead_eq, hcut.isGap, hcut.ne_nil, hspan, hcut.skip_eq, hcut.stands,
      hcut.eq_nil_of_ended⟩

/-- At its end there is only a gap ahead. -/
theorem Stands.exists_gap_of_next {s s' : Scanner R} {input rest : Input} {done : List Char}
    (h : s.Stands done) (hn : s.next input = (.ok none, s', rest)) :
    ∃ gap, s.ahead input = .ofChars gap ∧ IsGap s.skipWhiteSpace gap ∧
      s'.Stands (done ++ gap) := by
  have hgives := h.gives_next input
  rw [hn] at hgives
  cases hgives with
  | finish ha hg hs => exact ⟨_, ha, hg, hs⟩

theorem Splits.gives_next {s : Scanner R} {input : Input} {done left : List Char}
    (h : s.Splits input done left) : s.Gives done (.ofChars left) (s.next input) := by
  rw [← h.ahead_eq]
  exact h.stands.gives_next input

/-- A token is cut off what is left, behind a gap. -/
theorem Splits.exists_of_next {s s' : Scanner R} {input rest : Input} {done left : List Char}
    {t : Token} (h : s.Splits input done left) (hn : s.next input = (.ok (some t), s', rest)) :
    ∃ gap left', left = gap ++ t.text ++ left' ∧ IsGap s.skipWhiteSpace gap ∧ t.text ≠ [] ∧
      t.span = .of (done ++ gap) t.text ∧ s'.skipWhiteSpace = s.skipWhiteSpace ∧
      s'.Splits rest (done ++ gap ++ t.text) left' := by
  have hgives := h.gives_next
  rw [hn] at hgives
  cases hgives with
  | token hcut hspan =>
    obtain ⟨left', hleft, hsplits⟩ := hcut.exists_splits
    exact ⟨_, left', hleft, hcut.isGap, hcut.ne_nil, hspan, hcut.skip_eq, hsplits⟩

theorem Splits.isGap_of_next {s s' : Scanner R} {input rest : Input} {done left : List Char}
    (h : s.Splits input done left) (hn : s.next input = (.ok none, s', rest)) :
    IsGap s.skipWhiteSpace left := by
  obtain ⟨gap, ha, hgap, -⟩ := h.stands.exists_gap_of_next hn
  rwa [Input.ofChars_injective (h.ahead_eq.symm.trans ha)]

theorem Splits.exists_tiles {s s' : Scanner R} {input rest : Input} {done left : List Char}
    {ts : List Token} (hs : s.Splits input done left) (h : Brings next s input ts s' rest) :
    ∃ before left', left = before ++ left' ∧ Tiles s.skipWhiteSpace done ts before ∧
      s'.skipWhiteSpace = s.skipWhiteSpace ∧ s'.Splits rest (done ++ before) left' := by
  induction h generalizing done left with
  | nil => exact ⟨[], left, rfl, .nil, rfl, by simpa using hs⟩
  | cons h _ ih =>
    obtain ⟨gap, left₁, rfl, hgap, htext, hspan, hskip, hs₁⟩ := hs.exists_of_next h
    obtain ⟨before, left', rfl, htiles, hskip', hs'⟩ := ih hs₁
    rw [hskip] at htiles hskip'
    exact ⟨gap ++ _ ++ before, left', by simp, .cons hgap htext hspan htiles, hskip',
      by simpa using hs'⟩

end Scanner

namespace Lexer
variable {V R : Type} [Checker V] [Descriptor R]

theorem tiles_of_brings_of_splits {l l' : Lexer V R} {input rest : Input} {ts : List Token}
    (h : Brings next l input ts l' rest) {done left : List Char}
    (hs : l.scanner.Splits input done left) :
    ∃ before left', left = before ++ left' ∧ Tiles l.scanner.skipWhiteSpace done ts before ∧
      l'.scanner.skipWhiteSpace = l.scanner.skipWhiteSpace ∧
      l'.scanner.Splits rest (done ++ before) left' :=
  hs.exists_tiles (brings_scanner h)

/-- However many calls have brought tokens from a text since the reset, the text up to where the
lexer stands consists of the texts of the tokens, in their places, and of gaps. At most one
character behind it has been read, and if there is no further token, what is left is a gap. -/
theorem tiles_of_brings {l l' : Lexer V R} {text : List Char} {rest : Input} {ts : List Token}
    (h : Brings next l.reset (.ofChars text) ts l' rest) :
    ∃ before left, text = before ++ left ∧ Tiles l.scanner.skipWhiteSpace [] ts before ∧
      l'.position = .after before ∧ (∃ n ≤ 1, rest = .ofChars (left.drop n)) ∧
      ((l'.next rest).1 = .ok none → IsGap l.scanner.skipWhiteSpace left) := by
  obtain ⟨before, left, htext, htiles, hskip, hs⟩ :=
    tiles_of_brings_of_splits h (Scanner.splits_reset l.scanner text)
  refine ⟨before, left, htext, htiles, hs.stands.position_eq, hs.exists_drop, fun hn => ?_⟩
  rcases hnext : l'.next rest with ⟨_, l'', rest'⟩
  rw [hnext] at hn
  cases hn
  have hgap := hs.isGap_of_next (scanner_next_of_finish hnext)
  rw [hskip] at hgap
  exact hgap

/-- The newline belongs to the comment, and the bracket stands behind a gap on the next line. -/
theorem tiles_of_brings_comment :
    ∃ (l' : Lexer DocumentChecker) (rest : Input) (before left : List Char),
      Brings next (Parser.ofOptions {}).lexer.reset (.ofChars "#a\n [ ".toList)
        [⟨.comment, .comment, "#a\n".toList, ⟨⟨0, 0⟩, ⟨0, 2⟩⟩⟩,
          ⟨.operator, .opening .array, ['['], ⟨⟨1, 1⟩, ⟨1, 1⟩⟩⟩] l' rest ∧
      "#a\n [ ".toList = before ++ left ∧ l'.position = .after before ∧
      (∃ n ≤ 1, rest = .ofChars (left.drop n)) ∧ IsGap true left := by
  have hbrings : ∃ (l' : Lexer DocumentChecker) (rest : Input),
      Brings next (Parser.ofOptions {}).lexer.reset (.ofChars "#a\n [ ".toList)
        [⟨.comment, .comment, "#a\n".toList, ⟨⟨0, 0⟩, ⟨0, 2⟩⟩⟩,
          ⟨.operator, .opening .array, ['['], ⟨⟨1, 1⟩, ⟨1, 1⟩⟩⟩] l' rest ∧
        (l'.next rest).1 = .ok none :=
    ⟨_, _, .cons rfl (.cons rfl .nil), rfl⟩
  obtain ⟨l', rest, hb, hnone⟩ := hbrings
  obtain ⟨before, left, htext, -, hposition, hrest, hgap⟩ := tiles_of_brings hb
  exact ⟨l', rest, before, left, hb, htext, hposition, hrest, hgap hnone⟩

end Lexer

end LaxJson
