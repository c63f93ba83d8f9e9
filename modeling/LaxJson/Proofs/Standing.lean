import LaxJson.Proofs.Places
import LaxJson.Proofs.Progress

/-!
# Where a lexer stands

A caller who goes on after faults and refusals finds the lexer behind all that it has consumed: a
call takes a next part of the text, and the part is a token, or what the fault is about
(`Scanner.Follows.proceeds_next`). So it is up to the limit on the length of a text. The first
character beyond the limit is taken from the input, but the scanner is left standing at it, and
there it stays, whatever else it takes (`Scanner.Overran.next`). So the position is that of the
first character that has not been consumed just as long as no call has met the limit
(`Lexer.position_eq_after_consumed_iff`).
-/
namespace LaxJson

/-- A text that ends in the place where a part of it ends is no longer than the part. -/
theorem Position.after_append_eq_iff {before more : List Char} :
    after (before ++ more) = after before ↔ more = [] := by
  refine ⟨fun h => ?_, fun h => by rw [h, List.append_nil]⟩
  obtain ⟨hline, hcolumn⟩ := Position.mk.inj h
  have hnot : '\n' ∉ more := by
    rw [List.count_append] at hline
    exact List.count_eq_zero.1 (by omega)
  have hall : ∀ c ∈ more.reverse, decide (c ≠ '\n') = true := by
    intro c hc
    exact decide_eq_true fun he => hnot (he ▸ List.mem_reverse.1 hc)
  rw [List.reverse_append, List.takeWhile_append_of_pos hall, List.length_append] at hcolumn
  exact List.length_eq_zero_iff.1 (by simpa using hcolumn)

/-- Whatever such a checker refuses, it refuses in the place of the token. -/
def Checker.Blames (V : Type) [Checker V] : Prop :=
  ∀ (v w : V) (t : Token) (r : Refusal), check v t = (some r, w) → r.span = t.span

theorem DocumentChecker.blames : Checker.Blames DocumentChecker :=
  fun _ _ _ _ h => span_eq_of_check h

namespace Scanner
variable {R : Type}

/-- With `before` consumed, a call that gives such an answer has consumed the longer text. Tokens
stand behind a gap, and so does what comes to nothing; a character that is too many may stand
anywhere. -/
inductive Consumes (skipWhiteSpace : Bool) (before : List Char) :
    Except ScanFault (Option Token) → List Char → Prop
  | finish {gap} (hg : IsGap skipWhiteSpace gap) :
      Consumes skipWhiteSpace before (.ok none) (before ++ gap)
  | token {gap t} (hg : IsGap skipWhiteSpace gap) (ht : t.text ≠ [])
      (hs : t.span = .of (before ++ gap) t.text) :
      Consumes skipWhiteSpace before (.ok (some t)) (before ++ gap ++ t.text)
  | noMatch {gap c} (hg : IsGap skipWhiteSpace gap) :
      Consumes skipWhiteSpace before (.error (.noMatch c (.after (before ++ gap))))
        (before ++ gap ++ [c])
  | incomplete {gap part role} (hg : IsGap skipWhiteSpace gap) (hp : part ≠ []) :
      Consumes skipWhiteSpace before
        (.error (.incomplete role part (.of (before ++ gap) part))) (before ++ gap ++ part)
  | tooLong {passed c} :
      Consumes skipWhiteSpace before
        (.error (.tooLong (before ++ passed).length (.after (before ++ passed))))
        (before ++ passed ++ [c])

/-- What has been consumed of a text: all that has been taken from the input, without the
character that is held. -/
def consumed (s : Scanner R) (text : List Char) (input : Input) : List Char :=
  text.take (text.length - s.weight input)

/-- The scanner has read beyond its limit, which it has met behind `done`. It stands there still,
though it has taken what follows from the input, or a part of that. -/
structure Overran (s : Scanner R) (done text : List Char) (input : Input) : Prop where
  spent : s.Spent done.length
  position_eq : s.position = .after done
  exists_taken : ∃ taken left, taken ≠ [] ∧ text = done ++ taken ++ left ∧ input = .ofChars left

/-- What a call with `before` consumed comes to: the scanner goes on behind all that has been
consumed by then, or it has read beyond the limit. -/
inductive Proceeds (s : Scanner R) (text before : List Char) :
    Except ScanFault (Option Token) × Scanner R × Input → Prop
  | within {answer s' rest left}
      (hc : Consumes s.skipWhiteSpace before answer (s'.consumed text rest))
      (hn : ∀ limit p, answer ≠ .error (.tooLong limit p))
      (hf : s'.Follows rest text (s'.consumed text rest) left) :
      Proceeds s text before (answer, s', rest)
  | beyond {done s' rest}
      (hc : Consumes s.skipWhiteSpace before (.error (.tooLong done.length (.after done)))
        (s'.consumed text rest))
      (ho : s'.Overran done text rest) :
      Proceeds s text before (.error (.tooLong done.length (.after done)), s', rest)

section
variable {s s' : Scanner R} {limit : Nat} {text done before left : List Char}
  {input rest : Input}

theorem consumed_eq (ht : text = before ++ left) (hw : s.weight input = left.length) :
    s.consumed text input = before := by
  have hlength : text.length - s.weight input = before.length := by
    rw [hw, ht, List.length_append, Nat.add_sub_cancel]
  rw [consumed, hlength, ht, List.take_left]

theorem Splits.weight_eq (h : s.Splits input before left) : s.weight input = left.length := by
  have hahead := congrArg List.length h.ahead_eq
  rw [Input.length_ofChars] at hahead
  rw [← hahead]
  unfold weight ahead
  cases hl : s.lookahead with
  | held | nothing => rfl
  | ended => rw [h.eq_nil_of_ended hl]

theorem Follows.consumed_eq (h : s.Follows input text before left) :
    s.consumed text input = before :=
  Scanner.consumed_eq h.text_eq h.splits.weight_eq

theorem Proceeds.consumes {call : Except ScanFault (Option Token) × Scanner R × Input}
    (h : s.Proceeds text before call) :
    Consumes s.skipWhiteSpace before call.1 (call.2.1.consumed text call.2.2) := by
  cases h with
  | within hc | beyond hc => exact hc

theorem Follows.proceeds {answer : Except ScanFault (Option Token)}
    (h : s'.Follows rest text before left)
    (hc : Consumes s.skipWhiteSpace done answer before)
    (hn : ∀ limit p, answer ≠ .error (.tooLong limit p)) :
    s.Proceeds text done (answer, s', rest) := by
  rw [← h.consumed_eq] at hc h
  exact .within hc hn h

theorem Spent.weight_eq (h : s.Spent limit) (input : Input) : s.weight input = input.length := by
  unfold weight
  cases hl : s.lookahead with
  | held c p => exact absurd hl (h.not_held c p)
  | nothing | ended => rfl

theorem Spent.position_eq (h : s.Spent limit) : s.position = s.cursor.position := by
  unfold position
  cases hl : s.lookahead with
  | held c p => exact absurd hl (h.not_held c p)
  | nothing | ended => rfl

theorem Overran.consumed_eq (h : s.Overran done text input) :
    ∃ taken, taken ≠ [] ∧ s.consumed text input = done ++ taken := by
  obtain ⟨taken, left, hne, ht, rfl⟩ := h.exists_taken
  refine ⟨taken, hne, Scanner.consumed_eq ht ?_⟩
  rw [h.spent.weight_eq, Input.length_ofChars]

/-- What has been consumed goes beyond the place where the scanner stands. -/
theorem Overran.position_ne (h : s.Overran done text input) :
    s.position ≠ .after (s.consumed text input) := by
  obtain ⟨taken, hne, hconsumed⟩ := h.consumed_eq
  rw [h.position_eq, hconsumed]
  exact fun he => hne (Position.after_append_eq_iff.1 he.symm)

theorem overran_moveTo {c : Char} (hm : done.length ∈ s.maxChars) (ht : text = done ++ c :: left)
    (lexicon : List R) :
    (s.moveTo lexicon (Cursor.behind done).overrun .nothing).Overran done text (.ofChars left) :=
  ⟨⟨hm, Nat.le_succ _, by simp⟩, rfl, [c], left, by simp, by simp [ht], rfl⟩

/-- Beyond the limit every further character is reported, and in the same place. -/
theorem Spent.first_ofChars (h : s.Spent limit) (left : List Char) :
    ((s.first (.ofChars left)).1 = .finish ∨
        (s.first (.ofChars left)).1 = .fault (.tooLong limit s.position)) ∧
      (s.first (.ofChars left)).2.1.position = s.position ∧
      ∃ more left', left = more ++ left' ∧ (s.first (.ofChars left)).2.2 = .ofChars left' := by
  have hmet : s.cursor.limit? s.maxChars = some limit := by
    simp [Cursor.limit?, h.maxChars, h.consumed]
  rw [h.position_eq]
  unfold Scanner.first
  cases hl : s.lookahead with
  | held c p => exact absurd hl (h.not_held c p)
  | ended => exact ⟨.inl rfl, rfl, [], left, rfl, rfl⟩
  | nothing =>
    unfold Scanner.seek
    cases left with
    | nil => exact ⟨.inl rfl, rfl, [], [], rfl, rfl⟩
    | cons c left =>
      rw [Input.ofChars_cons, gather, hmet]
      exact ⟨.inr rfl, rfl, [c], left, rfl, rfl⟩

theorem CutsOff.exists_follows {gap part : List Char}
    (h : s.CutsOff before (.ofChars left) gap part s' rest) (ht : text = before ++ left)
    (hc : s'.Counts text rest) : ∃ left', s'.Follows rest text (before ++ gap ++ part) left' := by
  obtain ⟨left', rfl, hsplits⟩ := h.exists_splits
  exact ⟨left', by simp [ht], hsplits, hc⟩

/-- A call that has used up some of the text has met the limit behind `before`. -/
theorem Follows.prefix_of_lt (h : s.Follows input text before left) {c : Char} {left' : List Char}
    (ht : text = done ++ c :: left') (hlt : left'.length < s.weight input) : before <+: done := by
  rw [h.splits.weight_eq] at hlt
  have hlength := congrArg List.length (h.text_eq.symm.trans ht)
  simp only [List.length_append, List.length_cons] at hlength
  exact List.prefix_of_prefix_length_le ⟨left, h.text_eq.symm⟩ ⟨_, ht.symm⟩ (by omega)

end

variable [Descriptor R] {s s' : Scanner R} {text done before left : List Char}
  {input rest : Input}

/-- A scanner that has read beyond its limit stays where it is. It tells the end, or it reports
once more what it has reported. -/
theorem Overran.next (h : s.Overran done text input) :
    ((s.next input).1 = .ok none ∨
        (s.next input).1 = .error (.tooLong done.length (.after done))) ∧
      (s.next input).2.1.Overran done text (s.next input).2.2 := by
  obtain ⟨hspent, hposition, taken, left, hne, ht, rfl⟩ := h
  have hnext := (hspent.next (.ofChars left)).2
  obtain ⟨hread, hat, more, left', hleft, hrest⟩ := hspent.first_ofChars left
  rw [hposition] at hread hat
  have htaken : ∃ taken left', taken ≠ [] ∧ text = done ++ taken ++ left' ∧
      (s.first (.ofChars left)).2.2 = .ofChars left' :=
    ⟨taken ++ more, left', by simp [hne], by simp [ht, hleft], hrest⟩
  unfold Scanner.next at hnext ⊢
  generalize s.first (.ofChars left) = found at hread hat htaken hnext ⊢
  obtain ⟨read, k, rest⟩ := found
  rcases hread with rfl | rfl
  · exact ⟨.inl rfl, hnext, hat, htaken⟩
  · exact ⟨.inr rfl, hnext, hat, htaken⟩

/-- A call takes a next part of the text, and the part is what the answer is about. -/
theorem Follows.proceeds_next (h : s.Follows input text before left) :
    s.Proceeds text before (s.next input) := by
  rcases h.counts.next with ⟨done, c, left', lexicon, htext, hmem, hnext⟩ | ⟨hread, hcounts⟩
  · have hless := s.weight_next_lt input (by simp [hnext])
    rw [hnext, weight_moveTo_nothing, Input.length_ofChars] at hless
    obtain ⟨passed, rfl⟩ := h.prefix_of_lt htext hless
    have htaken : text = before ++ passed ++ [c] ++ left' := by simp [htext]
    have hconsumed : (s.moveTo lexicon (Cursor.behind (before ++ passed)).overrun .nothing).consumed
        text (.ofChars left') = before ++ passed ++ [c] := by
      refine Scanner.consumed_eq htaken ?_
      rw [weight_moveTo_nothing, Input.length_ofChars]
    rw [hnext]
    refine .beyond ?_ (overran_moveTo hmem htext lexicon)
    rw [hconsumed]
    exact .tooLong
  · have hgives := h.splits.gives_next
    have hended (he : (s.next input).1 = .ok none) := ended_of_next_eq_none he
    generalize s.next input = call at hread hcounts hgives hended ⊢
    cases hgives with
    | @finish gap s' rest ha hg hs =>
      obtain ⟨hl, hrest⟩ := hended rfl
      have hgap : left = gap := Input.ofChars_injective ha
      have hahead : s'.ahead rest = .ofChars [] := by
        rw [ahead, hl]
        rfl
      have hfollows : s'.Follows rest text (before ++ gap) [] :=
        ⟨by simp [h.text_eq, hgap], ⟨hs, hahead, fun _ => hrest h.splits.eq_nil_of_ended⟩, hcounts⟩
      exact hfollows.proceeds (.finish hg) (by simp)
    | @readFault f s' rest hf =>
      rw [hread f rfl] at hf
      cases hf
    | noMatch hcut =>
      obtain ⟨left', hfollows⟩ := hcut.exists_follows h.text_eq hcounts
      exact hfollows.proceeds (.noMatch hcut.isGap) (by simp)
    | incomplete hcut =>
      obtain ⟨left', hfollows⟩ := hcut.exists_follows h.text_eq hcounts
      exact hfollows.proceeds (.incomplete hcut.isGap hcut.ne_nil) (by simp)
    | token hcut hspan =>
      obtain ⟨left', hfollows⟩ := hcut.exists_follows h.text_eq hcounts
      exact hfollows.proceeds (.token hcut.isGap hcut.ne_nil hspan) (by simp)

end Scanner

namespace Lexer

/-- With `before` consumed, a call that gives such an answer has consumed the longer text. A token
that is refused is consumed like any other. -/
inductive Consumes (V : Type) [Checker V] (skipWhiteSpace : Bool) (before : List Char) :
    Except TokenFault (Option Token) → List Char → Prop
  | answer {t? behind} (h : Scanner.Consumes skipWhiteSpace before (.ok t?) behind) :
      Consumes V skipWhiteSpace before (.ok t?) behind
  | fault {f behind} (h : Scanner.Consumes skipWhiteSpace before (.error f) behind) :
      Consumes V skipWhiteSpace before (.error (.scan f)) behind
  | refused {v w : V} {t r behind}
      (h : Scanner.Consumes skipWhiteSpace before (.ok (some t)) behind)
      (hc : Checker.check v t = (some r, w)) :
      Consumes V skipWhiteSpace before (.error (.refused r)) behind

variable {V R : Type} [Checker V]

/-- The place of a fault is that of the first character of what it is about, which has been
consumed with it. -/
theorem Consumes.exists_part {skipWhiteSpace : Bool} {before behind : List Char} {f : TokenFault}
    (h : Consumes V skipWhiteSpace before (.error f) behind) (hb : Checker.Blames V) :
    ∃ passed part, behind = before ++ passed ++ part ∧ part ≠ [] ∧
      f.position = .after (before ++ passed) := by
  cases h with
  | fault h =>
    cases h with
    | noMatch | tooLong => exact ⟨_, _, rfl, by simp, rfl⟩
    | incomplete hg hp => exact ⟨_, _, rfl, hp, rfl⟩
  | @refused v w t r behind h hc =>
    cases h with
    | token hg ht hs =>
      have hspan := (hb v w t r hc).trans hs
      exact ⟨_, _, rfl, ht, congrArg Span.first hspan⟩

variable [Descriptor R]

/-- What `n` calls have consumed of a text. -/
def consumed (l : Lexer V R) (text : List Char) (n : Nat) : List Char :=
  (l.after (.ofChars text) n).1.scanner.consumed text (l.after (.ofChars text) n).2

/-- None of the first `n` calls meets the limit on the length of a text. -/
def WithinLimit (l : Lexer V R) (text : List Char) (n : Nat) : Prop :=
  ∀ k < n, ∀ limit p, l.answer (.ofChars text) k ≠ .error (.scan (.tooLong limit p))

/-- Where `n` calls have led to: the scanner goes on behind all that has been consumed, or it has
read beyond the limit, and that is what it has reported. -/
inductive Fares (l : Lexer V R) (text : List Char) (n : Nat) : Prop
  | within {left} (hw : l.WithinLimit text n)
      (hf : (l.after (.ofChars text) n).1.scanner.Follows (l.after (.ofChars text) n).2 text
        (l.consumed text n) left)
  | beyond {done} (hw : ¬ l.WithinLimit text n)
      (hm : ∀ k < n, ∀ limit p, l.answer (.ofChars text) k = .error (.scan (.tooLong limit p)) →
        limit = done.length ∧ p = .after done)
      (ho : (l.after (.ofChars text) n).1.scanner.Overran done text (l.after (.ofChars text) n).2)

section
variable {l : Lexer V R} {text done before left : List Char} {input : Input}

theorem next_eq_scan_iff {f : ScanFault} :
    (l.next input).1 = .error (.scan f) ↔ (l.scanner.next input).1 = .error f := by
  have hanswers := l.answers_next input
  generalize l.next input = call at hanswers ⊢
  cases hanswers with
  | fault hs => simp [hs]
  | finish hs | unchecked hs | accepted hs | refused hs => simp [hs]

theorem consumes_next (h : l.scanner.Follows input text before left) :
    Consumes V l.scanner.skipWhiteSpace before (l.next input).1
      ((l.next input).2.1.scanner.consumed text (l.next input).2.2) := by
  have hconsumes := h.proceeds_next.consumes
  have hanswers := l.answers_next input
  generalize l.next input = call at hanswers ⊢
  cases hanswers with
  | finish hs | unchecked hs | accepted hs =>
    rw [hs] at hconsumes
    exact .answer hconsumes
  | fault hs =>
    rw [hs] at hconsumes
    exact .fault hconsumes
  | refused hs hv hc =>
    rw [hs] at hconsumes
    exact .refused hconsumes hc

theorem next_of_overran (h : l.scanner.Overran done text input) :
    ((l.next input).1 = .ok none ∨
        (l.next input).1 = .error (.scan (.tooLong done.length (.after done)))) ∧
      (l.next input).2.1.scanner.Overran done text (l.next input).2.2 := by
  obtain ⟨hanswer, hover⟩ := h.next
  have hanswers := l.answers_next input
  generalize l.next input = call at hanswers ⊢
  cases hanswers with
  | finish hs =>
    rw [hs] at hover
    exact ⟨.inl rfl, hover⟩
  | fault hs =>
    rw [hs] at hanswer hover
    obtain ⟨⟨⟩⟩ | ⟨⟨⟩⟩ := hanswer
    exact ⟨.inr rfl, hover⟩
  | unchecked hs | accepted hs | refused hs =>
    rw [hs] at hanswer
    obtain ⟨⟨⟩⟩ | ⟨⟨⟩⟩ := hanswer

end

theorem skipWhiteSpace_after (l : Lexer V R) (input : Input) (n : Nat) :
    (l.after input n).1.scanner.skipWhiteSpace = l.scanner.skipWhiteSpace := by
  induction n with
  | zero => rfl
  | succ n ih =>
    obtain ⟨_, _, _, hmove⟩ :=
      (l.after input n).1.scanner.exists_next_eq_moveTo (l.after input n).2
    rw [after, (next_eq_scanner_next _ _).1, hmove]
    exact ih

theorem withinLimit_succ {l : Lexer V R} {text : List Char} {n : Nat} :
    l.WithinLimit text (n + 1) ↔ l.WithinLimit text n ∧
      ∀ limit p, l.answer (.ofChars text) n ≠ .error (.scan (.tooLong limit p)) :=
  Nat.forall_lt_succ_right

theorem Fares.next {l : Lexer V R} {text : List Char} {n : Nat} (h : l.Fares text n) :
    l.Fares text (n + 1) := by
  cases h with
  | within hw hf =>
    obtain ⟨hscanner, hrest⟩ := next_eq_scanner_next (l.after (.ofChars text) n).1
      (l.after (.ofChars text) n).2
    have hanswer (f : ScanFault) : l.answer (.ofChars text) n = .error (.scan f) ↔ _ :=
      next_eq_scan_iff
    have hproceeds := hf.proceeds_next
    generalize (l.after (.ofChars text) n).1.scanner.next (l.after (.ofChars text) n).2 = call
      at hscanner hrest hanswer hproceeds
    cases hproceeds with
    | within hc hn hf' =>
      dsimp only at hscanner hrest
      rw [← hscanner, ← hrest] at hf'
      exact .within (withinLimit_succ.2 ⟨hw, fun limit p he => hn limit p ((hanswer _).1 he)⟩) hf'
    | beyond hc ho =>
      dsimp only at hscanner hrest
      rw [← hscanner, ← hrest] at ho
      refine .beyond (fun hw' => ?_) (fun k hk limit p he => ?_) ho
      · exact (withinLimit_succ.1 hw').2 _ _ ((hanswer _).2 rfl)
      · rcases Nat.lt_succ_iff_lt_or_eq.1 hk with hlt | rfl
        · exact absurd he (hw k hlt limit p)
        · cases (hanswer _).1 he
          exact ⟨rfl, rfl⟩
  | beyond hw hm ho =>
    obtain ⟨hanswer, hover⟩ := next_of_overran ho
    refine .beyond (fun hw' => hw (withinLimit_succ.1 hw').1) (fun k hk limit p he => ?_) hover
    rcases Nat.lt_succ_iff_lt_or_eq.1 hk with hlt | rfl
    · exact hm k hlt limit p he
    · rw [answer] at he
      rw [he] at hanswer
      obtain ⟨⟨⟩⟩ | ⟨⟨⟩⟩ := hanswer
      exact ⟨rfl, rfl⟩

theorem fares_reset (l : Lexer V R) (text : List Char) (n : Nat) : l.reset.Fares text n := by
  induction n with
  | zero =>
    have hfollows := Scanner.follows_reset l.scanner text
    rw [← hfollows.consumed_eq] at hfollows
    exact .within nofun hfollows
  | succ n ih => exact ih.next

/-- A lexer that is new to a text, with any descriptors, options and checker, is called again and
again, whatever it answers. As long as no call has met the limit on the length of the text, and no
longer, the lexer stands behind all that has been taken from the text and is not held for the next
token. Each of these calls takes a next part of the text, and its answer says what the part is.
A fault has the place of the first character of what it is about, and so has a refusal by a checker
that refuses tokens in their place. From the call on that meets the limit, the lexer stands at the
first character beyond it, though that has been taken, and says nothing but that, or the end. -/
theorem position_eq_after_consumed_iff (l : Lexer V R) (text : List Char) (n : Nat) :
    let m := l.reset
    let input := Input.ofChars text
    ((m.after input n).1.position = .after (m.consumed text n) ↔ m.WithinLimit text n) ∧
    (m.WithinLimit text n →
      Consumes V l.scanner.skipWhiteSpace (m.consumed text n) (m.answer input n)
          (m.consumed text (n + 1)) ∧
        (Checker.Blames V → ∀ f, m.answer input n = .error f → ∃ passed part,
          m.consumed text (n + 1) = m.consumed text n ++ passed ++ part ∧ part ≠ [] ∧
            f.position = .after (m.consumed text n ++ passed))) ∧
    ∀ k < n, ∀ limit p, m.answer input k = .error (.scan (.tooLong limit p)) →
      (m.after input n).1.position = p ∧
        (m.answer input n = .ok none ∨
          m.answer input n = .error (.scan (.tooLong limit p))) := by
  intro m input
  have hskip : (m.after input n).1.scanner.skipWhiteSpace = l.scanner.skipWhiteSpace :=
    skipWhiteSpace_after l.reset input n
  cases fares_reset l text n with
  | within hw hf =>
    have hconsumes : Consumes V l.scanner.skipWhiteSpace (m.consumed text n) (m.answer input n)
        (m.consumed text (n + 1)) := by
      rw [← hskip]
      exact consumes_next hf
    refine ⟨iff_of_true hf.splits.stands.position_eq hw, fun _ => ⟨hconsumes, fun hb f he => ?_⟩,
      fun k hk limit p he => absurd he (hw k hk limit p)⟩
    rw [he] at hconsumes
    exact hconsumes.exists_part hb
  | beyond hw hm ho =>
    refine ⟨iff_of_false ho.position_ne hw, fun h => absurd h hw, fun k hk limit p he => ?_⟩
    obtain ⟨rfl, rfl⟩ := hm k hk limit p he
    exact ⟨ho.position_eq, (next_of_overran ho).1⟩

/-- The number that is refused is consumed, and it is blamed in its own place. -/
theorem position_eq_after_consumed_iff_refused :
    let m := (Parser.ofOptions {}).lexer.reset
    let text := "1 2".toList
    m.WithinLimit text 2 ∧ (m.after (.ofChars text) 2).1.position = .after (m.consumed text 2) ∧
      ∃ f, m.answer (.ofChars text) 1 = .error f ∧ ∃ passed part,
        m.consumed text 2 = m.consumed text 1 ++ passed ++ part ∧ part ≠ [] ∧
          f.position = .after (m.consumed text 1 ++ passed) := by
  intro m text
  have h0 : m.answer (.ofChars text) 0 =
    .ok (some ⟨.operand, .scalar .integer, ['1'], ⟨⟨0, 0⟩, ⟨0, 0⟩⟩⟩) := by decide
  have h1 : m.answer (.ofChars text) 1 = .error (.refused ⟨.afterScalar, ⟨⟨0, 2⟩, ⟨0, 2⟩⟩⟩) := by
    decide
  have hw1 : m.WithinLimit text 1 := withinLimit_succ.2 ⟨nofun, fun _ _ => by rw [h0]; nofun⟩
  have hw2 : m.WithinLimit text 2 := withinLimit_succ.2 ⟨hw1, fun _ _ => by rw [h1]; nofun⟩
  obtain ⟨-, hparts, -⟩ := position_eq_after_consumed_iff (Parser.ofOptions {}).lexer text 1
  obtain ⟨hposition, -, -⟩ := position_eq_after_consumed_iff (Parser.ofOptions {}).lexer text 2
  exact ⟨hw2, hposition.2 hw2, _, h1, (hparts hw1).2 DocumentChecker.blames _ h1⟩

/-- Of three digits only the first is within the limit. The second and the third have been taken by
the two calls, but both blame the place of the second, and there the lexer is left. -/
theorem position_ne_after_consumed :
    let m := (⟨.ofOptions Lexicon.document { maxChars := some 1 }, none⟩ :
      Lexer DocumentChecker).reset
    let text := "123".toList
    m.consumed text 1 = "12".toList ∧ m.consumed text 2 = text ∧
      (m.after (.ofChars text) 1).1.position ≠ .after (m.consumed text 1) ∧
      (m.after (.ofChars text) 2).1.position ≠ .after (m.consumed text 2) ∧
      m.answer (.ofChars text) 1 = .error (.scan (.tooLong 1 ⟨0, 1⟩)) ∧
      Position.after (m.consumed text 1) = ⟨0, 2⟩ := by
  decide

end Lexer

end LaxJson
