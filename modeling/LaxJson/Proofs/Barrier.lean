import LaxJson.Proofs.Delivery
import LaxJson.Proofs.Scan.Limit

/-!
# The limit on the length of a text is a barrier

Two scanners that differ in the limit alone, one of them without any, go through a text side by
side: call after call they give the same answers and stand at the same places. They part at the
first call that reads beyond the limit, for a gap, for a token or for the character behind it.
There the limited one reports the first character that is too many (`Scanner.Keeps.parts_next`),
and from then on it brings no token, whatever it is given to read (`Scanner.Spent.next`).
-/
namespace LaxJson

/-- How reading on in `text` without a limit compares with reading on within `limit`: both come
to the same, or the one reads beyond the limit and the other meets it. -/
inductive Barred {σ : Type} (limit : Nat) (text : List Char) :
    Read × σ × Cursor × Input → Read × σ × Cursor × Input → Prop
  | within {read s done left} (hr : ∀ f, read ≠ .fault f) (ht : text = done ++ left)
      (hd : done.length ≤ limit) (he : read = .finish → left = []) :
      Barred limit text (read, s, .behind done, .ofChars left)
        (read, s, .behind done, .ofChars left)
  | beyond {read s done left s' k rest} (ht : text = done ++ left) (hd : limit < done.length)
      (hk : limit ≤ k.consumed) :
      Barred limit text (read, s, .behind done, .ofChars left)
        (.fault (.tooLong limit (.after (text.take limit))), s', k, rest)

section
variable {σ : Type} (step : σ → Char → Position → Bool × σ) (s : σ)

/-- Without a limit reading on goes past one character at least, if there is one. -/
theorem exists_gather_none (done : List Char) (c : Char) (left : List Char) :
    ∃ read s' done' left', gather none step s (.behind done) (.ofChars (c :: left)) =
        (read, s', .behind done', .ofChars left') ∧
      done ++ c :: left = done' ++ left' ∧ done.length < done'.length := by
  have hadmits : Admits none done.length := by rintro _ ⟨⟩
  have hm := meters_gather step s hadmits (c :: left)
  have hl := length_gather none step s (.behind done) (.ofChars (c :: left))
  generalize gather none step s (.behind done) (.ofChars (c :: left)) = run at hm hl
  obtain ⟨read, s', k, rest⟩ := run
  cases hm with
  | tooLong hmem => cases hmem
  | @within _ done' left' hr ht ha =>
    refine ⟨read, s', done', left', rfl, ht, ?_⟩
    have hlen := congrArg List.length ht
    have hleft : left'.length < left.length + 1 := by
      rcases hl with ⟨-, hnil⟩ | ⟨-, hlt⟩
      · have hnil' : left' = [] := List.map_eq_nil_iff.1 hnil
        rw [hnil', List.length_nil]
        omega
      · rwa [Input.length_ofChars, Input.length_ofChars] at hlt
    simp only [List.length_append, List.length_cons] at hlen
    omega

theorem length_gather_le (maxChars : Option Nat) (k : Cursor) (input : Input) :
    (gather maxChars step s k input).2.2.2.length ≤ input.length := by
  rcases length_gather maxChars step s k input with ⟨-, hnil⟩ | ⟨-, hlt⟩
  · rw [hnil]
    exact Nat.zero_le _
  · exact hlt.le

theorem barred_gather {limit : Nat} {done : List Char} (hd : done.length ≤ limit)
    (left : List Char) :
    Barred limit (done ++ left) (gather none step s (.behind done) (.ofChars left))
      (gather (some limit) step s (.behind done) (.ofChars left)) := by
  induction left generalizing s done with
  | nil =>
    have hend : Barred limit (done ++ []) (.finish, s, .behind done, .ofChars [])
      (.finish, s, .behind done, .ofChars []) := .within (by simp) rfl hd fun _ => rfl
    exact hend
  | cons c left ih =>
    by_cases hlimit : done.length = limit
    · obtain ⟨read, s', done', left', hfree, ht, hlt⟩ := exists_gather_none step s done c left
      have hmet : (Cursor.behind done).limit? (some limit) = some limit := by
        simp [Cursor.limit?, Cursor.behind, hlimit]
      have hposition : (Cursor.behind done).position = .after ((done ++ c :: left).take limit) := by
        rw [List.take_left' hlimit]
        rfl
      rw [hfree, Input.ofChars_cons, gather, hmet, hposition]
      have hcount : limit ≤ (Cursor.behind done).overrun.consumed := by
        rw [← hlimit]
        exact Nat.le_succ _
      exact .beyond ht (hlimit ▸ hlt) hcount
    · have hroom : (Cursor.behind done).limit? (some limit) = none := by
        have hadmits : Admits (some limit) limit := by
          rintro _ ⟨⟩
          exact Nat.le_refl limit
        exact hadmits.limit?_eq_none done (by omega)
      have hnone : (Cursor.behind done).limit? none = none := rfl
      have htext : done ++ c :: left = done ++ [c] ++ left := by simp
      have hd' : (done ++ [c]).length ≤ limit := by
        rw [List.length_append, List.length_singleton]
        omega
      rw [Input.ofChars_cons, gather, gather, hroom, hnone, Cursor.pass_behind, htext]
      rcases step s c (Cursor.behind done).position with ⟨_ | _, s'⟩
      · exact .within (by simp) rfl hd' (by simp)
      · exact ih s' hd'

end

/-- What a draft makes is never the end of the input. -/
theorem Draft.map_token_ne_none {R : Type} [Descriptor R] (d : Draft R) :
    d.token.map some ≠ .ok none := by
  cases d.token <;> simp [Except.map]

namespace Scanner
variable {R : Type} {s : Scanner R} {limit : Nat} {text : List Char} {input : Input}

/-- The same scanner with another limit on the length of a text. -/
def withMaxChars (s : Scanner R) (maxChars : Option Nat) : Scanner R := { s with maxChars }

/-- The scanner has no limit, and all that it has read of `text` is within `limit`. -/
inductive Keeps (limit : Nat) (text : List Char) (s : Scanner R) : Input → Prop
  | intro {done left} (hm : s.maxChars = none) (hk : s.cursor = .behind done)
      (ht : text = done ++ left) (hd : done.length ≤ limit)
      (he : s.lookahead = .ended → left = []) : Keeps limit text s (.ofChars left)

/-- Whatever is read next is beyond the limit, and no character is left from before. -/
structure Spent (limit : Nat) (s : Scanner R) : Prop where
  maxChars : s.maxChars = some limit
  consumed : limit ≤ s.cursor.consumed
  not_held : ∀ c p, s.lookahead ≠ .held c p

/-- What a call comes to without a limit and within one. -/
inductive Parts (limit : Nat) (text : List Char) :
    Except ScanFault (Option Token) × Scanner R × Input →
    Except ScanFault (Option Token) × Scanner R × Input → Prop
  | within {answer s input} (h : Keeps limit text s input) (he : answer = .ok none → input = []) :
      Parts limit text (answer, s, input) (answer, s.withMaxChars (some limit), input)
  | beyond {answer s input s' rest} (hlt : limit + input.length < text.length)
      (hs : Spent limit s') :
      Parts limit text (answer, s, input)
        (.error (.tooLong limit (.after (text.take limit))), s', rest)

theorem Keeps.length_le (h : s.Keeps limit text input) :
    text.length ≤ limit + input.length := by
  cases h with
  | intro hm hk ht hd he =>
    rw [ht, List.length_append, Input.length_ofChars]
    exact Nat.add_le_add_right hd _

theorem Keeps.barred_seek (h : s.Keeps limit text input) :
    Barred limit text ((s.seek input).1, (), (s.seek input).2)
      (((s.withMaxChars (some limit)).seek input).1, (),
        ((s.withMaxChars (some limit)).seek input).2) := by
  cases h with
  | intro hm hk ht hd he =>
    have hrun := barred_gather (fun _ c _ => (s.skips c, ())) () hd
    rw [Scanner.seek, Scanner.seek, withMaxChars, hm, hk, ht]
    exact hrun _

theorem Keeps.barred_first (h : s.Keeps limit text input) :
    Barred limit text ((s.first input).1, (), (s.first input).2)
      (((s.withMaxChars (some limit)).first input).1, (),
        ((s.withMaxChars (some limit)).first input).2) := by
  have hseek := h.barred_seek
  have hskips : ∀ c, (s.withMaxChars (some limit)).skips c = s.skips c := fun _ => rfl
  have hcursor : (s.withMaxChars (some limit)).cursor = s.cursor := rfl
  have hahead : (s.withMaxChars (some limit)).lookahead = s.lookahead := rfl
  cases h with
  | intro hm hk ht hd he =>
    unfold Scanner.first
    rw [hahead, hcursor, hk]
    cases hl : s.lookahead with
    | ended => exact .within (by simp) ht hd fun _ => he hl
    | nothing => exact hseek
    | held c p =>
      dsimp only
      rw [hskips]
      split
      · exact hseek
      · exact .within (by simp) ht hd (by simp)

theorem length_first_le (s : Scanner R) (input : Input) :
    (s.first input).2.2.length ≤ input.length := by
  have hseek : (s.seek input).2.2.length ≤ input.length := length_gather_le ..
  unfold Scanner.first
  split
  · exact Nat.le_refl _
  · exact hseek
  · split
    · exact hseek
    · exact Nat.le_refl _

/-- With nothing more to be read, a call meets the end, a failure to read, or the limit. -/
theorem Spent.first (h : s.Spent limit) (input : Input) :
    (∀ c p, (s.first input).1 ≠ .char c p) ∧ limit ≤ (s.first input).2.1.consumed := by
  obtain ⟨hm, hc, hheld⟩ := h
  have hmet : s.cursor.limit? s.maxChars = some limit := by simp [Cursor.limit?, hm, hc]
  have hseek : (∀ c p, (s.seek input).1 ≠ .char c p) ∧ limit ≤ (s.seek input).2.1.consumed := by
    unfold Scanner.seek
    rcases input with _ | ⟨_ | c, rest⟩
    · exact ⟨by simp [gather], hc⟩
    · exact ⟨by simp [gather], hc⟩
    · rw [gather, hmet]
      exact ⟨by simp, Nat.le_succ_of_le hc⟩
  unfold Scanner.first
  split
  · exact ⟨by simp, hc⟩
  · exact hseek
  · rename_i c p hl
    exact absurd hl (hheld c p)

variable [Descriptor R]

theorem keeps_reset (hm : s.maxChars = none) (limit : Nat) (text : List Char) :
    s.reset.Keeps limit text (.ofChars text) := by
  have hk : s.reset.cursor = .behind [] := rfl
  exact .intro hm hk rfl (Nat.zero_le _) (by simp [reset])

theorem length_next_le_first (s : Scanner R) (input : Input) :
    (s.next input).2.2.length ≤ (s.first input).2.2.length := by
  unfold next
  split
  · rename_i h
    rw [h]
  · rename_i h
    rw [h]
  · rename_i c p k rest h
    rw [h]
    dsimp only
    split
    · exact Nat.le_refl _
    · rename_i d _
      have hrun := length_gather_le Draft.extend d s.maxChars k rest
      split <;> rename_i hg <;> rwa [hg] at hrun

/-- What a call comes to once the end of a token has been found. -/
def conclude (s : Scanner R) :
    Read × Draft R × Cursor × Input → Except ScanFault (Option Token) × Scanner R × Input
  | (.fault f, d, k, rest) => (.error f, s.moveTo d.lexicon k .nothing, rest)
  | (read, d, k, rest) => (d.token.map some, s.moveTo d.lexicon k read.lookahead, rest)

/-- A token comes to the same within the limit as without, or its end is beyond the limit. -/
theorem parts_conclude {run run' : Read × Draft R × Cursor × Input}
    (h : Barred limit text run run') (hnone : s.maxChars = none) :
    Parts limit text (s.conclude run) ((s.withMaxChars (some limit)).conclude run') := by
  cases h with
  | @within read d done left hr ht hd he =>
    have hsome := d.map_token_ne_none
    cases read with
    | fault f => exact absurd rfl (hr f)
    | finish =>
      exact .within (.intro hnone rfl ht hd fun _ => he rfl) fun ha => absurd ha hsome
    | char c p =>
      exact .within (.intro hnone rfl ht hd (by simp [Read.lookahead])) fun ha => absurd ha hsome
  | @beyond read d done left d' k rest ht hd hk =>
    have hlen : limit + (Input.ofChars left).length < text.length := by
      rw [ht, Input.length_ofChars, List.length_append]
      omega
    cases read with
    | fault | finish | char => exact .beyond hlen ⟨rfl, hk, by simp⟩

/-- A call gives the same answer within the limit as without, or it reads beyond the limit and
reports that. -/
theorem Keeps.parts_next (h : s.Keeps limit text input) :
    Parts limit text (s.next input) ((s.withMaxChars (some limit)).next input) := by
  have hfirst := h.barred_first
  have hle := s.length_next_le_first input
  rcases hfree : s.first input with ⟨read, k, rest⟩
  rcases hlimited : (s.withMaxChars (some limit)).first input with ⟨read', k', rest'⟩
  rw [hfree, hlimited] at hfirst
  rw [hfree] at hle
  have hnone : s.maxChars = none := by
    cases h with
    | intro hm => exact hm
  cases hfirst with
  | @beyond _ _ done left _ _ _ ht hd hk =>
    have hspent : Spent limit ((s.withMaxChars (some limit)).moveTo s.lexicon k' .nothing) :=
      ⟨rfl, hk, by simp⟩
    have hlen : limit + (s.next input).2.2.length < text.length := by
      rw [Input.length_ofChars] at hle
      rw [ht, List.length_append]
      omega
    have hnext : (s.withMaxChars (some limit)).next input =
        (.error (.tooLong limit (.after (text.take limit))),
          (s.withMaxChars (some limit)).moveTo s.lexicon k' .nothing, rest') := by
      rw [next, hlimited]
      rfl
    rw [hnext]
    exact .beyond hlen hspent
  | @within _ _ done left hr ht hd he =>
    unfold next
    rw [hfree, hlimited]
    cases read with
    | fault f => exact absurd rfl (hr f)
    | finish =>
      refine .within (.intro hnone rfl ht hd fun _ => he rfl) fun _ => ?_
      rw [he rfl]
      rfl
    | char c p =>
      have hlexicon : (s.withMaxChars (some limit)).lexicon = s.lexicon := rfl
      have hmax : (s.withMaxChars (some limit)).maxChars = some limit := rfl
      dsimp only
      rw [hlexicon, hmax, hnone]
      cases hb : Draft.begin? (s.lexicon.map (.ask c)) c p with
      | none => exact .within (.intro hnone rfl ht hd (by simp)) (by simp)
      | some d =>
        have hrun := barred_gather Draft.extend d hd left
        rw [← ht] at hrun
        exact parts_conclude hrun hnone

theorem Spent.next (h : s.Spent limit) (input : Input) :
    (∀ t, (s.next input).1 ≠ .ok (some t)) ∧ (s.next input).2.1.Spent limit := by
  obtain ⟨hchar, hc⟩ := h.first input
  unfold Scanner.next
  rcases hf : s.first input with ⟨read, k, rest⟩
  rw [hf] at hchar hc
  cases read with
  | char c p => exact absurd rfl (hchar c p)
  | finish | fault f => exact ⟨by simp, h.maxChars, hc, by simp⟩

end Scanner

namespace Lexer
variable {V R : Type}

/-- The same lexer with another limit on the length of a text. -/
def withMaxChars (l : Lexer V R) (maxChars : Option Nat) : Lexer V R :=
  ⟨l.scanner.withMaxChars maxChars, l.checker⟩

/-- What a call comes to without a limit and within one. -/
inductive Parts (limit : Nat) (text : List Char) :
    Except TokenFault (Option Token) × Lexer V R × Input →
    Except TokenFault (Option Token) × Lexer V R × Input → Prop
  | within {answer l input} (h : l.scanner.Keeps limit text input)
      (he : answer = .ok none → input = []) :
      Parts limit text (answer, l, input) (answer, l.withMaxChars (some limit), input)
  | beyond {answer l input l' rest} (hlt : limit + input.length < text.length)
      (hs : l'.scanner.Spent limit) :
      Parts limit text (answer, l, input)
        (.error (.scan (.tooLong limit (.after (text.take limit)))), l', rest)

section
variable {limit : Nat} {text : List Char}
  {free limited : Except TokenFault (Option Token) × Lexer V R × Input}

theorem Parts.of_le (h : Parts limit text free limited)
    (hn : text.length ≤ limit + free.2.2.length) :
    limited = (free.1, free.2.1.withMaxChars (some limit), free.2.2) ∧
      free.2.1.scanner.Keeps limit text free.2.2 := by
  cases h with
  | within hs he => exact ⟨rfl, hs⟩
  | beyond hlt hs => exact absurd hlt (Nat.not_lt.2 hn)

theorem Parts.of_lt (h : Parts limit text free limited)
    (hlt : limit + free.2.2.length < text.length) :
    limited.1 = .error (.scan (.tooLong limit (.after (text.take limit)))) ∧
      limited.2.1.scanner.Spent limit := by
  cases h with
  | within hs he => exact absurd hs.length_le (Nat.not_le.2 hlt)
  | beyond _ hs => exact ⟨rfl, hs⟩

end

variable [Checker V] [Descriptor R] {l : Lexer V R} {limit : Nat} {text : List Char}
  {input : Input}

/-- The lexer and what is left of its input after some calls. -/
def after (l : Lexer V R) (input : Input) : Nat → Lexer V R × Input
  | 0 => (l, input)
  | n + 1 => ((l.after input n).1.next (l.after input n).2).2

/-- The answer to a call, with `n` calls before it. -/
def answer (l : Lexer V R) (input : Input) (n : Nat) : Except TokenFault (Option Token) :=
  ((l.after input n).1.next (l.after input n).2).1

/-- How much of the input the first `n` calls have read. -/
def pulled (l : Lexer V R) (input : Input) (n : Nat) : Nat :=
  input.length - (l.after input n).2.length

/-- The states that calls lead to, on whatever input. -/
inductive Leads (l : Lexer V R) : Lexer V R → Prop
  | refl : Leads l l
  | next {l'} (h : Leads l l') (input : Input) : Leads l (l'.next input).2.1

theorem next_eq_scanner_next (l : Lexer V R) (input : Input) :
    (l.next input).2.1.scanner = (l.scanner.next input).2.1 ∧
      (l.next input).2.2 = (l.scanner.next input).2.2 := by
  have hanswers := answers_next l input
  generalize l.next input = answer at hanswers ⊢
  cases hanswers with
  | finish hs | fault hs | unchecked hs | accepted hs | refused hs =>
    rw [hs]
    exact ⟨rfl, rfl⟩

theorem length_next_le (l : Lexer V R) (input : Input) :
    (l.next input).2.2.length ≤ input.length := by
  rw [(next_eq_scanner_next l input).2]
  exact (l.scanner.length_next_le_first input).trans (l.scanner.length_first_le input)

theorem parts_next (h : l.scanner.Keeps limit text input) :
    Parts limit text (l.next input) ((l.withMaxChars (some limit)).next input) := by
  have hparts := h.parts_next
  unfold Lexer.next withMaxChars
  dsimp only
  generalize l.scanner.next input = free at hparts ⊢
  generalize (l.scanner.withMaxChars (some limit)).next input = limited at hparts ⊢
  cases hparts with
  | @within answer s rest hs he =>
    rcases answer with f | _ | t
    · exact .within hs (by simp)
    · exact .within hs fun _ => he rfl
    · cases l.checker with
      | none => exact .within hs (by simp)
      | some v =>
        dsimp only
        rcases Checker.check v t with ⟨_ | r, v'⟩ <;> exact .within hs (by simp)
  | @beyond answer s rest s' rest' hlt hs =>
    rcases answer with f | _ | t
    · exact .beyond hlt hs
    · exact .beyond hlt hs
    · cases l.checker with
      | none => exact .beyond hlt hs
      | some v =>
        dsimp only
        rcases Checker.check v t with ⟨_ | r, v'⟩ <;> exact .beyond hlt hs

theorem length_after_succ_le (l : Lexer V R) (input : Input) (n : Nat) :
    (l.after input (n + 1)).2.length ≤ (l.after input n).2.length := length_next_le ..

/-- Within the limit all calls do as they do without. -/
theorem after_withMaxChars (h : l.scanner.Keeps limit text input) (n : Nat)
    (hn : text.length ≤ limit + (l.after input n).2.length) :
    (l.withMaxChars (some limit)).after input n =
        ((l.after input n).1.withMaxChars (some limit), (l.after input n).2) ∧
      (l.after input n).1.scanner.Keeps limit text (l.after input n).2 := by
  induction n with
  | zero => exact ⟨rfl, h⟩
  | succ n ih =>
    obtain ⟨heq, hkeeps⟩ := ih (hn.trans (Nat.add_le_add_left (length_after_succ_le l input n) _))
    obtain ⟨hcall, hkeeps'⟩ := (parts_next hkeeps).of_le hn
    rw [after, heq, hcall]
    exact ⟨rfl, hkeeps'⟩

section
variable (h : l.scanner.Keeps limit text input) (n : Nat)
include h

/-- As long as no call has read beyond the limit, the next one may be the first to do so. -/
theorem parts_call (hn : text.length ≤ limit + (l.after input n).2.length) :
    Parts limit text ((l.after input n).1.next (l.after input n).2)
      (((l.withMaxChars (some limit)).after input n).1.next
        ((l.withMaxChars (some limit)).after input n).2) := by
  obtain ⟨heq, hkeeps⟩ := after_withMaxChars h n hn
  rw [heq]
  exact parts_next hkeeps

theorem answer_withMaxChars (hn : text.length ≤ limit + (l.after input (n + 1)).2.length) :
    (l.withMaxChars (some limit)).answer input n = l.answer input n := by
  have hcall := parts_call h n (hn.trans (Nat.add_le_add_left (length_after_succ_le l input n) _))
  have hsame := (hcall.of_le hn).1
  unfold answer
  rw [hsame]

/-- The first call to read beyond the limit is told so. -/
theorem answer_of_beyond (hn : text.length ≤ limit + (l.after input n).2.length)
    (hlt : limit + (l.after input (n + 1)).2.length < text.length) :
    (l.withMaxChars (some limit)).answer input n =
        .error (.scan (.tooLong limit (.after (text.take limit)))) ∧
      ((l.withMaxChars (some limit)).after input (n + 1)).1.scanner.Spent limit :=
  (parts_call h n hn).of_lt hlt

end

theorem Leads.spent {l l' : Lexer V R} (h : Leads l l') (hs : l.scanner.Spent limit) :
    l'.scanner.Spent limit := by
  induction h with
  | refl => exact hs
  | next _ input ih =>
    rw [(next_eq_scanner_next _ input).1]
    exact (ih.next input).2

theorem next_ne_token_of_spent (h : l.scanner.Spent limit) (input : Input) (t : Token) :
    (l.next input).1 ≠ .ok (some t) := by
  intro ht
  rcases hn : l.next input with ⟨answer, l', rest⟩
  rw [hn] at ht
  cases ht
  have hs := scanner_next_of_token hn
  exact (h.next input).1 t (congrArg Prod.fst hs)

/-- Within the limit everything is delivered that is delivered without, and beyond it nothing is
delivered to the end. -/
theorem exists_delivers_withMaxChars_iff (h : l.scanner.Keeps limit text input) (ts : List Token) :
    (∃ l' rest, Delivers next (l.withMaxChars (some limit)) input ts (.ok ()) l' rest) ↔
      text.length ≤ limit ∧ ∃ l' rest, Delivers next l input ts (.ok ()) l' rest := by
  induction ts generalizing l input with
  | nil =>
    have hparts := parts_next h
    rw [exists_delivers_nil_iff, exists_delivers_nil_iff]
    generalize l.next input = free at hparts ⊢
    generalize (l.withMaxChars (some limit)).next input = limited at hparts ⊢
    cases hparts with
    | within hs he =>
      constructor
      · rintro ⟨_, _, ⟨⟩⟩
        rw [he rfl] at hs
        exact ⟨by simpa using hs.length_le, _, _, rfl⟩
      · rintro ⟨_, _, _, ⟨⟩⟩
        exact ⟨_, _, rfl⟩
    | beyond hlt hs =>
      constructor
      · rintro ⟨_, _, ⟨⟩⟩
      · rintro ⟨hle, _⟩
        omega
  | cons t ts ih =>
    have hparts := parts_next h
    rw [exists_delivers_cons_iff, exists_delivers_cons_iff]
    generalize l.next input = free at hparts ⊢
    generalize (l.withMaxChars (some limit)).next input = limited at hparts ⊢
    cases hparts with
    | within hs he =>
      constructor
      · rintro ⟨_, _, ⟨⟩, hd⟩
        obtain ⟨hle, hd'⟩ := (ih hs).1 hd
        exact ⟨hle, _, _, rfl, hd'⟩
      · rintro ⟨hle, _, _, ⟨⟩, hd⟩
        exact ⟨_, _, rfl, (ih hs).2 ⟨hle, hd⟩⟩
    | beyond hlt hs =>
      constructor
      · rintro ⟨_, _, ⟨⟩, _⟩
      · rintro ⟨hle, _⟩
        omega

end Lexer

/-- The same parser with another limit on the length of a text. -/
def Parser.withMaxChars {V R : Type} (p : Parser V R) (maxChars : Option Nat) : Parser V R :=
  ⟨p.lexer.withMaxChars maxChars, p.maxDepth⟩

section
variable {V R : Type} [Checker V] [Descriptor R]

/-- A parser with a limit finds in a text what one without finds, if the text is not too long,
and nothing otherwise. -/
theorem Parser.parse_withMaxChars_eq_ok_iff (p : Parser V R) (limit : Nat) (text : List Char)
    (tree : Tree) : ((p.withMaxChars (some limit)).parse (.ofChars text)).1 = .ok tree ↔
      text.length ≤ limit ∧ ((p.withMaxChars none).parse (.ofChars text)).1 = .ok tree := by
  have hkeeps : (p.withMaxChars none).lexer.reset.scanner.Keeps limit text (.ofChars text) :=
    Scanner.keeps_reset rfl limit text
  have hdelivers := Lexer.exists_delivers_withMaxChars_iff hkeeps
  have hlimited : (p.withMaxChars (some limit)).lexer.reset =
    (p.withMaxChars none).lexer.reset.withMaxChars (some limit) := rfl
  rw [parse_eq_ok_iff, parse_eq_ok_iff, hlimited]
  constructor
  · rintro ⟨ts, l, rest, hd, hread⟩
    obtain ⟨hle, l', rest', hd'⟩ := (hdelivers ts).1 ⟨l, rest, hd⟩
    exact ⟨hle, ts, l', rest', hd', hread⟩
  · rintro ⟨hle, ts, l, rest, hd, hread⟩
    obtain ⟨l', rest', hd'⟩ := (hdelivers ts).2 ⟨hle, l, rest, hd⟩
    exact ⟨ts, l', rest', hd', hread⟩

/-- Of two lexers with the same descriptors and the same checker, if any, that are new to a text,
one has no limit on its length. As long as that one has read no more than `limit` characters, the
other one, with that limit, gives the same answers and stands where it stands. The first call to
read more is answered with the fault at the first character beyond the limit, and from then on no
call brings a token. So a text is parsed within the limit just when it is no longer than that and is
parsed without a limit. -/
theorem Lexer.limit_is_barrier (s : Scanner R) (checker : Option V) (limit : Nat)
    (text : List Char) :
    let free : Lexer V R := ⟨(s.withMaxChars none).reset, checker⟩
    let limited : Lexer V R := ⟨(s.withMaxChars (some limit)).reset, checker⟩
    let input := Input.ofChars text
    (∀ n, free.pulled input (n + 1) ≤ limit →
      limited.answer input n = free.answer input n ∧
        (limited.after input (n + 1)).1.position = (free.after input (n + 1)).1.position) ∧
    (∀ n, free.pulled input n ≤ limit → limit < free.pulled input (n + 1) →
      limit < text.length ∧
        limited.answer input n = .error (.scan (.tooLong limit (.after (text.take limit)))) ∧
        ∀ l, (limited.after input (n + 1)).1.Leads l →
          ∀ later t, (l.next later).1 ≠ .ok (some t)) ∧
    ∀ (p : Parser V R) (tree : Tree),
      ((p.withMaxChars (some limit)).parse input).1 = .ok tree ↔
        text.length ≤ limit ∧ ((p.withMaxChars none).parse input).1 = .ok tree := by
  intro free limited input
  have hkeeps : free.scanner.Keeps limit text input := Scanner.keeps_reset rfl limit text
  have hlength : input.length = text.length := Input.length_ofChars text
  have hpulled (n : Nat) :
      free.pulled input n ≤ limit ↔ text.length ≤ limit + (free.after input n).2.length := by
    rw [Lexer.pulled, hlength]
    omega
  refine ⟨fun n hn => ?_, fun n hn hlt => ?_, fun p tree => p.parse_withMaxChars_eq_ok_iff ..⟩
  · rw [hpulled] at hn
    have hafter := (Lexer.after_withMaxChars hkeeps (n + 1) hn).1
    exact ⟨Lexer.answer_withMaxChars hkeeps n hn,
      congrArg (fun found => found.1.position) hafter⟩
  · rw [hpulled] at hn
    rw [← Nat.not_le, hpulled, Nat.not_le] at hlt
    obtain ⟨hanswer, hspent⟩ := Lexer.answer_of_beyond hkeeps n hn hlt
    exact ⟨by omega, hanswer,
      fun l hl later t => Lexer.next_ne_token_of_spent (hl.spent hspent) later t⟩

end

/-- A number is known to be whole by the character behind it, and here that one is too many. -/
theorem Lexer.limit_is_barrier_number :
    let s : Scanner := .ofOptions Lexicon.document {}
    let v : DocumentChecker := { maxDepth := 1 }
    let free : Lexer DocumentChecker := ⟨(s.withMaxChars none).reset, some v⟩
    let limited : Lexer DocumentChecker := ⟨(s.withMaxChars (some 2)).reset, some v⟩
    let input := Input.ofChars "[1 ]".toList
    free.pulled input 1 = 2 ∧ limited.answer input 0 = free.answer input 0 ∧
      free.pulled input 2 = 3 ∧
      limited.answer input 1 = .error (.scan (.tooLong 2 ⟨0, 2⟩)) ∧
      ∀ t, ((limited.after input 2).1.next (.ofChars "]".toList)).1 ≠ .ok (some t) := by
  intro s v free limited input
  have h1 : free.pulled input 1 = 2 := by decide
  have h2 : free.pulled input 2 = 3 := by decide
  obtain ⟨hsame, hbeyond, -⟩ := Lexer.limit_is_barrier s (some v) 2 "[1 ]".toList
  obtain ⟨hlt, hanswer, hlater⟩ := hbeyond 1 h1.le (by rw [h2]; decide)
  refine ⟨h1, (hsame 0 h1.le).1, h2, ?_, hlater _ .refl _⟩
  rw [hanswer]
  decide

end LaxJson
