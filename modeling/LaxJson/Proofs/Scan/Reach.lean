import LaxJson.Proofs.Scan.Cutting

/-!
# The first of the furthest

How far a descriptor comes in a text on its own is a number, `Descriptor.reach`, that no other
descriptor has a part in. A scanner never computes it, but gives up candidates one by one; yet
in every state that calls lead to, the token it cuts is as long as the furthest of its
recognizers reaches, and belongs to the first that reaches so far (`Scanner.next_leads`).
-/
namespace LaxJson
open Lexicon

namespace Descriptor
variable {R : Type} [Descriptor R]

/-- How many characters a descriptor takes that is at work on a token already. -/
def further : R → List Char → Nat
  | _, [] => 0
  | r, c :: x =>
    match extend r c with
    | (true, r) => further r x + 1
    | (false, _) => 0

/-- How many characters a descriptor takes from the beginning of a text, one after another, up
to the first that it refuses. -/
def reach (r : R) : List Char → Nat
  | [] => 0
  | c :: x =>
    match start r c with
    | (true, r) => further r x + 1
    | (false, _) => 0

/-- The descriptor after the question whether a token goes on with each of the characters. -/
def onward : R → List Char → R
  | r, [] => r
  | r, c :: x => onward (extend r c).2 x

/-- The descriptor after it has been shown a whole text. -/
def shown (r : R) : List Char → R
  | [] => r
  | c :: x => onward (start r c).2 x

theorem further_le_length (r : R) (x : List Char) : further r x ≤ x.length := by
  fun_induction further r x with
  | case1 => exact Nat.zero_le _
  | case2 r c x r' h ih => exact Nat.succ_le_succ ih
  | case3 => exact Nat.zero_le _

theorem reach_le_length (r : R) (x : List Char) : reach r x ≤ x.length := by
  fun_cases reach r x with
  | case1 => exact Nat.zero_le _
  | case2 c x r' h => exact Nat.succ_le_succ (further_le_length r' x)
  | case3 => exact Nat.zero_le _

/-- Of the descriptors that reach furthest into a text, `r` is the first. -/
def Leads (lexicon : List R) (x : List Char) (r : R) : Prop :=
  ∃ before after, lexicon = before ++ r :: after ∧ 0 < reach r x ∧
    (∀ q ∈ before, reach q x < reach r x) ∧ ∀ q ∈ after, reach q x ≤ reach r x

/-- Nothing comes further than what leads. -/
theorem Leads.reach_le {lexicon : List R} {x : List Char} {r q : R} (h : Leads lexicon x r)
    (hq : q ∈ lexicon) : reach q x ≤ reach r x := by
  obtain ⟨before, after, rfl, -, hbefore, hafter⟩ := h
  rcases List.mem_append.1 hq with hq | hq
  · exact Nat.le_of_lt (hbefore q hq)
  · rcases List.mem_cons.1 hq with rfl | hq
    · exact Nat.le_refl _
    · exact hafter q hq

/-- What stands before the first of the furthest does not come as far. -/
theorem Leads.reach_lt [DecidableEq R] {lexicon : List R} {x : List Char} {r q : R}
    (h : Leads lexicon x r) (hq : lexicon.idxOf q < lexicon.idxOf r) : reach q x < reach r x := by
  obtain ⟨before, after, rfl, -, hbefore, -⟩ := h
  refine hbefore q ?_
  by_contra hnot
  have hr : (before ++ r :: after).idxOf r ≤ before.length := by
    by_cases hmem : r ∈ before
    · rw [List.idxOf_append_of_mem hmem]
      exact List.idxOf_le_length
    · rw [List.idxOf_append_of_notMem hmem, List.idxOf_cons_self]
      exact Nat.le_refl _
  rw [List.idxOf_append_of_notMem hnot] at hq
  omega

end Descriptor

open Descriptor

namespace Recognizer

theorem follow?_take (r : Recognizer) {x : List Char} {n : Nat} (hn : n ≤ x.length) :
    r.follow? (x.take n) = if n ≤ further r x then some (onward r (x.take n)) else none := by
  induction x generalizing r n with
  | nil =>
    have hn : n = 0 := Nat.le_zero.1 hn
    subst hn
    rfl
  | cons c x ih =>
    cases n with
    | zero => rfl
    | succ n =>
      rw [List.take_succ_cons, follow?_cons, further, onward]
      cases h : r.next? c with
      | none => simp [Descriptor.extend, Recognizer.extend, h]
      | some r' =>
        have hlen : n ≤ x.length := Nat.le_of_succ_le_succ hn
        simpa [Descriptor.extend, Recognizer.extend, h] using ih r' hlen

/-- A recognizer reads as much of a text as it reaches into it. -/
theorem read?_take (r : Recognizer) {x : List Char} {n : Nat} (hpos : 0 < n) (hn : n ≤ x.length) :
    r.read? (x.take n) = if n ≤ reach r x then some (shown r (x.take n)) else none := by
  obtain ⟨n, rfl⟩ : ∃ m, n = m + 1 := ⟨n - 1, by omega⟩
  cases x with
  | nil => simp at hn
  | cons c x =>
    rw [List.take_succ_cons, read?_cons, reach, shown]
    cases h : r.begin? c with
    | none => simp [Descriptor.start, Recognizer.start, h]
    | some r' =>
      have hlen : n ≤ x.length := Nat.le_of_succ_le_succ hn
      simpa [Descriptor.start, Recognizer.start, h] using follow?_take r' hlen

theorem reach_eq_zero_iff (r : Recognizer) (c : Char) (x : List Char) :
    reach r (c :: x) = 0 ↔ r.begin? c = none := by
  rw [reach]
  cases h : r.begin? c <;> simp [Descriptor.start, Recognizer.start, h]

end Recognizer

namespace Lexicon

theorem begin_eq_nil_iff (lexicon : Lexicon) (c : Char) (x : List Char) :
    begin lexicon c = [] ↔ ∀ r ∈ lexicon, reach r (c :: x) = 0 := by
  rw [begin, List.filterMap_eq_nil_iff]
  exact forall₂_congr fun r _ => (Recognizer.reach_eq_zero_iff r c x).symm

/-- The owner of what is munched is the first of those that reach furthest, behind the text. -/
theorem Munches.exists_leads {lexicon : Lexicon} {text rest : List Char} {owner : Recognizer}
    (h : Munches lexicon text rest owner) :
    ∃ r, Leads lexicon (text ++ rest) r ∧ reach r (text ++ rest) = text.length ∧
      owner = shown r text := by
  have hpos : 0 < text.length := List.length_pos_of_ne_nil h.ne_nil
  have hread (q : Recognizer) : q.read? text =
      if text.length ≤ reach q (text ++ rest) then some (shown q text) else none := by
    simpa using q.read?_take (x := text ++ rest) hpos (by simp)
  have hle : ∀ q ∈ lexicon, reach q (text ++ rest) ≤ text.length := by
    intro q hq
    cases rest with
    | nil =>
      rw [List.append_nil]
      exact reach_le_length q text
    | cons c rest =>
      have hnone := List.filterMap_eq_nil_iff.1 (h.stops c rfl) q hq
      have hmore := q.read?_take (x := text ++ c :: rest) (Nat.succ_pos text.length) (by simp)
      rw [Nat.succ_eq_add_one, List.take_length_add_append, List.take_succ_cons, List.take_zero,
        hnone] at hmore
      split at hmore
      · cases hmore
      · omega
  obtain ⟨rivals, hs⟩ := h.exists_rivals
  obtain ⟨before, r, after, hlex, hbefore, hr, -⟩ := List.filterMap_eq_cons_iff.1 hs
  rw [hread r] at hr
  split at hr
  · rename_i hreach
    have heq : reach r (text ++ rest) = text.length :=
      Nat.le_antisymm (hle r (by simp [hlex])) hreach
    refine ⟨r, ⟨before, after, hlex, by omega, fun q hq => ?_, fun q hq => ?_⟩, heq, ?_⟩
    · have hnone := hbefore q hq
      rw [hread q] at hnone
      split at hnone
      · cases hnone
      · omega
    · rw [heq]
      exact hle q (by simp [hlex, hq])
    · exact (Option.some.inj hr).symm
  · cases hr

end Lexicon

namespace Draft
variable {lexicon : Lexicon} {done text : List Char} {d d' : Draft Recognizer}

theorem Holds.of_extend_eq_true {c : Char} (h : d.Holds lexicon done text) (ht : text ≠ [])
    (hx : d.extend c (.after (done ++ text)) = (true, d')) :
    d'.Holds lexicon done (text ++ [c]) := by
  by_cases hs : survivors lexicon (text ++ [c]) = []
  · rw [h.extend_eq_self ht hs] at hx
    cases hx
  · obtain ⟨d₁, hx₁, hd₁⟩ := h.exists_extend ht hs
    rw [hx₁] at hx
    cases hx
    exact hd₁

theorem Holds.of_extend_eq_false {c : Char} (h : d.Holds lexicon done text) (ht : text ≠ [])
    (hx : d.extend c (.after (done ++ text)) = (false, d')) :
    d' = d ∧ survivors lexicon (text ++ [c]) = [] := by
  by_cases hs : survivors lexicon (text ++ [c]) = []
  · rw [h.extend_eq_self ht hs] at hx
    cases hx
    exact ⟨rfl, hs⟩
  · obtain ⟨d₁, hx₁, -⟩ := h.exists_extend ht hs
    rw [hx₁] at hx
    cases hx

theorem Holds.takes {more : List Char} {k k' : Cursor} (h : d.Holds lexicon done text)
    (ht : text ≠ []) (hk : k.position = .after (done ++ text))
    (hm : Takes Draft.extend d k more d' k') : d'.Holds lexicon done (text ++ more) := by
  induction hm generalizing text with
  | nil => rwa [List.append_nil]
  | @cons d k c _ _ _ _ hs _ ih =>
    rw [hk] at hs
    have hpass : (k.pass c).position = .after (done ++ (text ++ [c])) := by
      rw [Cursor.pass, hk, ← Position.after_append_singleton, List.append_assoc]
    simpa using ih (h.of_extend_eq_true ht hs) (by simp) hpass

/-- The draft that begins with a character holds that much. -/
theorem holds_of_begin? {c : Char}
    (h : begin? (lexicon.map (.ask c)) c (.after done) = some d) : d.Holds lexicon done [c] := by
  have hne : begin lexicon c ≠ [] := by
    intro hnil
    rw [begin?_eq_none hnil] at h
    cases h
  obtain ⟨d₀, hd₀, hholds⟩ := exists_begin? hne done
  rw [hd₀] at h
  cases h
  exact hholds

/-- A draft that a read has ended is of the longest token. -/
theorem Holds.exists_munches {maxChars : Option Nat} {k k' : Cursor} {tail rest : Input}
    {read : Read} (h : d.Holds lexicon done text) (ht : text ≠ [])
    (hk : k.position = .after (done ++ text))
    (hh : Halts maxChars Draft.extend d k tail (read, d', k', rest)) (hr : ∀ f, read ≠ .fault f) :
    d' = d ∧ ∃ owner, Munches lexicon text tail.readable owner := by
  have hne : survivors lexicon text ≠ [] := by
    rw [← h.living_eq, ← Candidate.any_alive_iff]
    exact d.claimed
  obtain ⟨owner, rivals, hs⟩ := List.exists_cons_of_ne_nil hne
  have hhead : (survivors lexicon text).head? = some owner := by rw [hs, List.head?_cons]
  cases hh with
  | finish => exact ⟨rfl, owner, hhead, by simp⟩
  | char hl hx =>
    rw [hk] at hx
    obtain ⟨rfl, hstop⟩ := h.of_extend_eq_false ht hx
    exact ⟨rfl, owner, hhead, by simpa using hstop⟩
  | unreadable | tooLong => exact absurd rfl (hr _)

/-- The draft that a whole run of reads has made is of the longest token. -/
theorem holds_of_run {maxChars : Option Nat} {more : List Char} {c : Char}
    {d d₁ d' : Draft Recognizer} {k k₁ k' : Cursor} {tail rest : Input} {read : Read}
    (hb : begin? (lexicon.map (.ask c)) c (.after done) = some d)
    (hk : k.position = .after (done ++ [c])) (ht : Takes Draft.extend d k more d₁ k₁)
    (hh : Halts maxChars Draft.extend d₁ k₁ tail (read, d', k', rest)) (hr : ∀ f, read ≠ .fault f) :
    d'.Holds lexicon done (c :: more) ∧
      ∃ owner, Munches lexicon (c :: more) tail.readable owner := by
  have hholds := (holds_of_begin? hb).takes (by simp) hk ht
  have hk₁ := ht.position_eq hk
  rw [List.append_assoc] at hk₁
  obtain ⟨rfl, hm⟩ := hholds.exists_munches (by simp) hk₁ hh hr
  exact ⟨hholds, hm⟩

end Draft

namespace Scanner

/-- A call leaves the recognizers as they are registered, up to the stages they are in. -/
theorem Stands.next_keeps {s : Scanner} {done : List Char} (h : s.Stands done) (input : Input) :
    (s.next input).2.1.lexicon.map Recognizer.fresh = s.lexicon.map Recognizer.fresh ∧
      (s.next input).2.1.skips = s.skips := by
  have hcuts := cuts_next h input
  generalize s.next input = answer at hcuts ⊢
  cases hcuts with
  | finish | fault => exact ⟨rfl, rfl⟩
  | noMatch => exact ⟨by simp [moveTo, Candidate.fresh_ask], rfl⟩
  | broken ha hb hk ht hh =>
    have hholds := (Draft.holds_of_begin? hb).takes (by simp) hk ht
    obtain ⟨rfl, -, -⟩ := hh.of_fault
    exact ⟨hholds.fresh_eq, rfl⟩
  | token ha hg hc hb hk ht hh hr => exact ⟨(Draft.holds_of_run hb hk ht hh hr).1.fresh_eq, rfl⟩

/-- Neither does a reset touch them. -/
theorem reset_keeps (s : Scanner) :
    s.reset.lexicon.map Recognizer.fresh = s.lexicon.map Recognizer.fresh ∧
      s.reset.skips = s.skips := by
  refine ⟨?_, rfl⟩
  rw [Scanner.reset, moveTo, List.map_map]
  exact List.map_congr_left fun r _ => r.fresh_fresh

/-- Every state has the recognizers that are registered, in their order. -/
theorem Reached.keeps {lexicon : Lexicon} {options : Options} {s : Scanner}
    (h : s.Reached lexicon options) :
    s.lexicon.map Recognizer.fresh = lexicon.map Recognizer.fresh ∧
      s.skips = (Scanner.ofOptions lexicon options).skips := by
  induction h with
  | ofOptions => exact reset_keeps _
  | next h input ih =>
    obtain ⟨done, hstands⟩ := h.exists_stands
    obtain ⟨hlexicon, hskips⟩ := hstands.next_keeps input
    exact ⟨hlexicon.trans ih.1, hskips.trans ih.2⟩
  | @reset s h ih =>
    obtain ⟨hlexicon, hskips⟩ := reset_keeps s
    exact ⟨hlexicon.trans ih.1, hskips.trans ih.2⟩

/-- What is passed over, and what follows it, are found in one way only. -/
theorem gap_unique {s : Scanner} {gap gap' : List Char} {c c' : Char} {y y' : List Char}
    (hg : ∀ b ∈ gap, s.skips b = true) (hc : s.skips c = false)
    (hg' : ∀ b ∈ gap', s.skips b = true) (hc' : s.skips c' = false)
    (h : gap ++ c :: y = gap' ++ c' :: y') : gap = gap' ∧ c = c' ∧ y = y' := by
  have htake := congrArg (List.takeWhile s.skips) h
  have hdrop := congrArg (List.dropWhile s.skips) h
  rw [List.takeWhile_append_of_pos hg, List.takeWhile_append_of_pos hg'] at htake
  rw [List.dropWhile_append_of_pos hg, List.dropWhile_append_of_pos hg'] at hdrop
  simp [hc, hc'] at htake hdrop
  exact ⟨htake, hdrop⟩

/-- Where `c :: x` follows the gap and no read fails, either no token begins with `c`, or one is
munched off `c :: x`. -/
theorem Stands.next_munches {s : Scanner} {done : List Char} (hs : s.Stands done) {input : Input}
    {gap x : List Char} {c : Char} (hx : (s.ahead input).readable = gap ++ c :: x)
    (hg : ∀ b ∈ gap, s.skips b = true) (hc : s.skips c = false)
    (hr : ∀ f, (s.next input).1 = .error f → f.isReadFault = false) :
    begin s.lexicon c = [] ∧ (s.next input).1 = .error (.noMatch c (.after (done ++ gap))) ∨
      ∃ text rest owner, c :: x = text ++ rest ∧ Munches s.lexicon text rest owner ∧
        (s.next input).1 = (owner.token (done ++ gap) text).map some := by
  have hcuts := cuts_next hs input
  generalize s.next input = answer at hcuts hr ⊢
  cases hcuts with
  | @finish gap' k rest ha hg' hk =>
    have hall : gap' = gap ++ c :: x := by simpa [ha] using hx
    have hskip := hg' c (by simp [hall])
    rw [hc] at hskip
    cases hskip
  | fault hf hk =>
    have hno := hr _ rfl
    rw [hf] at hno
    cases hno
  | @noMatch gap' c' k rest ha hg' hc' hb hk =>
    have hsplit : gap ++ c :: x = gap' ++ c' :: Input.readable rest := by simpa [ha] using hx.symm
    obtain ⟨rfl, rfl, rfl⟩ := gap_unique hg hc hg' hc' hsplit
    refine .inl ⟨?_, rfl⟩
    by_contra hne
    obtain ⟨d, hd, -⟩ := Draft.exists_begin? hne (done ++ gap)
    rw [hb] at hd
    cases hd
  | broken ha hb hk ht hh =>
    obtain ⟨-, -, hf⟩ := hh.of_fault
    have hno := hr _ rfl
    rw [hf] at hno
    cases hno
  | @token gap' c' more tail d k d₁ k₁ read d' k' rest ha hg' hc' hb hk ht hh hread =>
    have hsplit : gap ++ c :: x = gap' ++ c' :: (more ++ tail.readable) := by
      simpa [ha] using hx.symm
    obtain ⟨rfl, rfl, rfl⟩ := gap_unique hg hc hg' hc' hsplit
    obtain ⟨hholds, owner, hm⟩ := Draft.holds_of_run hb hk ht hh hread
    exact .inr ⟨c :: more, tail.readable, owner, rfl, hm, by rw [hholds.token_eq hm]⟩

/-- A token that a call brings is the longest of those ahead. -/
theorem Stands.exists_munches_of_next {s s' : Scanner} {done : List Char} (hs : s.Stands done)
    {input rest : Input} {t : Token} (hn : s.next input = (.ok (some t), s', rest)) :
    ∃ left owner, Munches s.lexicon t.text left owner ∧ owner.isComplete = true ∧
      t.category = owner.category ∧ t.role = owner.role := by
  have hcuts := cuts_next hs input
  rw [hn] at hcuts
  generalize hanswer : (Except.ok (some t), s', rest) = answer at hcuts
  cases hcuts with
  | finish | fault | noMatch | broken => cases hanswer
  | @token gap c more tail d k d₁ k₁ read d' k' rest ha hg hc hb hk ht hh hread =>
    obtain ⟨hholds, owner, hm⟩ := Draft.holds_of_run hb hk ht hh hread
    have htoken := (Prod.mk.inj hanswer).1
    rw [hholds.token_eq hm, Recognizer.token] at htoken
    split at htoken <;> cases htoken
    exact ⟨tail.readable, owner, hm, ‹_›, rfl, rfl⟩

/-- In every state that calls lead to, where `gap` is passed over and `c :: x` follows it up to
the end or a failure of the input, and no read of this call fails: no token begins with `c`
exactly when no recognizer of the lexicon reaches anywhere, and else the token is what the first
of the furthest makes of the text that it reaches over, which must be whole. -/
theorem next_leads {lexicon : Lexicon} {options : Options} {s : Scanner}
    (hs : s.Reached lexicon options) {input : Input} {gap x : List Char} {c : Char}
    (hx : (s.ahead input).readable = gap ++ c :: x)
    (hg : ∀ b ∈ gap, (ofOptions lexicon options).skips b = true)
    (hc : (ofOptions lexicon options).skips c = false)
    (hr : ∀ f, (s.next input).1 = .error f → f.isReadFault = false) :
    ∃ done, s.position = .after done ∧
      ((s.next input).1 = .error (.noMatch c (.after (done ++ gap))) ↔
        ∀ r ∈ lexicon, reach r (c :: x) = 0) ∧
      ((∃ r ∈ lexicon, reach r (c :: x) ≠ 0) →
        ∃ r text, Leads lexicon (c :: x) r ∧ text = (c :: x).take (reach r (c :: x)) ∧
          (s.next input).1 = ((shown r text).token (done ++ gap) text).map some) := by
  obtain ⟨done, hstands⟩ := hs.exists_stands
  obtain ⟨hlexicon, hskips⟩ := hs.keeps
  rw [← hskips] at hg hc
  refine ⟨done, hstands.position_eq, ?_⟩
  rw [← begin_eq_nil_iff]
  rcases hstands.next_munches hx hg hc hr with ⟨hnil, hnext⟩ | ⟨text, rest, owner, hcx, hm, hnext⟩
  · rw [← begin_map_fresh, hlexicon, begin_map_fresh] at hnil
    refine ⟨iff_of_true hnext hnil, fun ⟨r, hmem, hreach⟩ => ?_⟩
    exact absurd ((begin_eq_nil_iff lexicon c x).1 hnil r hmem) hreach
  · rw [← munches_map_fresh, hlexicon, munches_map_fresh] at hm
    obtain ⟨r, hleads, hreach, rfl⟩ := hm.exists_leads
    rw [← hcx] at hleads hreach
    have htext : text = (c :: x).take (reach r (c :: x)) := by
      rw [hreach, hcx, List.take_left]
    refine ⟨iff_of_false ?_ ?_, fun _ => ⟨r, text, hleads, htext, hnext⟩⟩
    · rw [hnext, Recognizer.token]
      split <;> exact nofun
    · intro hnil
      obtain ⟨before, after, hlex, hpos, -⟩ := hleads
      have hzero := (begin_eq_nil_iff lexicon c x).1 hnil r (by simp [hlex])
      omega

/-- The keyword and the bare word reach equally far into `true`, and the keyword leads. -/
theorem next_leads_keyword :
    ((ofOptions document {}).ahead (.ofString " true,")).readable = [' '] ++ 't' :: "rue,".toList ∧
      ((ofOptions document {}).next (.ofString " true,")).1 =
        .ok (some ⟨.operand, .scalar .boolean, "true".toList, ⟨⟨0, 1⟩, ⟨0, 4⟩⟩⟩) ∧
      ∃ done r text, (ofOptions document {}).position = .after done ∧
        Leads document "true,".toList r ∧
        text = "true,".toList.take (reach r "true,".toList) ∧
        ((ofOptions document {}).next (.ofString " true,")).1 =
          ((shown r text).token (done ++ [' ']) text).map some := by
  have hx : ((ofOptions document {}).ahead (.ofString " true,")).readable =
      [' '] ++ 't' :: "rue,".toList := by decide
  have hnext : ((ofOptions document {}).next (.ofString " true,")).1 =
      .ok (some ⟨.operand, .scalar .boolean, "true".toList, ⟨⟨0, 1⟩, ⟨0, 4⟩⟩⟩) := by decide
  have hr : ∀ f, ((ofOptions document {}).next (.ofString " true,")).1 = .error f →
      f.isReadFault = false := by
    intro f hf
    rw [hnext] at hf
    cases hf
  have hg : ∀ b ∈ [' '], (ofOptions document {}).skips b = true :=
    List.forall_mem_singleton.2 (by decide)
  obtain ⟨done, hdone, -, hleads⟩ := next_leads .ofOptions hx hg (by decide) hr
  obtain ⟨r, text, hr, htext, heq⟩ := hleads (by decide)
  exact ⟨hx, hnext, done, r, text, hdone, hr, htext, heq⟩

end Scanner

end LaxJson
