import LaxJson.Proofs.Delivery
import LaxJson.Proofs.Viability

/-!
# A lexer with its checker and without

A checker has no say in how an input is cut: up to the first token that it refuses, a lexer
delivers what it delivers without a checker (`Lexer.delivers_detach`, `Lexer.Refuses.detach`).
The checker of documents goes with an assembly: what it has accepted fits together, and what it
refuses does not fit in (`Lexer.exists_addAll_of_delivers`, `Lexer.Refuses.exists_add`).
-/
namespace LaxJson
open Grammar

namespace Lexer
variable {V R : Type} [Checker V] [Descriptor R]

/-- Calls of `next` bring the tokens `ts`, and then the scanner comes to `t`, which the checker
refuses. -/
inductive Refuses : Lexer V R → Input → List Token → Token → Refusal → Prop
  | here {l input t s rest v r v'} (hs : l.scanner.next input = (.ok (some t), s, rest))
      (hv : l.checker = some v) (hc : Checker.check v t = (some r, v')) : Refuses l input [] t r
  | later {l input u l₁ rest₁ ts t r} (h : l.next input = (.ok (some u), l₁, rest₁))
      (hr : Refuses l₁ rest₁ ts t r) : Refuses l input (u :: ts) t r

/-- A lexer brings the tokens of its scanner as long as its checker, if any, accepts them. -/
theorem brings_of_accept? {s s₁ : Scanner R} {input rest : Input} {ts : List Token}
    (h : Brings Scanner.next s input ts s₁ rest) {checker checker₁ : Option V}
    (hc : Option.Rel (fun v w => Checker.accept? v ts = some w) checker checker₁) :
    Brings next ⟨s, checker⟩ input ts ⟨s₁, checker₁⟩ rest := by
  induction h generalizing checker with
  | nil =>
    cases hc with
    | none => exact .nil
    | some hw =>
      cases hw
      exact .nil
  | @cons s input t s₁ rest₁ ts s' rest h _ ih =>
    cases hc with
    | none =>
      refine .cons ?_ (ih .none)
      rw [next, h]
    | @some v w hw =>
      rw [Checker.accept?] at hw
      split at hw
      · rename_i v₁ hcheck
        refine .cons ?_ (ih (.some hw))
        rw [next, h]
        simp only [hcheck]
      · cases hw

/-- Without a checker a call comes to what the scanner's call comes to. -/
theorem next_detach (l : Lexer V R) (input : Input) :
    l.detach.next input =
      match l.scanner.next input with
      | (.error f, s, rest) => (.error (.scan f), ⟨s, none⟩, rest)
      | (.ok answer, s, rest) => (.ok answer, ⟨s, none⟩, rest) := by
  unfold next
  rw [detach]
  rcases l.scanner.next input with ⟨f | _ | t, s, rest⟩ <;> rfl

theorem next_detach_of_token {l l' : Lexer V R} {input rest : Input} {t : Token}
    (h : l.next input = (.ok (some t), l', rest)) :
    l.detach.next input = (.ok (some t), l'.detach, rest) := by
  rw [next_detach, scanner_next_of_token h]
  rfl

/-- Where nothing is refused, everything is delivered without a checker as well. -/
theorem delivers_detach {l l' : Lexer V R} {input rest : Input} {ts : List Token}
    {e : Except TokenFault Unit} (h : Delivers next l input ts e l' rest)
    (he : ∀ r, e ≠ .error (.refused r)) : Delivers next l.detach input ts e l'.detach rest := by
  induction h with
  | finish h =>
    refine .finish ?_
    rw [next_detach, scanner_next_of_finish h]
    rfl
  | @fault l input f l' rest h =>
    have hanswers := answers_next l input
    rw [h] at hanswers
    cases hanswers with
    | fault hs =>
      refine .fault ?_
      rw [next_detach, hs]
      rfl
    | refused => exact absurd rfl (he _)
  | token h _ ih => exact .token (next_detach_of_token h) (ih he)

theorem exists_refuses_of_delivers {l l' : Lexer V R} {input rest : Input} {ts : List Token}
    {r : Refusal} (h : Delivers next l input ts (.error (.refused r)) l' rest) :
    ∃ t, l.Refuses input ts t r := by
  generalize he : (Except.error (.refused r) : Except TokenFault Unit) = e at h
  induction h with
  | finish h => cases he
  | @fault l input f l' rest h =>
    cases he
    have hanswers := answers_next l input
    rw [h] at hanswers
    cases hanswers with
    | refused hs hv hc => exact ⟨_, .here hs hv hc⟩
  | token h _ ih =>
    obtain ⟨t, hr⟩ := ih he
    exact ⟨t, .later h hr⟩

theorem Refuses.exists_delivers {l : Lexer V R} {input : Input} {ts : List Token} {t : Token}
    {r : Refusal} (h : l.Refuses input ts t r) :
    ∃ l' rest, Delivers next l input ts (.error (.refused r)) l' rest := by
  induction h with
  | @here l input t s rest v r v' hs hv hc =>
    refine ⟨⟨s, some v'⟩, rest, .fault ?_⟩
    rw [next, hs]
    simp only [hv, hc]
  | later h _ ih =>
    obtain ⟨l', rest, hd⟩ := ih
    exact ⟨l', rest, .token h hd⟩

/-- The refused token is delivered where there is no checker to refuse it. -/
theorem Refuses.detach {l : Lexer V R} {input : Input} {ts : List Token} {t : Token} {r : Refusal}
    (h : l.Refuses input ts t r) :
    ∃ us e l' rest, Delivers next l.detach input (ts ++ t :: us) e l' rest := by
  induction h with
  | @here l input t s rest v r v' hs hv hc =>
    obtain ⟨us, e, l', rest', hd⟩ := Lexer.exists_delivers (⟨s, none⟩ : Lexer V R) rest
    refine ⟨us, e, l', rest', .token ?_ hd⟩
    rw [next_detach, hs]
  | later h _ ih =>
    obtain ⟨us, e, l', rest, hd⟩ := ih
    exact ⟨us, e, l', rest, .token (next_detach_of_token h) hd⟩

/-- The checker has accepted what is delivered, and where the input ends it has not moved on. -/
theorem exists_accept?_of_delivers {l l' : Lexer V R} {input rest : Input} {ts : List Token}
    {e : Except TokenFault Unit} (h : Delivers next l input ts e l' rest) {v : V}
    (hv : l.checker = some v) :
    ∃ w, Checker.accept? v ts = some w ∧ (e = .ok () → l'.checker = some w) := by
  induction h generalizing v with
  | @finish l input l' rest h =>
    have hanswers := answers_next l input
    rw [h] at hanswers
    cases hanswers with
    | finish hs => exact ⟨v, rfl, fun _ => hv⟩
  | fault h => exact ⟨v, rfl, nofun⟩
  | @token l input t l₁ rest₁ ts e l' rest h _ ih =>
    obtain ⟨v', hc, hv'⟩ := exists_check_of_token h hv
    obtain ⟨w, hw, hend⟩ := ih hv'
    exact ⟨w, by rwa [Checker.accept?, hc], hend⟩

/-- With a checker, everything is delivered that the scanner delivers and the checker
accepts. -/
theorem exists_delivers_iff {l : Lexer V R} {v : V} (hv : l.checker = some v) (input : Input)
    (ts : List Token) :
    (∃ l' rest, Delivers Lexer.next l input ts (.ok ()) l' rest) ↔
      (∃ s' rest, Delivers Scanner.next l.scanner input ts (.ok ()) s' rest) ∧
        ∃ w, Checker.accept? v ts = some w := by
  constructor
  · intro ⟨l', rest, hd⟩
    obtain ⟨w, hw, -⟩ := exists_accept?_of_delivers hd hv
    obtain ⟨l₁, rest₁, hb, hnext⟩ := hd.exists_brings
    have hds := (brings_scanner hb).delivers (scanner_next_of_finish hnext)
    exact ⟨⟨_, _, hds⟩, w, hw⟩
  · intro ⟨⟨s', rest, hd⟩, w, hw⟩
    obtain ⟨s₁, rest₁, hb, hnext⟩ := hd.exists_brings
    have hbrings := brings_of_accept? hb (.some hw)
    have hend : Lexer.next ⟨s₁, some w⟩ rest₁ = (.ok none, ⟨s', some w⟩, rest) := by
      rw [next, hnext]
      rfl
    have hl : l = ⟨l.scanner, some v⟩ := by rw [← hv]
    rw [hl]
    exact ⟨_, rest, hbrings.delivers hend⟩

theorem Refuses.exists_check {l : Lexer V R} {input : Input} {ts : List Token} {t : Token}
    {r : Refusal} (h : l.Refuses input ts t r) {v : V} (hv : l.checker = some v) :
    ∃ w w', Checker.accept? v ts = some w ∧ Checker.check w t = (some r, w') := by
  induction h generalizing v with
  | here hs hsome hc =>
    rw [hsome] at hv
    cases hv
    exact ⟨_, _, rfl, hc⟩
  | @later l input u l₁ rest₁ ts t r h _ ih =>
    obtain ⟨v', hc, hv'⟩ := exists_check_of_token h hv
    obtain ⟨w, w', hw, hcheck⟩ := ih hv'
    exact ⟨w, w', by rwa [Checker.accept?, hc], hcheck⟩

end Lexer

namespace Assembly

/-- A token that does not fit in has no place in the tree, or no room within the limit. -/
theorem add_eq_error {maxDepth : Nat} {t : Token} {a : Assembly} {f : ParseFault}
    (h : a.add maxDepth t = .error f) :
    f = .refused ⟨.tooDeep maxDepth, t.span⟩ ∨ f = misplaced t := by
  have hvalue : ∀ outer, beginValue maxDepth t outer = .error f →
      f = .refused ⟨.tooDeep maxDepth, t.span⟩ ∨ f = misplaced t := by
    intro outer hb
    unfold beginValue at hb
    split at hb
    · split at hb
      · cases hb
        exact .inl rfl
      · split at hb <;> cases hb
    · cases hb
    · cases hb
      exact .inr rfl
  unfold add at h
  split at h
  · exact hvalue _ h
  · split at h <;> cases h
    exact .inr rfl
  · split at h <;> cases h
    exact .inr rfl
  · exact hvalue _ h
  · split at h <;> cases h
    exact .inr rfl
  · split at h
    · cases h
    · exact hvalue _ h
  · split at h <;> cases h
    exact .inr rfl
  · cases h
    exact .inr rfl

theorem reason_ne_tooDeep (a : Assembly) (n : Nat) : a.reason ≠ .tooDeep n := by
  rcases a with _ | _ | _ | _ | _ | _ | _ | (_ | _ | _) <;> exact nofun

end Assembly

namespace DocumentChecker

/-- The checker refuses what does not fit in, and gives a reason of its own unless there is no
room. -/
theorem exists_add_of_check {maxDepth : Nat} {a : Assembly} {t : Token} {r : Refusal}
    {w : DocumentChecker}
    (h : Checker.check ({ maxDepth, stack := a.frames } : DocumentChecker) t = (some r, w)) :
    t.isTrivia = false ∧ r.span = t.span ∧
      (r.reason = .tooDeep maxDepth ∧ a.add maxDepth t = .error (.refused r) ∨
        r.reason = a.reason ∧ a.add maxDepth t = .error (Assembly.misplaced t)) := by
  by_cases ht : t.isTrivia = true
  · rw [check_of_isTrivia _ ht] at h
    cases h
  · rw [Bool.not_eq_true] at ht
    refine ⟨ht, ?_⟩
    rw [check_frames maxDepth a ht] at h
    cases hadd : a.add maxDepth t with
    | ok b =>
      rw [hadd] at h
      cases h
    | error f =>
      rw [hadd] at h
      rcases Assembly.add_eq_error hadd with rfl | rfl
      · cases h
        exact ⟨rfl, .inl ⟨rfl, rfl⟩⟩
      · cases h
        exact ⟨rfl, .inr ⟨rfl, rfl⟩⟩

end DocumentChecker

namespace Lexer
variable {R : Type} [Descriptor R] {l l' : Lexer DocumentChecker R} {input rest : Input}
  {ts : List Token} {v : DocumentChecker}

/-- What is delivered under the checker of documents fits together, and where the input ends
the checker knows what is open. -/
theorem exists_addAll_of_delivers {e : Except TokenFault Unit}
    (h : Delivers next l input ts e l' rest) (hv : l.checker = some (Checker.reset v)) :
    ∃ a, Assembly.document.addAll v.maxDepth (significant ts) = .ok a ∧
      (e = .ok () → l'.unclosed? = a.opened.head?) := by
  obtain ⟨w, hw, hend⟩ := exists_accept?_of_delivers h hv
  rw [DocumentChecker.accept?_reset_eq] at hw
  cases ha : Assembly.document.addAll v.maxDepth (significant ts) with
  | error f => simp [ha, Except.toOption] at hw
  | ok a =>
    rw [ha] at hw
    cases hw
    refine ⟨a, rfl, fun he => ?_⟩
    rw [unclosed?, hend he]
    exact a.unclosed?_frames v.maxDepth

/-- The token that the checker of documents refuses is the first that does not fit in. -/
theorem Refuses.exists_add {t : Token} {r : Refusal} (h : l.Refuses input ts t r)
    (hv : l.checker = some (Checker.reset v)) :
    ∃ a, Assembly.document.addAll v.maxDepth (significant ts) = .ok a ∧ t.isTrivia = false ∧
      r.span = t.span ∧
      (r.reason = .tooDeep v.maxDepth ∧ a.add v.maxDepth t = .error (.refused r) ∨
        r.reason = a.reason ∧ a.add v.maxDepth t = .error (Assembly.misplaced t)) := by
  obtain ⟨w, w', hw, hc⟩ := h.exists_check hv
  rw [DocumentChecker.accept?_reset_eq] at hw
  cases ha : Assembly.document.addAll v.maxDepth (significant ts) with
  | error f => simp [ha, Except.toOption] at hw
  | ok a =>
    rw [ha] at hw
    cases hw
    exact ⟨a, rfl, DocumentChecker.exists_add_of_check hc⟩

end Lexer

end LaxJson
