import LaxJson.Proofs.Barrier
import LaxJson.Proofs.Refusals

/-!
# A checker only filters

Two lexers with the same scanner, one of them without a checker, go through an input side by
side, behind refusals and other faults as well. Call after call the scanner of the one is in the
state of the other's (`Lexer.after_eq`), and the checker has been shown the tokens that the lexer
without it has brought, each once and in order. So a checker can turn a token into its refusal,
and nothing else (`Lexer.filters_call`).
-/
namespace LaxJson

/-- A checker that keeps a record of what it is shown, and else does as another one does. -/
structure Recorder (V : Type) where
  checker : V
  /-- The tokens that have been shown, in order. -/
  shown : List Token := []

namespace Recorder
variable {V : Type} [Checker V]

instance : Checker (Recorder V) where
  check w t :=
    let (verdict, v) := Checker.check w.checker t
    (verdict, ⟨v, w.shown ++ [t]⟩)
  reset w := ⟨Checker.reset w.checker, []⟩
  unclosed? w := Checker.unclosed? w.checker

theorem check_fst (w : Recorder V) (t : Token) :
    (Checker.check w t).1 = (Checker.check w.checker t).1 := rfl

/-- The record grows by what is shown, and the checker goes on as without it. -/
theorem behind_eq (w : Recorder V) (ts : List Token) :
    Checker.behind w ts = ⟨Checker.behind w.checker ts, w.shown ++ ts⟩ := by
  induction ts generalizing w with
  | nil => simp [Checker.behind]
  | cons t ts ih =>
    rw [Checker.behind, ih, Checker.behind]
    simp [Checker.check]

end Recorder

theorem Checker.behind_append {V : Type} [Checker V] (v : V) (ts us : List Token) :
    behind v (ts ++ us) = behind (behind v ts) us := by
  induction ts generalizing v with
  | nil => rfl
  | cons t ts ih => exact ih (check v t).2

namespace Lexer
variable {U V R : Type}

/-- The token that a call brings, if it brings one. -/
def token? : Except TokenFault (Option Token) → Option Token
  | .ok answer => answer
  | .error _ => none

/-- What a call comes to without a checker, and with one that is in the state `v`. -/
inductive Filters [Checker V] (v : V) :
    Except TokenFault (Option Token) × Lexer U R × Input →
    Except TokenFault (Option Token) × Lexer V R × Input → Prop
  | finish {s rest} : Filters v (.ok none, ⟨s, none⟩, rest) (.ok none, ⟨s, some v⟩, rest)
  | fault {f s rest} :
      Filters v (.error (.scan f), ⟨s, none⟩, rest) (.error (.scan f), ⟨s, some v⟩, rest)
  | accepted {t s rest w} (hc : Checker.check v t = (none, w)) :
      Filters v (.ok (some t), ⟨s, none⟩, rest) (.ok (some t), ⟨s, some w⟩, rest)
  | refused {t s rest r w} (hc : Checker.check v t = (some r, w)) :
      Filters v (.ok (some t), ⟨s, none⟩, rest) (.error (.refused r), ⟨s, some w⟩, rest)

/-- Either way the scanner and what is left of the input are the same, and the checker has been
shown the token, if there is one. -/
theorem Filters.moves [Checker V] {v : V}
    {free : Except TokenFault (Option Token) × Lexer U R × Input}
    {checked : Except TokenFault (Option Token) × Lexer V R × Input} (h : Filters v free checked) :
    free.2.1.checker = none ∧
      checked.2 =
        (⟨free.2.1.scanner, some (Checker.behind v (token? free.1).toList)⟩, free.2.2) := by
  cases h with
  | finish | fault => exact ⟨rfl, rfl⟩
  | accepted hc | refused hc =>
    refine ⟨rfl, ?_⟩
    simp [token?, Checker.behind, hc]

section
variable [Checker V] {v : V} {free : Except TokenFault (Option Token) × Lexer U R × Input}
  {checked : Except TokenFault (Option Token) × Lexer V R × Input}

/-- A token stays, or the refusal that it has got takes its place. -/
theorem Filters.token_iff (h : Filters v free checked) (t : Token) :
    free.1 = .ok (some t) ↔
      checked.1 = .ok (some t) ∨
        ∃ r w, Checker.check v t = (some r, w) ∧ token? free.1 = some t ∧
          checked.1 = .error (.refused r) := by
  cases h with
  | finish | fault | accepted => simp [token?]
  | @refused u _ _ r w hc =>
    constructor
    · rintro ⟨⟩
      exact .inr ⟨r, w, hc, rfl, rfl⟩
    · rintro (hsame | ⟨_, _, _, htoken, _⟩)
      · cases hsame
      · exact congrArg Except.ok htoken

/-- Nothing but a token can be refused. -/
theorem Filters.other_iff (h : Filters v free checked) :
    (free.1 = .ok none ↔ checked.1 = .ok none) ∧
      (∀ f, free.1 = .error (.scan f) ↔ checked.1 = .error (.scan f)) ∧
      ∀ r, free.1 ≠ .error (.refused r) := by
  cases h with
  | finish | fault | accepted | refused => simp

/-- Checkers that say the same of every token make the same of an answer. -/
theorem Filters.fst_eq {W : Type} [Checker W] {w : W}
    {checked' : Except TokenFault (Option Token) × Lexer W R × Input}
    (h : Filters v free checked) (h' : Filters w free checked')
    (hsame : ∀ t, (Checker.check v t).1 = (Checker.check w t).1) : checked.1 = checked'.1 := by
  cases h with
  | finish =>
    cases h'
    rfl
  | fault =>
    cases h'
    rfl
  | @accepted t _ _ _ hc =>
    have hverdict := hsame t
    rw [hc] at hverdict
    cases h' with
    | accepted => rfl
    | refused hc' => simp [hc'] at hverdict
  | @refused t _ _ _ _ hc =>
    have hverdict := hsame t
    rw [hc] at hverdict
    cases h' with
    | accepted hc' => simp [hc'] at hverdict
    | refused hc' =>
      rw [hc'] at hverdict
      cases hverdict
      rfl

end

variable [Checker U] [Checker V] [Descriptor R]

/-- The tokens that the first `n` calls bring, whatever the other calls come to. -/
def brought (l : Lexer V R) (input : Input) : Nat → List Token
  | 0 => []
  | n + 1 => l.brought input n ++ (token? (l.answer input n)).toList

/-- Which token a call brings is told by what it adds to those brought before. -/
theorem brought_succ_eq_iff (l : Lexer V R) (input : Input) (n : Nat) (t : Token) :
    l.brought input (n + 1) = l.brought input n ++ [t] ↔ token? (l.answer input n) = some t := by
  rw [brought, List.append_cancel_left_eq]
  cases token? (l.answer input n) <;> simp

theorem filters_next (s : Scanner R) (v : V) (input : Input) :
    Filters v ((⟨s, none⟩ : Lexer U R).next input) ((⟨s, some v⟩ : Lexer V R).next input) := by
  unfold next
  dsimp only
  rcases s.next input with ⟨f | _ | t, s', rest⟩
  · exact .fault
  · exact .finish
  · dsimp only
    rcases hc : Checker.check v t with ⟨_ | r, w⟩
    · exact .accepted hc
    · exact .refused hc

section
variable (s : Scanner R) (v : V) (input : Input) (n : Nat)

/-- After any number of calls the two lexers differ in the checker alone, and that has seen the
tokens that have been brought without it. -/
theorem after_eq :
    ((⟨s, none⟩ : Lexer U R).after input n).1.checker = none ∧
      (⟨s, some v⟩ : Lexer V R).after input n =
        (⟨((⟨s, none⟩ : Lexer U R).after input n).1.scanner,
            some (Checker.behind v ((⟨s, none⟩ : Lexer U R).brought input n))⟩,
          ((⟨s, none⟩ : Lexer U R).after input n).2) := by
  induction n with
  | zero => exact ⟨rfl, rfl⟩
  | succ n ih =>
    obtain ⟨hnone, heq⟩ := ih
    rw [after, after, brought, heq, Checker.behind_append, answer]
    generalize (⟨s, none⟩ : Lexer U R).after input n = here at hnone ⊢
    obtain ⟨⟨s', checker⟩, rest⟩ := here
    subst hnone
    exact (filters_next s' _ rest).moves

/-- A call turns the token that it brings into its refusal at the most. -/
theorem filters_call :
    Filters (Checker.behind v ((⟨s, none⟩ : Lexer U R).brought input n))
      (((⟨s, none⟩ : Lexer U R).after input n).1.next ((⟨s, none⟩ : Lexer U R).after input n).2)
      (((⟨s, some v⟩ : Lexer V R).after input n).1.next
        ((⟨s, some v⟩ : Lexer V R).after input n).2) := by
  obtain ⟨hnone, heq⟩ := after_eq (U := U) s v input n
  rw [heq]
  generalize (⟨s, none⟩ : Lexer U R).after input n = here at hnone ⊢
  obtain ⟨⟨s', checker⟩, rest⟩ := here
  subst hnone
  exact filters_next s' _ rest

end

/-- Of two lexers with the same scanner, in whatever state, one has a checker and the other has
none. They are called on the same input, and called again whatever the answer was. Without the
checker a call brings a token just when the other's call brings it, or comes to the refusal that
the token has got when it was shown to the checker. All other answers are the same, both stand at
the same place behind each call, and what a record has of the tokens that the checker has been
shown is what has been brought without it. -/
theorem checker_only_filters (s : Scanner R) (v : V) (input : Input) (n : Nat) :
    let free : Lexer V R := ⟨s, none⟩
    let checked : Lexer V R := ⟨s, some v⟩
    let recorded : Lexer (Recorder V) R := ⟨s, some ⟨v, []⟩⟩
    let held := Checker.behind v (free.brought input n)
    (∀ t, free.answer input n = .ok (some t) ↔
      checked.answer input n = .ok (some t) ∨
        ∃ r w, Checker.check held t = (some r, w) ∧
          (recorded.after input (n + 1)).1.checker = some ⟨w, free.brought input n ++ [t]⟩ ∧
          checked.answer input n = .error (.refused r)) ∧
    (free.answer input n = .ok none ↔ checked.answer input n = .ok none) ∧
    (∀ f, free.answer input n = .error (.scan f) ↔ checked.answer input n = .error (.scan f)) ∧
    (∀ r, free.answer input n ≠ .error (.refused r)) ∧
    (checked.after input n).1.position = (free.after input n).1.position ∧
    checked.after input n = (⟨(free.after input n).1.scanner, some held⟩, (free.after input n).2) ∧
    recorded.answer input n = checked.answer input n ∧
    (recorded.after input n).1.checker = some ⟨held, free.brought input n⟩ := by
  intro free checked recorded held
  have hcall := filters_call (U := V) s v input n
  have hstate := (after_eq (U := V) s v input n).2
  have hrecord (k : Nat) : (recorded.after input k).1.checker =
      some ⟨Checker.behind v (free.brought input k), free.brought input k⟩ := by
    rw [(after_eq (U := V) s (⟨v, []⟩ : Recorder V) input k).2, Recorder.behind_eq]
    rfl
  have hrecorded := filters_call (U := V) s (⟨v, []⟩ : Recorder V) input n
  rw [Recorder.behind_eq] at hrecorded
  refine ⟨fun t => ?_, hcall.other_iff.1, hcall.other_iff.2.1, hcall.other_iff.2.2, ?_, hstate,
    hrecorded.fst_eq hcall fun t => Recorder.check_fst _ t, hrecord n⟩
  · refine (hcall.token_iff t).trans (or_congr_right ?_)
    apply exists_congr
    intro r
    apply exists_congr
    intro w
    refine and_congr_right fun hc => and_congr_left' ?_
    have hbehind : Checker.behind v (free.brought input n ++ [t]) = w := by
      rw [Checker.behind_append, Checker.behind, Checker.behind]
      exact congrArg Prod.snd hc
    have hadded := brought_succ_eq_iff free input n t
    rw [hrecord]
    constructor
    · intro htoken
      rw [hadded.2 htoken, hbehind]
    · intro hsome
      exact hadded.1 (congrArg Recorder.shown (Option.some.inj hsome))
  · rw [hstate]
    rfl

end Lexer

end LaxJson
