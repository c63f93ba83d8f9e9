import LaxJson.Proofs.Scan.Blanks
import LaxJson.Proofs.Streaming

/-!
# White space as tokens

A token of white space is trivia: a checker of documents passes it by, and neither a tree nor a
stream has a place for it. So a parser that has a class for white space finds what a parser finds
that passes over it, in the same places, and its streams yield the same (`parse_withBlanks`).
-/
namespace LaxJson
open Grammar Lexicon

/-- Trivia are accepted, and leave the checker as it is. -/
def Checker.OverlooksTrivia (V : Type) [Checker V] : Prop :=
  ∀ (v : V) (t : Token), t.isTrivia = true → check v t = (none, v)

theorem DocumentChecker.overlooksTrivia : Checker.OverlooksTrivia DocumentChecker :=
  fun v _ => check_of_isTrivia v

namespace Lexer
variable {V : Type}

/-- Lexers with mirroring scanners, and checkers in the same state, if any. -/
structure Mirrors (n : Nat) (l m : Lexer V) : Prop where
  scanner : l.scanner.Mirrors n m.scanner
  checker_eq : m.checker = l.checker

variable [Checker V]

/-- What a call comes to: the same, or a token of white space, which the other lexer passes over
before the same call. -/
inductive Matches (n : Nat) :
    Except TokenFault (Option Token) × Lexer V × Input →
    Except TokenFault (Option Token) × Lexer V × Input → Prop
  | same {answer l m rest} (h : Mirrors n l m) : Matches n (answer, l, rest) (answer, m, rest)
  | blank {t l m rest} (ht : t.isTrivia = true) (h : Mirrors n l m) :
      Matches n (l.next rest) (.ok (some t), m, rest)

variable {n : Nat} {l m m' : Lexer V} {input rest : Input}

theorem Mirrors.unclosed?_eq (h : Mirrors n l m) : m.unclosed? = l.unclosed? := by
  rw [unclosed?, unclosed?, h.checker_eq]

theorem Mirrors.next (hv : Checker.OverlooksTrivia V) (h : Mirrors n l m) (input : Input) :
    Matches n (l.next input) (m.next input) := by
  obtain ⟨s, checker⟩ := l
  obtain ⟨r, checker'⟩ := m
  obtain ⟨hscanner, rfl⟩ := h
  have hmatches := hscanner.next input
  unfold Lexer.next
  dsimp only
  generalize s.next input = one at hmatches ⊢
  generalize r.next input = other at hmatches ⊢
  cases hmatches with
  | @same answer s' r' rest h =>
    rcases answer with f | _ | t
    · exact .same ⟨h, rfl⟩
    · exact .same ⟨h, rfl⟩
    · cases checker' with
      | none => exact .same ⟨h, rfl⟩
      | some v =>
        dsimp only
        rcases Checker.check v t with ⟨_ | refusal, v'⟩ <;> exact .same ⟨h, rfl⟩
  | @blank t s' r' rest ht h =>
    have hmirrors : Mirrors n (⟨s', checker'⟩ : Lexer V) ⟨r', checker'⟩ := ⟨h, rfl⟩
    cases checker' with
    | none => exact .blank ht hmirrors
    | some v =>
      dsimp only
      rw [hv v t ht]
      exact .blank ht hmirrors

/-- What a call comes to on the one side is known from the other. -/
theorem Mirrors.next_cases (hv : Checker.OverlooksTrivia V) (h : Mirrors n l m)
    {answer : Except TokenFault (Option Token)} (hn : m.next input = (answer, m', rest)) :
    (∃ l', l.next input = (answer, l', rest) ∧ Mirrors n l' m') ∨
      ∃ t l', answer = .ok (some t) ∧ t.isTrivia = true ∧ l.next input = l'.next rest ∧
        Mirrors n l' m' := by
  have hmatches := h.next hv input
  rw [hn] at hmatches
  generalize l.next input = one at hmatches ⊢
  cases hmatches with
  | same h' => exact .inl ⟨_, rfl, h'⟩
  | blank ht h' => exact .inr ⟨_, _, rfl, ht, rfl, h'⟩

/-- What is delivered without passing over white space is delivered with it as well, but for
tokens of white space. -/
theorem Mirrors.exists_delivers (hv : Checker.OverlooksTrivia V) {ts : List Token}
    {e : Except TokenFault Unit} (hd : Delivers Lexer.next m input ts e m' rest)
    (h : Mirrors n l m) :
    ∃ us l', Delivers Lexer.next l input us e l' rest ∧ significant us = significant ts ∧
      Mirrors n l' m' := by
  induction hd generalizing l with
  | finish hn =>
    obtain ⟨l', hl, h'⟩ | ⟨_, _, ⟨⟩, -⟩ := h.next_cases hv hn
    exact ⟨[], l', .finish hl, rfl, h'⟩
  | fault hn =>
    obtain ⟨l', hl, h'⟩ | ⟨_, _, ⟨⟩, -⟩ := h.next_cases hv hn
    exact ⟨[], l', .fault hl, rfl, h'⟩
  | @token m input t m₁ rest₁ ts e m' rest hn _ ih =>
    obtain ⟨l', hl, h'⟩ | ⟨_, l', ⟨⟩, ht, hl, h'⟩ := h.next_cases hv hn
    · obtain ⟨us, l'', hd, hsame, hm⟩ := ih h'
      refine ⟨t :: us, l'', .token hl hd, ?_, hm⟩
      simp only [significant, List.filter_cons] at hsame ⊢
      rw [hsame]
    · obtain ⟨us, l'', hd, hsame, hm⟩ := ih h'
      refine ⟨us, l'', hd.of_next_eq hl, ?_, hm⟩
      rw [hsame]
      simp [significant, ht]

end Lexer

theorem Lexer.Mirrors.ending_eq {V : Type} [Checker V] {n : Nat} {l m : Lexer V}
    (h : Mirrors n l m) (e : Except TokenFault Unit) :
    TokenStream.ending m e = TokenStream.ending l e := by
  cases e with
  | error f => rfl
  | ok u =>
    rw [TokenStream.ending, TokenStream.ending, h.unclosed?_eq, Lexer.position,
      h.scanner.position_eq]
    rfl

namespace Parser

/-- Of two parsers one passes over white space, and the other has a class for it anywhere among
those of documents; else they are set up alike. They find the same trees and the same faults, places
included, whatever the input, and their streams of tokens yield the same items. -/
theorem parse_withBlanks (n : Nat) (options : Options) (checker : Option DocumentChecker)
    (maxDepth : Nat) (input : Input) :
    let skipping : Parser DocumentChecker :=
      ⟨⟨.ofOptions document { options with skipWhiteSpace := true }, checker⟩, maxDepth⟩
    let taking : Parser DocumentChecker :=
      ⟨⟨.ofOptions (document.withBlanks n) { options with skipWhiteSpace := false }, checker⟩,
        maxDepth⟩
    (taking.parse input).1 = (skipping.parse input).1 ∧
      ∃ items, ∀ xs,
        ((∃ s, (taking.tokens input).Yields xs s) ↔ xs = items) ∧
        ((∃ s, (skipping.tokens input).Yields xs s) ↔ xs = items) := by
  intro skipping taking
  have hmirrors : Lexer.Mirrors n skipping.lexer.reset taking.lexer.reset :=
    ⟨Scanner.mirrors_ofOptions n options, rfl⟩
  obtain ⟨ts, e, m, rest, hd⟩ := Lexer.exists_delivers taking.lexer.reset input
  obtain ⟨us, l, hd', hsame, hm⟩ :=
    hmirrors.exists_delivers DocumentChecker.overlooksTrivia hd
  have hposition : m.position = l.position := hm.scanner.position_eq
  constructor
  · rw [parse_of_delivers hd, parse_of_delivers hd', hsame, hposition]
  · refine ⟨_, fun xs => ⟨TokenStream.exists_yields_iff hd xs, ?_⟩⟩
    rw [← hsame, hm.ending_eq]
    exact TokenStream.exists_yields_iff hd' xs

end Parser

end LaxJson
