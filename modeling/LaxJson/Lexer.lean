import LaxJson.Checker
import LaxJson.Scanner

/-!
# The lexer

A lexer is a scanner whose tokens are shown to a checker, if there is one. The checker
has the last word on each token and no say in how the input is cut.
-/
namespace LaxJson

/-- A scanner with the checker that its tokens are shown to. -/
structure Lexer (V : Type) (R : Type := Recognizer) where
  scanner : Scanner R
  checker : Option V := none
deriving DecidableEq, Repr

namespace Lexer
variable {V W R : Type}

def attach (l : Lexer V R) (v : W) : Lexer W R := ⟨l.scanner, some v⟩

def detach (l : Lexer V R) : Lexer V R := ⟨l.scanner, none⟩

def mapChecker (f : V → W) (l : Lexer V R) : Lexer W R := ⟨l.scanner, l.checker.map f⟩

def position (l : Lexer V R) : Position := l.scanner.position

/-- The characters and failures that the lexer can still come upon in an input. -/
def weight (l : Lexer V R) (input : Input) : Nat := l.scanner.weight input

variable [Checker V] [Descriptor R]

def reset (l : Lexer V R) : Lexer V R := ⟨l.scanner.reset, l.checker.map Checker.reset⟩

def unclosed? (l : Lexer V R) : Option (Container × Position) := l.checker.bind Checker.unclosed?

/-- The next token, or `none` at the end of the input. A token that the checker refuses
has been taken off the input all the same. -/
def next (l : Lexer V R) (input : Input) : Except TokenFault (Option Token) × Lexer V R × Input :=
  match l.scanner.next input with
  | (.error f, scanner, rest) => (.error (.scan f), { l with scanner }, rest)
  | (.ok none, scanner, rest) => (.ok none, { l with scanner }, rest)
  | (.ok (some t), scanner, rest) =>
    match l.checker with
    | none => (.ok (some t), ⟨scanner, none⟩, rest)
    | some v =>
      match Checker.check v t with
      | (none, v) => (.ok (some t), ⟨scanner, some v⟩, rest)
      | (some r, v) => (.error (.refused r), ⟨scanner, some v⟩, rest)

/-- Unless the input is at its end, `next` uses up some of it. -/
theorem weight_next_lt (l : Lexer V R) (input : Input) (h : (l.next input).1 ≠ .ok none) :
    (l.next input).2.1.weight (l.next input).2.2 < l.weight input := by
  have hscan := Scanner.weight_next_lt l.scanner input
  rcases hr : l.scanner.next input with ⟨answer, scanner, rest⟩
  rw [hr] at hscan
  rw [next, hr] at h ⊢
  rcases answer with f | _ | t
  · exact hscan nofun
  · exact absurd rfl h
  · have hless : scanner.weight rest < l.scanner.weight input := hscan nofun
    cases l.checker with
    | none => exact hless
    | some v =>
      rcases hv : Checker.check v t with ⟨verdict, w⟩
      simp only [hv]
      cases verdict with
      | none => exact hless
      | some r => exact hless

/-- The next token that is no trivia, or `none` at the end of the input. -/
def nextSignificant (l : Lexer V R) (input : Input) :
    Except TokenFault (Option Token) × Lexer V R × Input :=
  match h : l.next input with
  | (.ok (some t), l', rest) =>
    have : l'.weight rest < l.weight input := by
      have := weight_next_lt l input (by simp [h]); rwa [h] at this
    if t.isTrivia then l'.nextSignificant rest else (.ok (some t), l', rest)
  | answer => answer
termination_by l.weight input

theorem weight_nextSignificant_lt (l : Lexer V R) (input : Input)
    (h : (l.nextSignificant input).1 ≠ .ok none) :
    (l.nextSignificant input).2.1.weight (l.nextSignificant input).2.2 < l.weight input := by
  fun_induction nextSignificant l input with
  | case1 l input t l' rest e _ _ ih => exact Nat.lt_trans (ih h) (by assumption)
  | case2 l input t l' rest e hlt _ => exact hlt
  | case3 l input _ => exact weight_next_lt _ _ h

end Lexer

end LaxJson
