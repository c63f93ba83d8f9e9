import LaxJson.Fault

/-!
# Checkers

A checker sees every token in turn, trivia included, and may refuse it. It is a state
machine: what it says depends on the tokens it has seen since the last `reset`, and a
refusal may change its state like any other answer.
-/
namespace LaxJson

/-- A state machine that may refuse tokens. `check` gives the refusal of a token, if it is
refused, and the state after it; with `reset` a new input is begun. `unclosed?` is the
innermost container that is still open and where it was opened, and none where the input
may end. -/
class Checker (V : Type) where
  check : V → Token → Option Refusal × V
  reset : V → V
  unclosed? : V → Option (Container × Position)

/-- Either of two checkers. -/
instance {V W : Type} [Checker V] [Checker W] : Checker (V ⊕ W) where
  check
    | .inl v, t => let (r, v) := Checker.check v t; (r, .inl v)
    | .inr w, t => let (r, w) := Checker.check w t; (r, .inr w)
  reset
    | .inl v => .inl (Checker.reset v)
    | .inr w => .inr (Checker.reset w)
  unclosed?
    | .inl v => Checker.unclosed? v
    | .inr w => Checker.unclosed? w

end LaxJson
