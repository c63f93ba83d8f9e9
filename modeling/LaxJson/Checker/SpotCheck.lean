import LaxJson.Checker

/-!
# Spot checks

A checker without a grammar: it counts the tokens it is shown and refuses every so many,
whatever they are. A refused token is counted like any other, so a spot check is also
the plainest checker whose refusals change its state.
-/
namespace LaxJson

/-- Of the tokens it is shown, each one whose number is a multiple of `period` is refused,
in the same words. -/
structure SpotCheck where
  period : Nat
  words : String
  seen : Nat := 0
deriving DecidableEq, Repr

instance : Checker SpotCheck where
  check v t :=
    let v := { v with seen := v.seen + 1 }
    (if v.seen % v.period = 0 then some ⟨.other v.words, t.span⟩ else none, v)
  reset v := { v with seen := 0 }
  unclosed? _ := none

end LaxJson
