import LaxJson.Proofs.Viability

/-!
# Refusals leave no trace

A caller may go on behind a refusal and show the checker of documents further tokens. The check
of a token changes frames on its way, and a change that came before a refusal would stay; but all
that may refuse the token comes before the first change (`DocumentChecker.steadfast_take`). So in
every state a refused token leaves the checker where it was (`DocumentChecker.standsFast`), the
tokens are judged as if the refused ones had never been shown, and what is accepted of them
begins a document. Nothing else decides: a token is accepted if and only if it goes on with what
has been accepted before (`DocumentChecker.verdict_eq_none_iff`).
-/
namespace LaxJson
open Grammar

/-- The word can become a document in which no more than `depth` containers are open at once. -/
def Grammar.IsViable (depth : Nat) (w : List Role) : Prop :=
  ∃ u, IsDocument (w ++ u) ∧ NestsWithin depth (w ++ u)

namespace Checker
variable {V : Type} [Checker V]

/-- The answers to tokens one after another, going on behind refusals. -/
def verdicts : V → List Token → List (Option Refusal)
  | _, [] => []
  | v, t :: ts => (check v t).1 :: verdicts (check v t).2 ts

/-- The state behind tokens, refused ones among them. -/
def behind : V → List Token → V
  | v, [] => v
  | v, t :: ts => behind (check v t).2 ts

/-- The tokens that are not refused. -/
def accepted : V → List Token → List Token
  | _, [] => []
  | v, t :: ts =>
    if (check v t).1 = none then t :: accepted (check v t).2 ts else accepted (check v t).2 ts

/-- A refused token leaves the checker as it was, whatever its state. -/
def StandsFast (V : Type) [Checker V] : Prop :=
  ∀ (v w : V) (t : Token) (r : Refusal), check v t = (some r, w) → w = v

theorem accept?_append (v : V) (ts us : List Token) :
    accept? v (ts ++ us) = (accept? v ts).bind (accept? · us) := by
  induction ts generalizing v with
  | nil => rfl
  | cons t ts ih =>
    rw [List.cons_append, accept?, accept?]
    split
    · exact ih _
    · rfl

theorem exists_accept?_singleton_iff (v : V) (t : Token) :
    (∃ w, accept? v [t] = some w) ↔ (check v t).1 = none := by
  rcases h : check v t with ⟨_ | r, w⟩ <;> simp [accept?, h]

theorem behind_of_accept? {v w : V} {ts : List Token} (h : accept? v ts = some w) :
    behind v ts = w := by
  induction ts generalizing v with
  | nil =>
    cases h
    rfl
  | cons t ts ih =>
    rw [accept?] at h
    split at h
    · rename_i v' hc
      rw [behind, hc]
      exact ih h
    · cases h

section
variable (hfast : StandsFast V) (v : V) (ts : List Token)
include hfast

/-- Without the refused tokens the others are accepted, and lead to the same state. -/
theorem accept?_accepted : accept? v (accepted v ts) = some (behind v ts) := by
  induction ts generalizing v with
  | nil => rfl
  | cons t ts ih =>
    rcases hc : check v t with ⟨_ | r, w⟩
    · rw [accepted, behind, hc, if_pos rfl, accept?, hc]
      exact ih w
    · rw [accepted, behind, hc, if_neg (by simp), hfast v w t r hc]
      exact ih v

/-- Without the refused tokens the verdicts on the others are what they were. -/
theorem verdicts_accepted :
    verdicts v (accepted v ts) = (verdicts v ts).filter Option.isNone := by
  induction ts generalizing v with
  | nil => rfl
  | cons t ts ih =>
    rcases hc : check v t with ⟨_ | r, w⟩
    · rw [accepted, verdicts, hc, if_pos rfl, verdicts, hc, List.filter_cons_of_pos rfl, ih w]
    · rw [accepted, verdicts, hc, if_neg (by simp), List.filter_cons_of_neg (by simp),
        hfast v w t r hc, ih v]

end

end Checker

namespace DocumentChecker

/-- Wherever this part of a check refuses a token, it has left the frames as they were. -/
def Steadfast {α : Type} (x : Checking α) : Prop :=
  ∀ stack reason stack', x.run stack = .error reason stack' → stack' = stack

/-- This part of a check never refuses. -/
def Passes {α : Type} (x : Checking α) : Prop :=
  ∀ stack, ∃ a stack', x.run stack = .ok a stack'

theorem passes_pure {α : Type} (a : α) : Passes (pure a) := fun stack => ⟨a, stack, rfl⟩

theorem passes_await (frame : Frame) : Passes (await frame) := fun _ => ⟨_, _, rfl⟩

theorem passes_perform (step : Step) : Passes step.perform := by
  intro stack
  cases step <;> exact ⟨_, _, rfl⟩

theorem Passes.bind {α β : Type} {x : Checking α} {f : α → Checking β} (hx : Passes x)
    (hf : ∀ a, Passes (f a)) : Passes (x >>= f) := by
  intro stack
  obtain ⟨a, stack', ha⟩ := hx stack
  obtain ⟨b, stack'', hb⟩ := hf a stack'
  refine ⟨b, stack'', ?_⟩
  rw [EStateM.run_bind, ha]
  exact hb

theorem Passes.steadfast {α : Type} {x : Checking α} (hx : Passes x) : Steadfast x := by
  intro stack reason stack' h
  obtain ⟨a, stack'', ha⟩ := hx stack
  rw [ha] at h
  cases h

theorem steadfast_refuse {α : Type} (reason : Reason) : Steadfast (refuse reason : Checking α) := by
  intro stack reason' stack' h
  cases h
  rfl

/-- What may refuse comes first, and behind it nothing does. -/
theorem Steadfast.bind {α β : Type} {x : Checking α} {f : α → Checking β} (hx : Steadfast x)
    (hf : ∀ a, Passes (f a)) : Steadfast (x >>= f) := by
  intro stack reason stack' h
  rw [EStateM.run_bind] at h
  cases hr : x.run stack with
  | ok a between =>
    obtain ⟨b, _, hb⟩ := hf a between
    rw [hr] at h
    exact absurd (hb.symm.trans h) (by simp)
  | error reason' between =>
    rw [hr] at h
    cases h
    exact hx stack _ _ hr

/-- The order counts: what is changed before a refusal stays changed. -/
example : ¬ Steadfast (do await .scalar; refuse .noStart : Checking Unit) :=
  fun h => by cases h [.start false] .noStart [.scalar] rfl

theorem steadfast_permit (maxDepth : Nat) (full : Bool) (step : Step) :
    Steadfast (permit maxDepth full step) := by
  cases step with
  | enter inner =>
    rw [permit]
    split
    · exact steadfast_refuse _
    · exact (passes_pure _).steadfast
  | stay => exact (passes_pure _).steadfast
  | leave => exact (passes_pure _).steadfast

/-- A frame gives way only when its token has been let pass. -/
theorem steadfast_judgeValue (maxDepth : Nat) (full : Bool) (t : Token) (frame : Frame)
    (reason : Reason) : Steadfast (judgeValue maxDepth full t frame reason) := by
  rw [judgeValue]
  split
  · rename_i step _
    have hafter (step : Step) : Passes (do await frame; return step) :=
      (passes_await frame).bind fun _ => passes_pure step
    exact (steadfast_permit maxDepth full step).bind hafter
  · exact steadfast_refuse reason

theorem Frame.steadfast_judge (maxDepth : Nat) (full : Bool) (t : Token) (top : Frame) :
    Steadfast (top.judge maxDepth full t) := by
  have hstays (frame : Frame) : Steadfast (do await frame; return Step.stay) :=
    ((passes_await frame).bind fun _ => passes_pure _).steadfast
  have hleaves : Steadfast (pure Step.leave) := (passes_pure _).steadfast
  cases top with
  | start complete =>
    cases complete with
    | true => exact steadfast_refuse _
    | false =>
      rw [Frame.judge]
      split
      · exact (passes_pure _).steadfast
      · exact steadfast_permit maxDepth full _
      · exact steadfast_refuse _
  | scalar => exact steadfast_refuse _
  | object stage opened =>
    cases stage with
    | name =>
      rw [Frame.judge]
      split
      · exact hleaves
      · exact hstays _
      · exact steadfast_refuse _
    | assignment =>
      rw [Frame.judge]
      split
      · exact hstays _
      · exact steadfast_refuse _
    | value => exact steadfast_judgeValue maxDepth full t _ _
    | separator =>
      rw [Frame.judge]
      split
      · exact hstays _
      · exact hleaves
      · exact steadfast_refuse _
  | array stage opened =>
    cases stage with
    | element =>
      rw [Frame.judge]
      split
      · exact hleaves
      · exact steadfast_judgeValue maxDepth full t _ _
    | separator =>
      rw [Frame.judge]
      split
      · exact hstays _
      · exact hleaves
      · exact steadfast_refuse _

theorem steadfast_take (maxDepth : Nat) (t : Token) : Steadfast (take maxDepth t) := by
  intro stack
  cases stack with
  | nil => exact steadfast_refuse (α := Unit) .noStart []
  | cons top below =>
    rw [run_take_cons]
    exact ((top.steadfast_judge _ _ t).bind passes_perform) (top :: below)

theorem standsFast : Checker.StandsFast DocumentChecker := by
  intro v w t r h
  by_cases ht : t.isTrivia = true
  · rw [check_of_isTrivia v ht] at h
    cases h
  · rw [Bool.not_eq_true] at ht
    cases hrun : (take v.maxDepth t).run v.stack with
    | ok u stack =>
      rw [check_of_run_eq_ok ht hrun] at h
      cases h
    | error reason stack =>
      rw [check_of_run_eq_error ht hrun] at h
      cases h
      rw [steadfast_take v.maxDepth t v.stack reason stack hrun]

theorem exists_accept?_reset_iff_isViable (v : DocumentChecker) (ts : List Token) :
    (∃ w, Checker.accept? (Checker.reset v) ts = some w) ↔ IsViable v.maxDepth (roles ts) :=
  exists_accept?_reset_iff v ts

/-- The next token is accepted exactly when it goes on with those that have been accepted. -/
theorem verdict_eq_none_iff (v : DocumentChecker) (ts : List Token) (t : Token) :
    (Checker.check (Checker.behind (Checker.reset v) ts) t).1 = none ↔
      IsViable v.maxDepth (roles (Checker.accepted (Checker.reset v) ts ++ [t])) := by
  rw [← exists_accept?_reset_iff_isViable, Checker.accept?_append,
    Checker.accept?_accepted standsFast, Option.bind_some, Checker.exists_accept?_singleton_iff]

/-- In no state does a refused token change anything of the checker. So tokens are judged, and
lead to a state, as if the refused ones among them had been left out. What a new or reset checker
has accepted of any tokens begins a document within its limit, and the next token is refused just
when it does not go on with that. -/
theorem verdicts_leave_out_refused :
    (∀ (v w : DocumentChecker) (t : Token) (r : Refusal),
      Checker.check v t = (some r, w) → w = v) ∧
    (∀ (v : DocumentChecker) (ts : List Token),
      Checker.verdicts v (Checker.accepted v ts) = (Checker.verdicts v ts).filter Option.isNone ∧
        Checker.behind v (Checker.accepted v ts) = Checker.behind v ts) ∧
    ∀ (v : DocumentChecker) (ts : List Token),
      IsViable v.maxDepth (roles (Checker.accepted (Checker.reset v) ts)) ∧
      ∀ t, (Checker.check (Checker.behind (Checker.reset v) ts) t).1 = none ↔
        IsViable v.maxDepth (roles (Checker.accepted (Checker.reset v) ts ++ [t])) := by
  refine ⟨standsFast, fun v ts => ⟨Checker.verdicts_accepted standsFast v ts, ?_⟩,
    fun v ts => ⟨?_, verdict_eq_none_iff v ts⟩⟩
  · exact Checker.behind_of_accept? (Checker.accept?_accepted standsFast v ts)
  · exact (exists_accept?_reset_iff_isViable v _).1
      ⟨_, Checker.accept?_accepted standsFast (Checker.reset v) ts⟩

/-- A brace that closes no object and a second bracket that finds no room are left out. -/
theorem verdicts_leave_out_refused_bracket :
    let v : DocumentChecker := { maxDepth := 1 }
    let ts := [Role.opening .array, .closing .object, .opening .array, .scalar .null].map
      Assembly.bare
    Checker.verdicts v ts =
        [none, some ⟨.missingElement, {}⟩, some ⟨.tooDeep 1, {}⟩, none] ∧
      Checker.verdicts v ([Role.opening .array, .scalar .null].map Assembly.bare) = [none, none] ∧
      Checker.behind v ([Role.opening .array, .scalar .null].map Assembly.bare) =
        Checker.behind v ts ∧
      ∀ w, Checker.check (Checker.behind v ts) (Assembly.bare .assignment) =
        (some ⟨.afterElement, {}⟩, w) → w = Checker.behind v ts := by
  intro v ts
  have haccepted : Checker.accepted v ts =
      [Role.opening .array, .scalar .null].map Assembly.bare := by decide
  have hverdicts : Checker.verdicts v ts =
      [none, some ⟨.missingElement, {}⟩, some ⟨.tooDeep 1, {}⟩, none] := by decide
  obtain ⟨hkept, hbehind⟩ := verdicts_leave_out_refused.2.1 v ts
  rw [haccepted] at hkept hbehind
  rw [hverdicts] at hkept
  exact ⟨hverdicts, hkept, hbehind, fun w hw => verdicts_leave_out_refused.1 _ w _ _ hw⟩

end DocumentChecker

end LaxJson
