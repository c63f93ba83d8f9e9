import LaxJson.Proofs.Refusals

/-!
# The shape of the checker's stack

Whatever tokens a checker of documents is shown, and however often it is reset, its stack keeps
one shape: the frame of the document lies at the bottom, the frames of the open containers above
it, and each that is covered waits for a comma or the end of its container. `Stacked` ties the
shape to the tokens that have been accepted since the last reset, which is what makes it carry
over from one call to the next (`Stacked.take`): that a covered frame is there to go on with
when the frame above it goes, and that the document is complete when the last one does.
-/
namespace LaxJson
open Grammar

namespace Grammar

/-- A scalar has stood outside of all containers. -/
def HasBareScalar (ts : List Token) : Prop :=
  ∃ us t vs kind, ts = us ++ t :: vs ∧ stillOpen us = [] ∧ t.role = .scalar kind

/-- A container that stood inside of no other has been opened and closed. -/
def HasClosed (ts : List Token) : Prop :=
  ∃ us vs, ts = us ++ vs ∧ stillOpen us = [] ∧ ∃ t ∈ us, t.role.isOpening = true

/-- The first of the tokens opens a container, and the others but for the last stand inside it. -/
structure IsRooted (ts : List Token) : Prop where
  head : ∃ t us, ts = t :: us ∧ t.role.isOpening = true
  inside : ∀ us t vs, ts = us ++ t :: vs → us ≠ [] → stillOpen us ≠ []

theorem stillOpen_append_singleton (ts : List Token) (t : Token) :
    stillOpen (ts ++ [t]) = track (stillOpen ts) t := by
  simp [stillOpen]

theorem isRooted_singleton {t : Token} (h : t.role.isOpening = true) : IsRooted [t] := by
  refine ⟨⟨t, [], rfl, h⟩, fun us v vs he hus => ?_⟩
  obtain ⟨u, us, rfl⟩ := List.exists_cons_of_ne_nil hus
  simp at he

theorem IsRooted.append_singleton {ts : List Token} (h : IsRooted ts) (ho : stillOpen ts ≠ [])
    (t : Token) : IsRooted (ts ++ [t]) := by
  obtain ⟨⟨first, rest, rfl, hfirst⟩, hinside⟩ := h
  refine ⟨⟨first, rest ++ [t], rfl, hfirst⟩, fun us v vs he hus => ?_⟩
  rcases List.eq_nil_or_concat vs with rfl | ⟨vs, w, rfl⟩
  · obtain ⟨rfl, -⟩ := List.append_inj' he rfl
    exact ho
  · rw [List.concat_eq_append, ← List.cons_append, ← List.append_assoc] at he
    exact hinside us v vs (List.append_inj' he rfl).1 hus

theorem IsRooted.not_hasBareScalar {ts : List Token} (h : IsRooted ts) : ¬ HasBareScalar ts := by
  rintro ⟨us, t, vs, kind, rfl, ho, ht⟩
  cases us with
  | nil =>
    obtain ⟨_, _, he, hopening⟩ := h.head
    cases he
    rw [ht] at hopening
    cases hopening
  | cons u us => exact h.inside (u :: us) t vs rfl (by simp) ho

/-- The container that the first token opens has been closed when nothing is open any more. -/
theorem IsRooted.hasClosed_iff {ts : List Token} (h : IsRooted ts) :
    HasClosed ts ↔ stillOpen ts = [] := by
  constructor
  · rintro ⟨us, vs, rfl, ho, t, ht, -⟩
    cases vs with
    | nil => rwa [List.append_nil]
    | cons v vs => exact absurd ho (h.inside us v vs rfl (List.ne_nil_of_mem ht))
  · intro ho
    obtain ⟨t, us, rfl, ht⟩ := h.head
    exact ⟨t :: us, [], by simp, ho, t, List.mem_cons_self .., ht⟩

end Grammar

namespace Checker
variable {V : Type} [Checker V]

/-- What can be asked of a checker. -/
inductive Call
  | check (t : Token)
  | reset

/-- A checker with the tokens that it has accepted since it was reset. -/
structure Account (V : Type) where
  checker : V
  kept : List Token := []

namespace Account

/-- One call; a refused token is not entered. -/
def perform (a : Account V) : Call → Account V
  | .check t =>
    match check a.checker t with
    | (none, v) => ⟨v, a.kept ++ [t]⟩
    | (some _, v) => ⟨v, a.kept⟩
  | .reset => ⟨reset a.checker, []⟩

/-- Calls one after another. -/
def performAll (a : Account V) (calls : List Call) : Account V := calls.foldl perform a

end Account

end Checker

namespace DocumentChecker

/-- The frame of a container is covered by that of a value inside it. -/
def Frame.IsCovered : Frame → Prop
  | .object .separator _ | .array .separator _ => True
  | _ => False

/-- What a token that is allowed inside a container `c` makes of its frame, and its step. -/
inductive Goes (full : Bool) (t : Token) (c : Container × Position) : Frame → Step → Prop
  | stay {frame} (hc : frame.container? = some c) (ht : ∀ opened, track opened t = opened) :
      Goes full t c frame .stay
  | enter {frame inner d} (hc : frame.container? = some c) (hf : frame.IsCovered)
      (hd : inner.container? = some d) (hroom : full = false)
      (ht : ∀ opened, track opened t = d :: opened) : Goes full t c frame (.enter inner)
  | leave {frame} (ht : ∀ opened, track opened t = opened.tail) : Goes full t c frame .leave

section
variable {maxDepth : Nat} {full : Bool} {t : Token} {c : Container × Position} {step : Step}
  {frame top : Frame} {below stack : List Frame}

theorem Goes.of_await (h : (do await frame; return Step.stay).run (top :: below) = .ok step stack)
    (hc : frame.container? = some c) (ht : ∀ opened, track opened t = opened) :
    ∃ frame, stack = frame :: below ∧ Goes full t c frame step := by
  cases h
  exact ⟨frame, rfl, .stay hc ht⟩

theorem Goes.of_leave
    (h : (pure Step.leave : Checking Step).run (top :: below) = .ok step stack)
    (ht : ∀ opened, track opened t = opened.tail) :
    ∃ frame, stack = frame :: below ∧ Goes full t c frame step := by
  cases h
  exact ⟨top, rfl, .leave ht⟩

theorem Goes.of_value {reason : Reason}
    (h : (judgeValue maxDepth full t frame reason).run (top :: below) = .ok step stack)
    (hc : frame.container? = some c) (hf : frame.IsCovered) :
    ∃ frame, stack = frame :: below ∧ Goes full t c frame step := by
  rw [judgeValue, Step.ofValue?] at h
  cases hr : t.role with
  | opening container =>
    cases full with
    | true =>
      rw [hr] at h
      simp [permit] at h
    | false =>
      rw [hr] at h
      cases h
      have hd := Frame.container?_opened container t.span.first
      exact ⟨frame, rfl, .enter hc hf hd rfl fun opened => by simp [track, hr]⟩
  | scalar kind =>
    rw [hr] at h
    cases h
    exact ⟨frame, rfl, .stay hc fun opened => by simp [track, hr]⟩
  | _ =>
    rw [hr] at h
    cases h

theorem Goes.of_judge (hc : top.container? = some c)
    (h : (top.judge maxDepth full t).run (top :: below) = .ok step stack) :
    ∃ frame, stack = frame :: below ∧ Goes full t c frame step := by
  cases top with
  | start complete => cases hc
  | scalar => cases hc
  | object stage opened =>
    cases stage with
    | name =>
      rw [Frame.judge] at h
      split at h
      · rename_i hr
        exact Goes.of_leave h fun opened => by simp [track, hr]
      · rename_i hr
        exact Goes.of_await h hc fun opened => by simp [track, hr]
      · cases h
    | assignment =>
      rw [Frame.judge] at h
      split at h
      · rename_i hr
        exact Goes.of_await h hc fun opened => by simp [track, hr]
      · cases h
    | separator =>
      rw [Frame.judge] at h
      split at h
      · rename_i hr
        exact Goes.of_await h hc fun opened => by simp [track, hr]
      · rename_i hr
        exact Goes.of_leave h fun opened => by simp [track, hr]
      · cases h
    | value => exact Goes.of_value h hc trivial
  | array stage opened =>
    cases stage with
    | element =>
      rw [Frame.judge] at h
      split at h
      · rename_i hr
        exact Goes.of_leave h fun opened => by simp [track, hr]
      · exact Goes.of_value h hc trivial
    | separator =>
      rw [Frame.judge] at h
      split at h
      · rename_i hr
        exact Goes.of_await h hc fun opened => by simp [track, hr]
      · rename_i hr
        exact Goes.of_leave h fun opened => by simp [track, hr]
      · cases h

/-- A token that is accepted takes one step of the innermost frame. -/
theorem exists_step_of_run_take (h : (take maxDepth t).run (top :: below) = .ok () stack) :
    ∃ step between,
      (top.judge maxDepth (maxDepth < below.length + 1) t).run (top :: below) =
        .ok step between ∧ step.perform.run between = .ok () stack := by
  rw [run_take_cons, EStateM.run_bind] at h
  split at h
  · exact ⟨_, _, ‹_›, h⟩
  · cases h

end

/-- What the stack looks like behind the accepted tokens `ts`, trivia aside. -/
inductive Stacked (maxDepth : Nat) (ts : List Token) : List Frame → Prop
  | start (ht : ts = []) : Stacked maxDepth ts [.start false]
  | scalar {t kind} (ht : ts = [t]) (hr : t.role = .scalar kind) :
      Stacked maxDepth ts [.scalar, .start false]
  | inside {top below c opened} (hroot : IsRooted ts) (hopen : stillOpen ts = c :: opened)
      (htop : top.container? = some c) (hbelow : below.map Frame.container? = opened.map some)
      (hcovered : ∀ f ∈ below, f.IsCovered) (hdepth : below.length < maxDepth) :
      Stacked maxDepth ts (top :: (below ++ [.start false]))
  | complete (hroot : IsRooted ts) (hopen : stillOpen ts = []) : Stacked maxDepth ts [.start true]

theorem settle_cons_append (frame : Frame) (below : List Frame) (bottom : Frame) :
    settle (frame :: (below ++ [bottom])) = frame :: (below ++ [bottom]) := by
  cases frame <;> cases below <;> rfl

section
variable {maxDepth : Nat} {ts : List Token} {t : Token} {frames stack : List Frame}

/-- The first token is a scalar, or it opens the outermost container. -/
theorem stacked_of_start (h : (take maxDepth t).run [.start false] = .ok () stack) :
    Stacked maxDepth [t] stack := by
  rw [run_take_cons, Frame.judge, Step.ofValue?] at h
  cases hr : t.role with
  | opening container =>
    rw [hr] at h
    by_cases hd : maxDepth = 0
    · simp [hd, permit] at h
    · have hstack : Frame.opened container t.span.first :: ([] ++ [.start false]) = stack := by
        simpa [hd, permit] using h
      have hopen : stillOpen [t] = [(container, t.span.first)] := by simp [stillOpen, track, hr]
      rw [← hstack]
      exact .inside (isRooted_singleton (by rw [hr]; rfl)) hopen (Frame.container?_opened ..) rfl
        (by simp) (Nat.pos_of_ne_zero hd)
  | scalar kind =>
    rw [hr] at h
    cases h
    exact .scalar rfl hr
  | _ =>
    rw [hr] at h
    cases h

/-- With every token that is accepted the stack keeps its shape. -/
theorem Stacked.take (hs : Stacked maxDepth ts frames)
    (h : (take maxDepth t).run frames = .ok () stack) : Stacked maxDepth (ts ++ [t]) stack := by
  cases hs with
  | start ht =>
    rw [ht]
    exact stacked_of_start h
  | scalar | complete => cases h
  | @inside top below c opened hroot hopen htop hbelow hcovered hdepth =>
    obtain ⟨step, between, hjudge, hperform⟩ := exists_step_of_run_take h
    obtain ⟨frame, rfl, hgoes⟩ := Goes.of_judge htop hjudge
    have hroot' : IsRooted (ts ++ [t]) := hroot.append_singleton (by simp [hopen]) t
    have hopen' := stillOpen_append_singleton ts t
    rw [hopen] at hopen'
    cases hgoes with
    | stay hc ht =>
      cases hperform
      exact .inside hroot' (hopen'.trans (ht _)) hc hbelow hcovered hdepth
    | enter hc hf hd hroom ht =>
      cases hperform
      have hlt : ¬ maxDepth < (below ++ [Frame.start false]).length + 1 := of_decide_eq_false hroom
      rw [List.length_append, List.length_singleton] at hlt
      have hbelow' : (frame :: below).map Frame.container? = (c :: opened).map some := by
        rw [List.map_cons, List.map_cons, hc, hbelow]
      have hcovered' : ∀ f ∈ frame :: below, f.IsCovered :=
        List.forall_mem_cons.2 ⟨hf, hcovered⟩
      exact .inside hroot' (hopen'.trans (ht _)) hd hbelow' hcovered'
        (by rw [List.length_cons]; omega)
    | leave ht =>
      cases hperform
      have hrest := hopen'.trans (ht _)
      cases below with
      | nil =>
        obtain rfl : opened = [] := by simpa using hbelow
        exact .complete hroot' hrest
      | cons next below =>
        cases opened with
        | nil => cases hbelow
        | cons d opened =>
          rw [List.map_cons, List.map_cons, List.cons.injEq] at hbelow
          rw [List.cons_append, pop, settle_cons_append]
          exact .inside hroot' hrest hbelow.1 hbelow.2 (List.forall_mem_cons.1 hcovered).2
            (Nat.lt_of_succ_lt hdepth)

end

theorem Stacked.perform {a : Checker.Account DocumentChecker}
    (hs : Stacked a.checker.maxDepth (significant a.kept) a.checker.stack) (call : Checker.Call) :
    Stacked a.checker.maxDepth (significant (a.perform call).kept) (a.perform call).checker.stack ∧
      (a.perform call).checker.maxDepth = a.checker.maxDepth := by
  cases call with
  | reset => exact ⟨.start rfl, rfl⟩
  | check t =>
    rw [Checker.Account.perform]
    by_cases ht : t.isTrivia = true
    · have hkept : significant (a.kept ++ [t]) = significant a.kept := by simp [significant, ht]
      rw [check_of_isTrivia _ ht, hkept]
      exact ⟨hs, rfl⟩
    · have hkept : significant (a.kept ++ [t]) = significant a.kept ++ [t] := by
        simp [significant, ht]
      rw [Bool.not_eq_true] at ht
      cases hrun : (DocumentChecker.take a.checker.maxDepth t).run a.checker.stack with
      | ok u stack =>
        rw [check_of_run_eq_ok ht hrun, hkept]
        exact ⟨hs.take hrun, rfl⟩
      | error reason stack =>
        obtain rfl := steadfast_take _ _ _ _ _ hrun
        rw [check_of_run_eq_error ht hrun]
        exact ⟨hs, rfl⟩

/-- Whatever is asked of a new checker, its stack keeps its shape. -/
theorem stacked_performAll {a : Checker.Account DocumentChecker}
    (hs : Stacked a.checker.maxDepth (significant a.kept) a.checker.stack)
    (calls : List Checker.Call) :
    Stacked a.checker.maxDepth (significant (a.performAll calls).kept)
      (a.performAll calls).checker.stack := by
  induction calls generalizing a with
  | nil => exact hs
  | cons call calls ih =>
    obtain ⟨hstep, hmax⟩ := hs.perform call
    rw [← hmax] at hstep ⊢
    exact ih hstep

/-- The frame of the document is at the bottom and nowhere else, a bare scalar is right above it
and on top, containers that are covered wait for a comma or their end, and the document is
complete only where it is alone. -/
structure IsWellShaped (stack : List Frame) : Prop where
  bottom : ∃ above complete, stack = above ++ [.start complete] ∧
    ∀ f ∈ above, ∀ b, f ≠ .start b
  scalar : .scalar ∈ stack → ∃ complete, stack = [.scalar, .start complete]
  covered_object : ∀ stage p, .object stage p ∈ stack.tail → stage = .separator
  covered_array : ∀ stage p, .array stage p ∈ stack.tail → stage = .separator
  complete : .start true ∈ stack → stack = [.start true]

theorem Frame.IsCovered.container?_isSome {f : Frame} (h : f.IsCovered) :
    f.container?.isSome = true := by
  cases f with
  | start | scalar => exact h.elim
  | object | array => rfl

theorem Frame.IsCovered.eq_separator_of_object {stage : FieldStage} {p : Position}
    (h : (Frame.object stage p).IsCovered) : stage = .separator := by
  cases stage with
  | separator => rfl
  | name | assignment | value => exact h.elim

theorem Frame.IsCovered.eq_separator_of_array {stage : ElementStage} {p : Position}
    (h : (Frame.array stage p).IsCovered) : stage = .separator := by
  cases stage with
  | separator => rfl
  | element => exact h.elim

section
variable {maxDepth : Nat} {ts : List Token} {stack : List Frame}

theorem Stacked.isWellShaped (h : Stacked maxDepth ts stack) : IsWellShaped stack := by
  cases h with
  | start => exact ⟨⟨[], false, rfl, by simp⟩, by simp, by simp, by simp, by simp⟩
  | scalar => exact ⟨⟨[.scalar], false, rfl, by simp⟩, by simp, by simp, by simp, by simp⟩
  | complete => exact ⟨⟨[], true, rfl, by simp⟩, by simp, by simp, by simp, by simp⟩
  | @inside top below c opened hroot hopen htop hbelow hcovered hdepth =>
    have habove : ∀ f ∈ top :: below, f.container?.isSome = true :=
      List.forall_mem_cons.2 ⟨by rw [htop]; rfl, fun f hf => (hcovered f hf).container?_isSome⟩
    have hcontainer (f : Frame) (hf : f ∈ top :: (below ++ [.start false]))
        (hne : f ≠ .start false) : f.container?.isSome = true := by
      rw [← List.cons_append, List.mem_append, List.mem_singleton] at hf
      exact habove f (hf.resolve_right hne)
    have hbelow' (f : Frame) (hf : f ∈ below ++ [.start false]) (hne : f ≠ .start false) :
        f.IsCovered := by
      rw [List.mem_append, List.mem_singleton] at hf
      exact hcovered f (hf.resolve_right hne)
    refine ⟨⟨top :: below, false, rfl, ?_⟩, fun hmem => ?_, fun stage p hmem => ?_,
      fun stage p hmem => ?_, fun hmem => ?_⟩
    · rintro f hf b rfl
      cases habove _ hf
    · cases hcontainer _ hmem (by simp)
    · exact (hbelow' _ hmem (by simp)).eq_separator_of_object
    · exact (hbelow' _ hmem (by simp)).eq_separator_of_array
    · cases hcontainer _ hmem (by simp)

/-- The document is marked complete when an outermost container has been closed. -/
theorem Stacked.start_mem_iff (h : Stacked maxDepth ts stack) :
    .start true ∈ stack ↔ HasClosed ts := by
  have hcomplete := h.isWellShaped.complete
  cases h with
  | start ht =>
    have hnot : ¬ HasClosed ts := by
      rintro ⟨us, vs, he, -, t, hmem, -⟩
      rw [ht] at he
      cases List.append_eq_nil_iff.1 he.symm |>.1
      cases hmem
    simp [hnot]
  | scalar ht hr =>
    have hnot : ¬ HasClosed ts := by
      rintro ⟨us, vs, he, -, u, hmem, hopening⟩
      have hu : u ∈ ts := by
        rw [he]
        exact List.mem_append_left vs hmem
      rw [ht, List.mem_singleton] at hu
      rw [hu, hr] at hopening
      cases hopening
    simp [hnot]
  | complete hroot hopen => simp [hroot.hasClosed_iff.2 hopen]
  | @inside top below c opened hroot hopen htop hbelow hcovered hdepth =>
    have hnot : ¬ HasClosed ts := by
      rw [hroot.hasClosed_iff, hopen]
      simp
    exact iff_of_false (fun hmem => by simpa using hcomplete hmem) hnot

/-- There is a frame for the document, one for each open container, and one for a bare scalar. -/
theorem Stacked.length_eq (h : Stacked maxDepth ts stack) :
    (HasBareScalar ts ∧ stack.length = 2 + (stillOpen ts).length ∨
      ¬ HasBareScalar ts ∧ stack.length = 1 + (stillOpen ts).length) ∧
    stack.length ≤ 1 + max maxDepth 1 := by
  cases h with
  | start ht =>
    have hnot : ¬ HasBareScalar ts := by
      rintro ⟨us, t, vs, kind, he, -, -⟩
      simp [ht] at he
    rw [ht] at hnot ⊢
    exact ⟨.inr ⟨hnot, rfl⟩, Nat.le_add_right ..⟩
  | @scalar t kind ht hr =>
    have hopen : stillOpen ts = [] := by simp [ht, stillOpen, track, hr]
    rw [hopen]
    exact ⟨.inl ⟨⟨[], t, [], kind, ht, rfl, hr⟩, rfl⟩, Nat.add_le_add_left (Nat.le_max_right ..) 1⟩
  | complete hroot hopen =>
    rw [hopen]
    exact ⟨.inr ⟨hroot.not_hasBareScalar, rfl⟩, Nat.le_add_right ..⟩
  | @inside top below c opened hroot hopen htop hbelow hcovered hdepth =>
    have hlength : below.length = opened.length := by simpa using congrArg List.length hbelow
    have hstack : (top :: (below ++ [Frame.start false])).length = below.length + 2 := by simp
    rw [hopen, hstack, List.length_cons]
    exact ⟨.inr ⟨hroot.not_hasBareScalar, by omega⟩, by omega⟩

end

/-- Whatever a new checker is asked, be it tokens that it accepts, tokens that it refuses or resets,
its stack is well shaped, and so never empty. The document is complete there if and only if an
outermost container has been closed since the last reset. One frame is the document's, one each
open container's, and one a bare scalar's; there are never more than the limit on nesting allows,
or than a scalar takes. -/
theorem stack_shape (maxDepth : Nat) (calls : List Checker.Call) :
    let a := ({ checker := { maxDepth } } : Checker.Account DocumentChecker).performAll calls
    let kept := significant a.kept
    a.checker.stack ≠ [] ∧ IsWellShaped a.checker.stack ∧
    (.start true ∈ a.checker.stack ↔ HasClosed kept) ∧
    (HasBareScalar kept ∧ a.checker.depth = 2 + (stillOpen kept).length ∨
      ¬ HasBareScalar kept ∧ a.checker.depth = 1 + (stillOpen kept).length) ∧
    a.checker.depth ≤ 1 + max maxDepth 1 := by
  intro a kept
  have hstart : Stacked maxDepth (significant []) [.start false] := .start rfl
  have hstacked : Stacked maxDepth kept a.checker.stack :=
    stacked_performAll (a := { checker := { maxDepth } }) hstart calls
  have hshape := hstacked.isWellShaped
  obtain ⟨hdepth, hlimit⟩ := hstacked.length_eq
  refine ⟨?_, hshape, hstacked.start_mem_iff, hdepth, hlimit⟩
  obtain ⟨above, complete, hstack, -⟩ := hshape.bottom
  rw [hstack]
  simp

end DocumentChecker

end LaxJson
