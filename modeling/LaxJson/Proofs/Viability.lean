import LaxJson.Checker.Document
import LaxJson.Proofs.Assembly

/-!
# The checker accepts what can become a document

The frames of the document checker are an assembly without the trees: `Assembly.frames`
forgets what has been read and keeps what is waited for. Both take the same tokens
(`run_take_frames`), and so the checker accepts a sequence of tokens exactly when it begins a
document within the limit on nesting.
-/
namespace LaxJson
open Grammar DocumentChecker

namespace Assembly

/-- The frames of the containers around a value, and that of the document. -/
def framesAround : List Enclosure → List Frame
  | [] => [.start false]
  | .object p _ _ :: outer => .object .separator p :: framesAround outer
  | .array p _ :: outer => .array .separator p :: framesAround outer

/-- What a document checker remembers of an assembly. -/
def frames : Assembly → List Frame
  | document => [.start false]
  | fieldName p _ outer => .object .name p :: framesAround outer
  | assignment p _ _ outer => .object .assignment p :: framesAround outer
  | fieldValue p _ _ outer => .object .value p :: framesAround outer
  | afterField p _ outer => .object .separator p :: framesAround outer
  | element p _ outer => .array .element p :: framesAround outer
  | afterElement p _ outer => .array .separator p :: framesAround outer
  | complete (.scalar _) => [.scalar, .start false]
  | complete (.object _) | complete (.array _) => [.start true]

/-- Why a document checker refuses a token that has no place in the assembly. -/
def reason : Assembly → Reason
  | document => .noStart
  | fieldName .. => .fieldName
  | assignment .. => .missingAssignment
  | fieldValue .. => .missingFieldValue
  | afterField .. => .afterField
  | element .. => .missingElement
  | afterElement .. => .afterElement
  | complete (.scalar _) => .afterScalar
  | complete (.object _) | complete (.array _) => .afterDocument

@[simp] theorem length_framesAround (outer : List Enclosure) :
    (framesAround outer).length = outer.length + 1 := by
  induction outer with
  | nil => rfl
  | cons e outer ih => cases e <;> simp [framesAround, ih]

/-- The frame of a container gives way to those around it, and the document is complete
behind the outermost. -/
theorem frames_place_object (top : Frame) (fields : List (Field Tree)) (outer : List Enclosure) :
    (place (.object fields) outer).frames = pop (top :: framesAround outer) := by
  rcases outer with _ | ⟨_ | _, _ | ⟨_ | _, outer⟩⟩ <;> rfl

theorem frames_place_array (top : Frame) (elements : List Tree) (outer : List Enclosure) :
    (place (.array elements) outer).frames = pop (top :: framesAround outer) := by
  rcases outer with _ | ⟨_ | _, _ | ⟨_ | _, outer⟩⟩ <;> rfl

/-- What the checker comes to where the assembly answers `r`. -/
def verdict (a : Assembly) :
    Except ParseFault Assembly → EStateM.Result Reason (List Frame) Unit
  | .ok b => .ok () b.frames
  | .error (.refused r) => .error r.reason a.frames
  | .error _ => .error a.reason a.frames

/-- A value is begun alike inside every container: the frame above `outer` gives way to
`frame`, and a new one is put above it for a container. -/
theorem run_take_of_value (maxDepth : Nat) (t : Token) (e : Enclosure) (outer : List Enclosure)
    {a : Assembly} {top frame : Frame} (ha : a.frames = top :: framesAround outer)
    (hf : framesAround (e :: outer) = frame :: framesAround outer)
    (ht : ∀ full, top.judge maxDepth full t = judgeValue maxDepth full t frame a.reason) :
    (take maxDepth t).run a.frames = a.verdict (beginValue maxDepth t (e :: outer)) := by
  rw [ha, run_take_cons, ht, judgeValue, Step.ofValue?, beginValue, length_framesAround,
    List.length_cons]
  cases t.role with
  | opening c =>
    by_cases hd : maxDepth ≤ outer.length + 1
    · have hfull : maxDepth < outer.length + 1 + 1 := by omega
      simp [hd, hfull, permit, verdict, ha]
    · have hroom : ¬ maxDepth < outer.length + 1 + 1 := by omega
      cases c <;> simp [hd, hroom, permit, Frame.opened, verdict, frames, hf]
  | scalar kind =>
    have hplace : (place (.scalar ⟨t.text, kind, t.span⟩) (e :: outer)).frames =
        frame :: framesAround outer := by
      rw [← hf]
      cases e <;> rfl
    simp [permit, verdict, hplace]
  | _ => simp [verdict, misplaced, ha]

/-- The checker and the assembly go on with the same tokens, to the same place. -/
theorem run_take_frames (maxDepth : Nat) (a : Assembly) (t : Token) :
    (take maxDepth t).run a.frames = a.verdict (a.add maxDepth t) := by
  cases a with
  | document =>
    rw [frames, run_take_cons, Frame.judge, Step.ofValue?, add, beginValue]
    cases t.role with
    | opening c =>
      by_cases hd : maxDepth = 0
      · simp [hd, permit, verdict, frames]
      · cases c <;> simp [hd, permit, Frame.opened, verdict, frames, framesAround]
    | scalar kind => rfl
    | _ => rfl
  | fieldName p fields outer =>
    rw [frames, run_take_cons, Frame.judge, add]
    cases t.role with
    | closing c =>
      cases c with
      | object => exact congrArg _ (frames_place_object _ _ _).symm
      | array => rfl
    | scalar kind => cases kind <;> rfl
    | _ => rfl
  | assignment p fields name outer =>
    rw [frames, run_take_cons, Frame.judge, add]
    cases t.role <;> rfl
  | fieldValue p fields name outer =>
    exact run_take_of_value maxDepth t (.object p fields name) outer rfl rfl fun _ => rfl
  | afterField p fields outer =>
    rw [frames, run_take_cons, Frame.judge, add]
    cases t.role with
    | closing c =>
      cases c with
      | object => exact congrArg _ (frames_place_object _ _ _).symm
      | array => rfl
    | _ => rfl
  | element p elements outer =>
    by_cases hr : t.role = .closing .array
    · rw [frames, run_take_cons, Frame.judge, add, hr]
      exact congrArg _ (frames_place_array _ _ _).symm
    · rw [add_of_awaited rfl hr]
      refine run_take_of_value maxDepth t (.array p elements) outer rfl rfl fun full => ?_
      rw [Frame.judge]
      split
      · exact absurd ‹_› hr
      · rfl
  | afterElement p elements outer =>
    rw [frames, run_take_cons, Frame.judge, add]
    cases t.role with
    | closing c =>
      cases c with
      | object => rfl
      | array => exact congrArg _ (frames_place_array _ _ _).symm
    | _ => rfl
  | complete tree => cases tree <;> rfl

/-- The checker names the container that the assembly has opened last and not closed. -/
theorem unclosed?_frames (maxDepth : Nat) (a : Assembly) :
    Checker.unclosed? ({ maxDepth, stack := a.frames } : DocumentChecker) = a.opened.head? := by
  rcases a with _ | _ | _ | _ | _ | _ | _ | (_ | _ | _) <;> rfl

end Assembly

/-- The state of a checker behind tokens of which it refuses none. -/
def Checker.accept? {V : Type} [Checker V] : V → List Token → Option V
  | v, [] => some v
  | v, t :: ts =>
    match check v t with
    | (none, v) => accept? v ts
    | (some _, _) => none

namespace DocumentChecker

/-- What the check of a token comes to is what the assembly comes to. -/
theorem check_frames (maxDepth : Nat) (a : Assembly) {t : Token} (ht : t.isTrivia = false) :
    Checker.check ({ maxDepth, stack := a.frames } : DocumentChecker) t =
      match a.add maxDepth t with
      | .ok b => (none, { maxDepth, stack := b.frames })
      | .error (.refused r) => (some ⟨r.reason, t.span⟩, { maxDepth, stack := a.frames })
      | .error _ => (some ⟨a.reason, t.span⟩, { maxDepth, stack := a.frames }) := by
  have hrun := a.run_take_frames maxDepth t
  cases hadd : a.add maxDepth t with
  | ok b =>
    rw [hadd] at hrun
    exact check_of_run_eq_ok ht hrun
  | error f =>
    rw [hadd] at hrun
    cases f <;> exact check_of_run_eq_error ht hrun

/-- Trivia aside, tokens are accepted as they fit into an assembly. -/
theorem accept?_frames (maxDepth : Nat) (a : Assembly) (ts : List Token) :
    Checker.accept? ({ maxDepth, stack := a.frames } : DocumentChecker) ts =
      (a.addAll maxDepth (significant ts)).toOption.map fun b =>
        { maxDepth, stack := b.frames } := by
  induction ts generalizing a with
  | nil => rfl
  | cons t ts ih =>
    by_cases ht : t.isTrivia = true
    · have hs : significant (t :: ts) = significant ts := by simp [significant, ht]
      rw [hs, ← ih a, Checker.accept?, check_of_isTrivia _ ht]
    · have hs : significant (t :: ts) = t :: significant ts := by simp [significant, ht]
      rw [Bool.not_eq_true] at ht
      rw [hs, Assembly.addAll, Checker.accept?, check_frames maxDepth a ht]
      cases hadd : a.add maxDepth t with
      | ok b => exact ih b
      | error f => cases f <;> rfl

theorem accept?_reset_eq (v : DocumentChecker) (ts : List Token) :
    Checker.accept? (Checker.reset v) ts =
      (Assembly.document.addAll v.maxDepth (significant ts)).toOption.map fun a =>
        ({ maxDepth := v.maxDepth, stack := a.frames } : DocumentChecker) :=
  accept?_frames v.maxDepth .document ts

/-- The tokens that are accepted are the beginnings of documents within the limit. -/
theorem exists_accept?_reset_iff (v : DocumentChecker) (ts : List Token) :
    (∃ w, Checker.accept? (Checker.reset v) ts = some w) ↔
      ∃ w, IsDocument (roles ts ++ w) ∧ NestsWithin v.maxDepth (roles ts ++ w) := by
  rw [accept?_reset_eq, roles, ← Assembly.exists_addAll_iff]
  cases Assembly.document.addAll v.maxDepth (significant ts) <;> simp [Except.toOption]

/-- A new or reset checker accepts tokens exactly when they begin a document within its
limit. It finds nothing unclosed exactly where a document may end or has not begun, and
elsewhere the innermost container that is open. -/
theorem accept?_reset_viable (v : DocumentChecker) (ts : List Token) :
    Checker.reset v = { maxDepth := v.maxDepth } ∧
    ((∃ w, Checker.accept? (Checker.reset v) ts = some w) ↔
      ∃ w, IsDocument (roles ts ++ w) ∧ NestsWithin v.maxDepth (roles ts ++ w)) ∧
    ∀ w, Checker.accept? (Checker.reset v) ts = some w →
      (Checker.unclosed? w = none ↔ significant ts = [] ∨ IsDocument (roles ts)) ∧
      Checker.unclosed? w = (stillOpen (significant ts)).head? := by
  refine ⟨rfl, exists_accept?_reset_iff v ts, fun w hw => ?_⟩
  rw [accept?_reset_eq] at hw
  cases ha : Assembly.document.addAll v.maxDepth (significant ts) with
  | error f => simp [ha, Except.toOption] at hw
  | ok a =>
    rw [ha] at hw
    cases hw
    rw [Assembly.unclosed?_frames]
    have ho : a.opened = stillOpen (significant ts) := Assembly.opened_addAll ha
    refine ⟨?_, by rw [ho]⟩
    rw [List.head?_eq_none_iff, Assembly.opened_addAll_eq_nil_iff ha, roles]

/-- Behind an opening brace the object is open where the brace stands. -/
theorem accept?_reset_viable_brace :
    ∃ w, Checker.accept? (Checker.reset ({ maxDepth := 1 } : DocumentChecker))
        [⟨.operator, .opening .object, ['{'], ⟨.start, .start⟩⟩] = some w ∧
      Checker.unclosed? w = some (.object, .start) := by
  have hw : Checker.accept? (Checker.reset ({ maxDepth := 1 } : DocumentChecker))
      [⟨.operator, .opening .object, ['{'], ⟨.start, .start⟩⟩] =
      some { maxDepth := 1, stack := [.object .name .start, .start false] } := rfl
  have hviable := (accept?_reset_viable { maxDepth := 1 } _).2.2 _ hw
  exact ⟨_, hw, hviable.2.trans rfl⟩

end DocumentChecker

end LaxJson
