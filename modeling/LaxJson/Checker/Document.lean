import LaxJson.Checker
import LaxJson.Options

/-!
# The grammar of documents as a checker

A document is one value. A value is a scalar, an object of fields or an array of
elements, and the last field or element may be followed by a comma. The checker keeps a
frame for every container that is open, the innermost first, above a frame for the
document as a whole; the innermost frame says what may come next. It changes the frames
as it goes through a token, and may come to refuse the token at several points on the way.
-/
namespace LaxJson

namespace DocumentChecker

/-- What an object waits for. It may also end where a name or a comma may come. -/
inductive FieldStage
  | name
  | assignment
  | value
  | separator
deriving DecidableEq, Repr

/-- What an array waits for, if it does not end there. -/
inductive ElementStage
  | element
  | separator
deriving DecidableEq, Repr

/-- One level of a document: the document as a whole, which is complete when its container
has been closed, an open container, or a bare scalar, which nothing may follow. -/
inductive Frame
  | start (complete : Bool)
  | object (stage : FieldStage) (opened : Position)
  | array (stage : ElementStage) (opened : Position)
  | scalar
deriving DecidableEq, Repr

/-- The container that a frame stands for, and where it was opened. -/
def Frame.container? : Frame → Option (Container × Position)
  | object _ opened => some (.object, opened)
  | array _ opened => some (.array, opened)
  | start _ | scalar => none

/-- The frame of a container just opened. -/
def Frame.opened (container : Container) (p : Position) : Frame :=
  match container with
  | .object => .object .name p
  | .array => .array .element p

@[simp] theorem Frame.container?_opened (container : Container) (p : Position) :
    (Frame.opened container p).container? = some (container, p) := by
  cases container <;> rfl

/-- What an allowed token does to the stack of frames. -/
inductive Step
  | stay
  | enter (inner : Frame)
  | leave
deriving DecidableEq, Repr

/-- The step of a token that is a value or opens one. -/
def Step.ofValue? (t : Token) : Option Step :=
  match t.role with
  | .opening container => some (.enter (.opened container t.span.first))
  | .scalar _ => some .stay
  | _ => none

/-- A part of a check. It may give a reason to refuse the token, and what has been done to
the frames by then stays done. -/
abbrev Checking := EStateM Reason (List Frame)

def refuse {α : Type} (reason : Reason) : Checking α := throw reason

/-- Puts a frame in the place of the innermost one. -/
def await (frame : Frame) : Checking Unit :=
  modify fun stack => stack.set 0 frame

/-- Stops a step into one container more when the stack is full. -/
def permit (maxDepth : Nat) (full : Bool) : Step → Checking Step
  | .enter inner =>
    if full && inner.container?.isSome then refuse (.tooDeep maxDepth) else pure (.enter inner)
  | step => pure step

/-- Takes a token where a value is awaited, and `frame` behind it. -/
def judgeValue (maxDepth : Nat) (full : Bool) (t : Token) (frame : Frame) (reason : Reason) :
    Checking Step :=
  match Step.ofValue? t with
  | some step => do
    let step ← permit maxDepth full step
    await frame
    return step
  | none => refuse reason

/-- Goes by the innermost frame, which is put forward to what comes behind the token. -/
def Frame.judge (maxDepth : Nat) (full : Bool) (t : Token) : Frame → Checking Step
  | start true => refuse .afterDocument
  | start false =>
    match Step.ofValue? t with
    | some .stay => pure (.enter .scalar)
    | some step => permit maxDepth full step
    | none => refuse .noStart
  | scalar => refuse .afterScalar
  | object .name opened =>
    match t.role with
    | .closing .object => pure .leave
    | .scalar .string => do
      await (.object .assignment opened)
      return .stay
    | _ => refuse .fieldName
  | object .assignment opened =>
    match t.role with
    | .assignment => do
      await (.object .value opened)
      return .stay
    | _ => refuse .missingAssignment
  | object .value opened =>
    judgeValue maxDepth full t (.object .separator opened) .missingFieldValue
  | object .separator opened =>
    match t.role with
    | .separator => do
      await (.object .name opened)
      return .stay
    | .closing .object => pure .leave
    | _ => refuse .afterField
  | array .element opened =>
    match t.role with
    | .closing .array => pure .leave
    | _ => judgeValue maxDepth full t (.array .separator opened) .missingElement
  | array .separator opened =>
    match t.role with
    | .separator => do
      await (.array .element opened)
      return .stay
    | .closing .array => pure .leave
    | _ => refuse .afterElement

/-- The frames that are left when the one above them is taken away; with its outermost
container the document is complete. -/
def settle : List Frame → List Frame
  | [.start _] => [.start true]
  | frames => frames

/-- The stack without its innermost frame. The frame of the document is never taken away. -/
def pop : List Frame → List Frame
  | _ :: frame :: below => settle (frame :: below)
  | stack => settle stack

def Step.perform : Step → Checking Unit
  | stay => pure ()
  | enter inner => modify (inner :: ·)
  | leave => modify pop

/-- Takes a token other than trivia. Whether there is room for a container is settled before
any frame changes. -/
def take (maxDepth : Nat) (t : Token) : Checking Unit := do
  let stack ← get
  match stack with
  | [] => refuse .noStart
  | top :: _ =>
    let step ← top.judge maxDepth (maxDepth < stack.length) t
    step.perform

@[simp] theorem run_refuse {α : Type} (reason : Reason) (stack : List Frame) :
    (refuse reason : Checking α).run stack = .error reason stack := rfl

@[simp] theorem run_await_cons (frame top : Frame) (below : List Frame) :
    (await frame).run (top :: below) = .ok () (frame :: below) := rfl

@[simp] theorem run_perform_stay (stack : List Frame) :
    Step.stay.perform.run stack = .ok () stack := rfl

@[simp] theorem run_perform_enter (inner : Frame) (stack : List Frame) :
    (Step.enter inner).perform.run stack = .ok () (inner :: stack) := rfl

@[simp] theorem run_perform_leave (stack : List Frame) :
    Step.leave.perform.run stack = .ok () (pop stack) := rfl

theorem run_take_cons (maxDepth : Nat) (t : Token) (top : Frame) (below : List Frame) :
    (take maxDepth t).run (top :: below) =
      (top.judge maxDepth (maxDepth < below.length + 1) t >>= Step.perform).run
        (top :: below) := rfl

end DocumentChecker

open DocumentChecker

/-- The grammar of documents, with at most `maxDepth` containers open at once and a frame for
each level that is open. -/
structure DocumentChecker where
  maxDepth : Nat
  stack : List Frame := [.start false]
deriving DecidableEq, Repr

namespace DocumentChecker

/-- The number of open levels, the document as a whole being one. -/
def depth (v : DocumentChecker) : Nat := v.stack.length

instance : Checker DocumentChecker where
  check v t :=
    if t.isTrivia then (none, v)
    else match (take v.maxDepth t).run v.stack with
      | .ok _ stack => (none, { v with stack })
      | .error reason stack => (some ⟨reason, t.span⟩, { v with stack })
  reset v := { v with stack := [.start false] }
  unclosed? v := v.stack.head?.bind Frame.container?

theorem check_of_isTrivia (v : DocumentChecker) {t : Token} (ht : t.isTrivia = true) :
    Checker.check v t = (none, v) := by
  simp [Checker.check, ht]

theorem check_of_run_eq_ok {v : DocumentChecker} {t : Token} {stack : List Frame}
    (ht : t.isTrivia = false) (h : (take v.maxDepth t).run v.stack = .ok () stack) :
    Checker.check v t = (none, { v with stack }) := by
  simp [Checker.check, ht, h]

theorem check_of_run_eq_error {v : DocumentChecker} {t : Token} {stack : List Frame}
    {reason : Reason} (ht : t.isTrivia = false)
    (h : (take v.maxDepth t).run v.stack = .error reason stack) :
    Checker.check v t = (some ⟨reason, t.span⟩, { v with stack }) := by
  simp [Checker.check, ht, h]

end DocumentChecker

end LaxJson
