import LaxJson.Proofs.Scan.Munch

/-!
# What a recognizer keeps of the last token

A recognizer may be asked anything at any time, and what it answers depends on the stage that it
has come to. No question changes the class (`Recognizer.fresh_after`), so all that a recognizer can
carry from one token into the next is a stage. A start that is accepted sets the stage, and one that
is refused gives up the token at hand, but for one class: a line comment takes no notice of a start
that it refuses. So a recognizer that is asked to start has forgotten what it was used for, unless
it is a line comment that refuses, and that stands behind its first slash or behind its newline
(`Recognizer.start_forgets_iff`).
-/
namespace LaxJson

namespace Descriptor
variable {R : Type} [Descriptor R]

/-- What a descriptor can be asked. -/
inductive Question
  | init
  | start (c : Char)
  | extend (c : Char)
deriving DecidableEq, Repr

/-- The answer to a question, if it has one, and the descriptor after it. -/
def ask (r : R) : Question → Option Bool × R
  | .init => (none, init r)
  | .start c => (some (start r c).1, (start r c).2)
  | .extend c => (some (extend r c).1, (extend r c).2)

/-- The descriptor after questions one after another. -/
def after (r : R) (questions : List Question) : R := questions.foldl (fun r q => (ask r q).2) r

/-- Whatever the two are asked, they answer alike, and tell the same of the token at hand. -/
def Indistinguishable (r s : R) : Prop :=
  ∀ questions, isComplete (after r questions) = isComplete (after s questions) ∧
    role (after r questions) = role (after s questions) ∧
    category (after r questions) = category (after s questions) ∧
    ∀ q, (ask (after r questions) q).1 = (ask (after s questions) q).1

theorem Indistinguishable.of_eq {r s : R} (h : r = s) : Indistinguishable r s := by
  subst h
  exact fun _ => ⟨rfl, rfl, rfl, fun _ => rfl⟩

end Descriptor

namespace Recognizer
open Descriptor

variable {r : Recognizer} {c : Char}

/-- No question changes the class of a recognizer. -/
theorem fresh_ask (r : Recognizer) (q : Question) : (ask r q).2.fresh = r.fresh := by
  cases q with
  | init => exact r.fresh_fresh
  | start c => exact r.fresh_start c
  | extend c => exact r.fresh_extend c

theorem fresh_after (r : Recognizer) (questions : List Question) :
    (after r questions).fresh = r.fresh := by
  induction questions generalizing r with
  | nil => rfl
  | cons q questions ih => exact (ih _).trans (r.fresh_ask q)

/-- Whether a token can begin with a character is a matter of the class. -/
theorem start_fst_fresh (r : Recognizer) (c : Char) : (r.fresh.start c).1 = (r.start c).1 := by
  rw [start_fst, start_fst, begin?_fresh]

theorem start_fresh_of_accepted (h : (r.start c).1 = true) : r.fresh.start c = r.start c := by
  rw [start_fst] at h
  obtain ⟨s, hs⟩ := Option.isSome_iff_exists.1 h
  rw [start, start, begin?_fresh, hs]

theorem start_snd_of_refused (h : (r.start c).1 = false) : (r.start c).2 = r.refuse := by
  rw [start_fst, Option.isSome_eq_false_iff, Option.isNone_iff_eq_none] at h
  rw [start, h]

/-- A line comment behind the first of two slashes, or behind its newline. -/
def IsStranded : Recognizer → Prop
  | lineComment _ .opener | lineComment _ .closed => True
  | _ => False

theorem refuse_of_isStranded (h : r.IsStranded) : r.refuse = r := by
  cases r with
  | lineComment marker stage => rfl
  | _ => exact h.elim

theorem refuse_of_not_isStranded (h : ¬ r.IsStranded) : r.refuse = r.fresh := by
  cases r with
  | lineComment marker stage =>
    cases stage with
    | body => rfl
    | opener | closed => exact absurd trivial h
  | _ => rfl

theorem not_isStranded_fresh (r : Recognizer) : ¬ r.fresh.IsStranded := by
  cases r <;> exact id

/-- Behind its first slash a line comment is not whole, and behind its newline it does not go on;
a new one is whole as it is, and goes on with anything. -/
theorem not_indistinguishable_of_isStranded (h : r.IsStranded) :
    ¬ Indistinguishable r r.fresh := by
  intro halike
  obtain ⟨hcomplete, -, -, hanswer⟩ := halike []
  cases r with
  | lineComment marker stage =>
    cases stage with
    | body => exact h
    | opener => cases hcomplete
    | closed => cases hanswer (.extend ' ')
  | _ => exact h

/-- A new recognizer is asked any questions, and then whether a token can begin with `c`. Its answer
is that of a new one. What it answers from then on is that of a new one as well, if and only if it
has said yes or is no stranded line comment; and a stranded one that has said no answers as if it
had not been asked. A character that does not go on with the token at hand changes no later
answer. -/
theorem start_forgets_iff (r : Recognizer) (history : List Question) (c : Char) :
    let used := after r.fresh history
    (used.start c).1 = (r.fresh.start c).1 ∧
    (Indistinguishable (used.start c).2 (r.fresh.start c).2 ↔
      (used.start c).1 = true ∨ ¬ used.IsStranded) ∧
    ((used.start c).1 = false → used.IsStranded → Indistinguishable (used.start c).2 used) ∧
    ∀ d, (used.extend d).1 = false → Indistinguishable (used.extend d).2 used := by
  intro used
  have hfresh : used.fresh = r.fresh := (fresh_after _ history).trans r.fresh_fresh
  have hanswer : (r.fresh.start c).1 = (used.start c).1 := by
    rw [← hfresh]
    exact used.start_fst_fresh c
  refine ⟨hanswer.symm, ?_, fun hrefused hstranded => ?_, fun d hd => ?_⟩
  · by_cases haccepted : (used.start c).1 = true
    · have heq : r.fresh.start c = used.start c := hfresh ▸ start_fresh_of_accepted haccepted
      exact iff_of_true (.of_eq (congrArg Prod.snd heq.symm)) (.inl haccepted)
    · have hrefused : (used.start c).1 = false := by simpa using haccepted
      rw [start_snd_of_refused hrefused, start_snd_of_refused (hanswer.trans hrefused),
        refuse_of_not_isStranded r.not_isStranded_fresh, fresh_fresh, ← hfresh,
        or_iff_right haccepted]
      refine ⟨fun halike hstranded => ?_, fun hnot => .of_eq (refuse_of_not_isStranded hnot)⟩
      rw [refuse_of_isStranded hstranded] at halike
      exact not_indistinguishable_of_isStranded hstranded halike
  · rw [start_snd_of_refused hrefused]
    exact .of_eq (refuse_of_isStranded hstranded)
  · exact .of_eq (extend_snd_of_refused hd)

/-- A comment that has taken its newline takes no more, and a start that it refuses leaves it
there. -/
theorem start_forgets_iff_newline :
    let used := after hashComment [.start '#', .extend '\n']
    (used.start 'x').1 = false ∧ used.IsStranded ∧ (used.extend 'x').1 = false ∧
      Indistinguishable (used.start 'x').2 used ∧ Indistinguishable (used.extend 'x').2 used := by
  intro used
  have hrefused : (used.start 'x').1 = false := by decide
  have hextend : (used.extend 'x').1 = false := by decide
  obtain ⟨-, -, hstart, hlater⟩ := start_forgets_iff hashComment [.start '#', .extend '\n'] 'x'
  exact ⟨hrefused, trivial, hextend, hstart hrefused trivial, hlater 'x' hextend⟩

/-- Behind a slash and a start that it refuses, a comment is not whole and does not go on; a new one
that refuses the start is whole, and goes on. -/
theorem start_leaves_opener :
    let used := after slashComment [.start '/']
    (used.start 'x').1 = false ∧ (slashComment.start 'x').1 = false ∧
      (used.start 'x').2.isComplete = false ∧ (slashComment.start 'x').2.isComplete = true ∧
      ((used.start 'x').2.extend 'y').1 = false ∧
      ((slashComment.start 'x').2.extend 'y').1 = true ∧
      ¬ Indistinguishable (used.start 'x').2 (slashComment.start 'x').2 := by
  intro used
  refine ⟨by decide, by decide, by decide, by decide, by decide, by decide, fun halike => ?_⟩
  cases (halike []).1

end Recognizer

end LaxJson
