import LaxJson.Input.ByteReader
import LaxJson.Proofs.Barrier
import Mathlib.Data.Nat.Find

/-!
# Every call makes progress

A caller who ignores all faults and refusals and calls again comes to the end of every input. A
call that answers anything else than the end uses up a part of what the lexer can still come upon
(`Lexer.weight_after_add_le`), and once it has answered the end, it answers the end without a look
at the input (`Lexer.next_of_ended`). So the answers before the end are at most as many as there
are characters and failures (`Lexer.answers_run_out`), or bytes and failures of a device.
-/
namespace LaxJson

namespace ByteReader

/-- The number of requests to the device that fail. -/
def failures : ByteReader → Nat
  | [] => 0
  | .bytes _ _ :: rest => failures rest
  | .failure _ :: rest => failures rest + 1

theorem weight_eq (r : ByteReader) : r.weight = r.size + r.failures := by
  fun_induction weight r with
  | case1 => rfl
  | case2 => simp only [size, failures]; omega
  | case3 => simp only [size, failures]; omega

/-- Every answer costs the device a byte or a failure at least. -/
theorem length_input_le_weight (r : ByteReader) : r.input.length ≤ r.weight := by
  induction hsize : r.weight using Nat.strong_induction_on generalizing r with
  | h size ih =>
    rw [input]
    split
    · exact Nat.zero_le _
    all_goals
      rename_i rest hn
      have hlt : rest.weight < r.weight := by
        have hless := weight_nextChar_lt r (by simp [hn])
        rwa [hn] at hless
      have hle := ih _ (hsize ▸ hlt) rest rfl
      rw [List.length_cons]
      omega

end ByteReader

namespace Scanner
variable {R : Type} {s : Scanner R}

/-- The end is reached with the last answer of the input. -/
theorem rest_of_first_eq_finish {input : Input} (h : (s.first input).1 = .finish)
    (hended : s.lookahead = .ended → input = []) : (s.first input).2.2 = [] := by
  have hseek (hs : (s.seek input).1 = .finish) : (s.seek input).2.2 = [] := by
    rcases length_gather s.maxChars (fun (_ : Unit) c _ => (s.skips c, ())) () s.cursor input with
      hg | hg
    · exact hg.2
    · exact absurd hs hg.1
  unfold first at h ⊢
  split at h
  · exact hended ‹_›
  · exact hseek h
  · split at h
    · rw [if_pos ‹_›]
      exact hseek h
    · cases h

variable [Descriptor R]

/-- Behind the end the input is not read, and nothing changes. -/
theorem next_of_ended (h : s.lookahead = .ended) (input : Input) :
    s.next input = (.ok none, s, input) := by
  have hfirst : s.first input = (.finish, s.cursor, input) := by
    rw [first, h]
  have hsame : s.moveTo s.lexicon s.cursor .ended = s := by
    rw [moveTo, ← h]
  rw [next, hfirst]
  simp only [hsame]

/-- A call that answers the end has come to the end of the input, and takes note of it. -/
theorem ended_of_next_eq_none {input : Input} (h : (s.next input).1 = .ok none) :
    (s.next input).2.1.lookahead = .ended ∧
      ((s.lookahead = .ended → input = []) → (s.next input).2.2 = []) := by
  have hrest (hf : (s.first input).1 = .finish) := rest_of_first_eq_finish hf
  unfold next at h ⊢
  split at h <;> rename_i hfirst
  · rw [hfirst] at hrest
    exact ⟨rfl, hrest rfl⟩
  · cases h
  · dsimp only at h ⊢
    split at h
    · cases h
    · split at h
      · cases h
      · exact absurd h (Draft.map_token_ne_none _)

end Scanner

namespace Lexer
variable {V R : Type} [Checker V] [Descriptor R]

theorem next_of_ended {l : Lexer V R} (h : l.scanner.lookahead = .ended) (input : Input) :
    l.next input = (.ok none, l, input) := by
  rw [next, Scanner.next_of_ended h]

theorem lookahead_of_next_eq_none {l : Lexer V R} {input : Input}
    (h : (l.next input).1 = .ok none) : (l.next input).2.1.scanner.lookahead = .ended := by
  rcases hn : l.next input with ⟨answer, l', rest⟩
  rw [hn] at h
  cases h
  have hs := scanner_next_of_finish hn
  have hended := (Scanner.ended_of_next_eq_none (congrArg Prod.fst hs)).1
  rwa [hs] at hended

section
variable (l : Lexer V R) (input : Input)

/-- The first `m` answers are something else than the end, all later ones are the end, and those
behind the first of these are given without reading, whatever there is to read. -/
structure RunsOut (m : Nat) : Prop where
  something : ∀ n < m, l.answer input n ≠ .ok none
  nothing : ∀ n, m ≤ n → l.answer input n = .ok none
  unread : ∀ n, m < n → ∀ other : Input,
    (l.after input n).1.next other = (.ok none, (l.after input n).1, other)

/-- Each answer that is not the end uses up something. -/
theorem weight_after_add_le (n : Nat) (h : ∀ k < n, l.answer input k ≠ .ok none) :
    (l.after input n).1.weight (l.after input n).2 + n ≤ l.weight input := by
  induction n with
  | zero => exact Nat.le_refl _
  | succ n ih =>
    have hle := ih fun k hk => h k (Nat.lt_succ_of_lt hk)
    have hlt := weight_next_lt (l.after input n).1 (l.after input n).2 (h n (Nat.lt_succ_self n))
    rw [after]
    omega

theorem exists_answer_eq_none : ∃ m, l.answer input m = .ok none := by
  by_contra hnot
  have hle := weight_after_add_le l input (l.weight input + 1) fun k _ hk => hnot ⟨k, hk⟩
  omega

variable {l input}

/-- The lexer has come to its end for good. -/
theorem ended_after {m n : Nat} (hm : l.answer input m = .ok none) (h : m < n) :
    (l.after input n).1.scanner.lookahead = .ended := by
  induction n, h using Nat.le_induction with
  | base => exact lookahead_of_next_eq_none hm
  | succ n hle ih =>
    rw [after, next_of_ended ih]
    exact ih

theorem exists_runsOut (l : Lexer V R) (input : Input) :
    ∃ m ≤ l.weight input, l.RunsOut input m := by
  classical
  have hex := exists_answer_eq_none l input
  have hfirst : ∀ n < Nat.find hex, l.answer input n ≠ .ok none := fun n hn => Nat.find_min hex hn
  have hle := weight_after_add_le l input _ hfirst
  refine ⟨Nat.find hex, by omega, hfirst, fun n hn => ?_, fun n hn other => ?_⟩
  · rcases Nat.eq_or_lt_of_le hn with rfl | hlt
    · exact Nat.find_spec hex
    · rw [answer, next_of_ended (ended_after (Nat.find_spec hex) hlt)]
  · exact next_of_ended (ended_after (Nat.find_spec hex) hn) other

end

/-- A lexer that is new to an input, with any descriptors, options and checker, is called again
and again, whatever it answers. After at most as many other answers as the input has characters
and failures it answers the end, and from then on nothing else, without reading any more of that or
any other input. For a string the characters count, and for a device its bytes and failures. -/
theorem answers_run_out (l : Lexer V R) :
    (∀ input : Input, ∃ m ≤ input.length, l.reset.RunsOut input m) ∧
    (∀ s : String, ∃ m ≤ s.length, l.reset.RunsOut (.ofString s) m) ∧
    ∀ r : ByteReader, ∃ m ≤ r.size + r.failures, l.reset.RunsOut r.input m := by
  have hrun (input : Input) : ∃ m ≤ input.length, l.reset.RunsOut input m :=
    exists_runsOut l.reset input
  refine ⟨hrun, fun s => ?_, fun r => ?_⟩
  · have hs := hrun (.ofString s)
    rwa [Input.ofString, Input.length_ofChars, String.length_toList] at hs
  · obtain ⟨m, hm, hruns⟩ := hrun r.input
    exact ⟨m, (hm.trans r.length_input_le_weight).trans r.weight_eq.le, hruns⟩

end Lexer

end LaxJson
