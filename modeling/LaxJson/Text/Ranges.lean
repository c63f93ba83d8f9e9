/-!
# Ranges of code points

A set of characters as the ascending list of its ranges of code points. Membership
stops at the first range that begins after the code point, so a small code point is
found or missed at once; `contains_iff` says that nothing is missed that way.
-/
namespace LaxJson.Text

/-- Inclusive ranges of code points, in ascending order. -/
abbrev Ranges := List (Nat × Nat)

namespace Ranges

/-- Whether `n` lies in one of the ranges before the first that begins after it. -/
def contains : Ranges → Nat → Bool
  | [], _ => false
  | (first, last) :: rest, n => decide (first ≤ n) && (decide (n ≤ last) || contains rest n)

@[simp] theorem contains_nil (n : Nat) : contains [] n = false := rfl

theorem contains_cons (first last : Nat) (rest : Ranges) (n : Nat) :
    contains ((first, last) :: rest) n = true ↔
      first ≤ n ∧ (n ≤ last ∨ contains rest n = true) := by
  simp [contains]

/-- Ranges are ascending when each begins after the one before it ends. -/
def Ascending (rs : Ranges) : Prop := rs.Pairwise fun a b => a.1 ≤ a.2 ∧ a.2 < b.1

/-- In ascending ranges nothing is missed by stopping early. -/
theorem contains_iff {rs : Ranges} (h : Ascending rs) (n : Nat) :
    contains rs n = true ↔ ∃ r ∈ rs, r.1 ≤ n ∧ n ≤ r.2 := by
  induction rs with
  | nil => simp
  | cons r rs ih =>
    obtain ⟨first, last⟩ := r
    have hr := List.pairwise_cons.1 h
    rw [contains_cons, ih hr.2]
    constructor
    · rintro ⟨h1, h2 | ⟨r, hm, h2⟩⟩
      · exact ⟨_, List.mem_cons_self .., h1, h2⟩
      · exact ⟨r, List.mem_cons_of_mem _ hm, h2⟩
    · rintro ⟨r, hm, h1, h2⟩
      rcases List.mem_cons.1 hm with rfl | hm
      · exact ⟨h1, .inl h2⟩
      · have := hr.1 r hm
        exact ⟨by simp only at this; omega, .inr ⟨r, hm, h1, h2⟩⟩

end Ranges

end LaxJson.Text
