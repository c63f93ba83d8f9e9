import LaxJson.Proofs.Streaming

/-!
# Documents without a checker

An assembly trusts nobody, so that a parser of documents may do without its checker. It then
builds the same trees and fails at the same tokens, with the same faults but for one: a token
that the checker would have refused for any reason but the nesting has no place in the tree.
-/
namespace LaxJson
open Grammar

namespace Parser

/-- The parser of documents within the given options, without a checker. -/
def unchecked (options : Options) : Parser DocumentChecker :=
  withMaxDepth { lexer := ⟨.ofOptions Lexicon.document options, none⟩ } options.maxDepth

section
variable {options : Options} {input : Input}

/-- The refusals that a parser finds are those of its checker. -/
theorem parse_ofOptions_eq_refused_iff {r : Refusal} :
    ((ofOptions options).parse input).1 = .error (.refused r) ↔
      ∃ ts t, (ofOptions options).lexer.reset.Refuses input ts t r := by
  constructor
  · intro hp
    obtain ⟨ts, e, l, rest, hd⟩ := Lexer.exists_delivers (ofOptions options).lexer.reset input
    obtain ⟨a, -, hparse, -⟩ := exists_parse_ofOptions_eq hd
    rw [hparse] at hp
    rcases e with (f | r') | _
    · cases hp
    · cases hp
      obtain ⟨t, ht⟩ := Lexer.exists_refuses_of_delivers hd
      exact ⟨ts, t, ht⟩
    · cases a <;> cases hp
  · rintro ⟨ts, t, ht⟩
    obtain ⟨l, rest, hd⟩ := ht.exists_delivers
    obtain ⟨a, -, hparse, -⟩ := exists_parse_ofOptions_eq hd
    rw [hparse]
    rfl

/-- Where nothing is refused, the checker might as well not be there. -/
theorem parse_unchecked_eq_of_not_refused
    (h : ∀ r, ((ofOptions options).parse input).1 ≠ .error (.refused r)) :
    ((unchecked options).parse input).1 = ((ofOptions options).parse input).1 := by
  obtain ⟨ts, e, l, rest, hd⟩ := Lexer.exists_delivers (ofOptions options).lexer.reset input
  have he : ∀ r, e ≠ .error (.refused r) := by
    rintro r rfl
    obtain ⟨t, ht⟩ := Lexer.exists_refuses_of_delivers hd
    exact h r (parse_ofOptions_eq_refused_iff.2 ⟨ts, t, ht⟩)
  have hdetach : Delivers Lexer.next (unchecked options).lexer.reset input ts e l.detach rest :=
    Lexer.delivers_detach hd he
  rw [parse_of_delivers hdetach, parse_of_delivers hd]
  rfl

/-- Without a checker the refused token is the first that does not fit in. -/
theorem parse_unchecked_of_refuses {ts : List Token} {t : Token} {r : Refusal}
    (h : (ofOptions options).lexer.reset.Refuses input ts t r) :
    r.span = t.span ∧
      ((∃ n, r.reason = .tooDeep n) ∧ ((unchecked options).parse input).1 = .error (.refused r) ∨
        (∀ n, r.reason ≠ .tooDeep n) ∧
          ((unchecked options).parse input).1 = .error (Assembly.misplaced t)) := by
  obtain ⟨a, ha, ht, hspan, hadd⟩ := h.exists_add (checker_reset_ofOptions options)
  obtain ⟨us, e, l, rest, hd⟩ := h.detach
  have hd : Delivers Lexer.next (unchecked options).lexer.reset input (ts ++ t :: us) e l rest := hd
  have hsig : significant (ts ++ t :: us) = significant ts ++ t :: significant us := by
    simp [significant, ht]
  have hparse (f : ParseFault) (hf : a.add (ofOptions options).maxDepth t = .error f) :
      ((unchecked options).parse input).1 = .error f := by
    have hall := Assembly.addAll_append_cons_of_add_eq_error ha hf (significant us)
    rw [parse_of_delivers hd, hsig]
    exact (congrArg (Assembly.outcome l.position · e) hall).trans (Assembly.outcome_error ..)
  refine ⟨hspan, ?_⟩
  rcases hadd with ⟨hr, hf⟩ | ⟨hr, hf⟩
  · exact .inl ⟨⟨_, hr⟩, hparse _ hf⟩
  · exact .inr ⟨fun n => hr ▸ a.reason_ne_tooDeep n, hparse _ hf⟩

/-- Without a checker every fault but a refusal stays as it is, and so does a refusal for the
nesting. -/
theorem parse_unchecked_eq_error {f : ParseFault}
    (hf : ∀ r, f = .refused r → ∃ n, r.reason = .tooDeep n)
    (hp : ((ofOptions options).parse input).1 = .error f) :
    ((unchecked options).parse input).1 = .error f := by
  by_cases hr : ∃ r, f = .refused r
  · obtain ⟨r, rfl⟩ := hr
    obtain ⟨ts, t, ht⟩ := parse_ofOptions_eq_refused_iff.1 hp
    obtain ⟨n, hn⟩ := hf r rfl
    rcases (parse_unchecked_of_refuses ht).2 with ⟨-, hq⟩ | ⟨hne, -⟩
    · exact hq
    · exact absurd hn (hne n)
  · rw [← hp]
    refine parse_unchecked_eq_of_not_refused fun r hrefused => hr ⟨r, ?_⟩
    rw [hp] at hrefused
    exact Except.error.inj hrefused

/-- The tokens out of place are those that the checker would have refused, but for the nesting. -/
theorem parse_unchecked_eq_unexpected_iff {role : Role} {text : List Char} {span : Span} :
    ((unchecked options).parse input).1 = .error (.unexpected role text span) ↔
      ∃ ts category reason, (∀ n, reason ≠ .tooDeep n) ∧
        (ofOptions options).lexer.reset.Refuses input ts ⟨category, role, text, span⟩
          ⟨reason, span⟩ := by
  constructor
  · intro hu
    by_cases hr : ∃ r, ((ofOptions options).parse input).1 = .error (.refused r)
    · obtain ⟨⟨reason, rspan⟩, hr⟩ := hr
      obtain ⟨ts, t, ht⟩ := parse_ofOptions_eq_refused_iff.1 hr
      obtain ⟨hspan, ⟨-, hq⟩ | ⟨hne, hq⟩⟩ := parse_unchecked_of_refuses ht
      · rw [hq] at hu
        cases hu
      · rw [hq] at hu
        cases hu
        cases hspan
        exact ⟨ts, t.category, reason, hne, ht⟩
    · rw [parse_unchecked_eq_of_not_refused (not_exists.1 hr)] at hu
      exact absurd hu (parse_ofOptions_ne_unexpected role text span)
  · rintro ⟨ts, category, reason, hne, ht⟩
    rcases (parse_unchecked_of_refuses ht).2 with ⟨⟨n, hn⟩, -⟩ | ⟨-, hq⟩
    · exact absurd hn (hne n)
    · exact hq

theorem parse_unchecked_eq_ok_iff {tree : Tree} :
    ((ofOptions options).parse input).1 = .ok tree ↔
      ((unchecked options).parse input).1 = .ok tree := by
  by_cases hr : ∃ r, ((ofOptions options).parse input).1 = .error (.refused r)
  · obtain ⟨r, hr⟩ := hr
    obtain ⟨ts, t, ht⟩ := parse_ofOptions_eq_refused_iff.1 hr
    rw [hr]
    rcases (parse_unchecked_of_refuses ht).2 with ⟨-, hq⟩ | ⟨-, hq⟩
    · rw [hq]
    · rw [hq]
      exact iff_of_false nofun nofun
  · rw [parse_unchecked_eq_of_not_refused (not_exists.1 hr)]

end

/-- With its checker or without, a parser of documents finds the same trees, places included.
The faults are the same, but for a token that is refused for any reason but the nesting: without
the checker, and then only, that token is out of place. -/
theorem parse_unchecked_agrees (options : Options) (input : Input) :
    (∀ tree, ((ofOptions options).parse input).1 = .ok tree ↔
      ((unchecked options).parse input).1 = .ok tree) ∧
    (∀ f, (∀ r, f = .refused r → ∃ n, r.reason = .tooDeep n) →
      ((ofOptions options).parse input).1 = .error f →
        ((unchecked options).parse input).1 = .error f) ∧
    (∀ r, ((ofOptions options).parse input).1 = .error (.refused r) ↔
      ∃ ts t, (ofOptions options).lexer.reset.Refuses input ts t r) ∧
    ∀ role text span,
      (∃ ts category reason, (∀ n, reason ≠ .tooDeep n) ∧
        (ofOptions options).lexer.reset.Refuses input ts ⟨category, role, text, span⟩
          ⟨reason, span⟩) ↔
      ((unchecked options).parse input).1 = .error (.unexpected role text span) :=
  ⟨fun _ => parse_unchecked_eq_ok_iff, fun _ hf hp => parse_unchecked_eq_error hf hp,
    fun _ => parse_ofOptions_eq_refused_iff, fun _ _ _ => parse_unchecked_eq_unexpected_iff.symm⟩

end Parser

end LaxJson
