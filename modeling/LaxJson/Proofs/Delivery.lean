import LaxJson.Parser
import LaxJson.Proofs.Assembly

/-!
# What is delivered from an input

`Delivers next s input ts e s' rest` says that calls of `next` bring the tokens `ts` one after
another and then the end of the input or a fault, as `e` tells. Every lexer delivers something
from every input. Leaving out trivia changes nothing but the trivia
(`Lexer.delivers_significant`), and a parser makes of what is delivered what an assembly makes
of it (`Parser.assemble_of_delivers`), whatever descriptors and checker the lexer has.
-/
namespace LaxJson
open Grammar

/-- What `next` brings from an input, up to the first answer that is no token. -/
inductive Delivers {σ ε : Type} (next : σ → Input → Except ε (Option Token) × σ × Input) :
    σ → Input → List Token → Except ε Unit → σ → Input → Prop
  | finish {s input s' rest} (h : next s input = (.ok none, s', rest)) :
      Delivers next s input [] (.ok ()) s' rest
  | fault {s input f s' rest} (h : next s input = (.error f, s', rest)) :
      Delivers next s input [] (.error f) s' rest
  | token {s input t s₁ rest₁ ts e s' rest} (h : next s input = (.ok (some t), s₁, rest₁))
      (hd : Delivers next s₁ rest₁ ts e s' rest) : Delivers next s input (t :: ts) e s' rest

/-- Calls of `next` bring the tokens `ts`, one each, and may go on. -/
inductive Brings {σ ε : Type} (next : σ → Input → Except ε (Option Token) × σ × Input) :
    σ → Input → List Token → σ → Input → Prop
  | nil {s input} : Brings next s input [] s input
  | cons {s input t s₁ rest₁ ts s' rest} (h : next s input = (.ok (some t), s₁, rest₁))
      (hb : Brings next s₁ rest₁ ts s' rest) : Brings next s input (t :: ts) s' rest

section
variable {σ ε : Type} {next : σ → Input → Except ε (Option Token) × σ × Input}
  {s s₁ s₂ s' : σ} {input input₁ input₂ rest : Input} {ts us : List Token} {e : Except ε Unit}

/-- Only the first answer depends on where the calls begin. -/
theorem Delivers.of_next_eq (h : Delivers next s₁ input₁ ts e s' rest)
    (he : next s₂ input₂ = next s₁ input₁) : Delivers next s₂ input₂ ts e s' rest := by
  cases h with
  | finish h => exact .finish (he.trans h)
  | fault h => exact .fault (he.trans h)
  | token h hd => exact .token (he.trans h) hd

/-- The calls that bring the tokens come before the one that ends it all. -/
theorem Delivers.exists_brings (h : Delivers next s input ts e s' rest) :
    ∃ s₁ rest₁, Brings next s input ts s₁ rest₁ ∧
      next s₁ rest₁ = (e.map fun _ => none, s', rest) := by
  induction h with
  | finish h | fault h => exact ⟨_, _, .nil, h⟩
  | token h _ ih =>
    obtain ⟨s₁, rest₁, hb, hn⟩ := ih
    exact ⟨s₁, rest₁, .cons h hb, hn⟩

theorem Brings.append_singleton {t : Token} (h : Brings next s input ts s₁ input₁)
    (hn : next s₁ input₁ = (.ok (some t), s', rest)) : Brings next s input (ts ++ [t]) s' rest := by
  induction h with
  | nil => exact .cons hn .nil
  | cons h _ ih => exact .cons h (ih hn)

/-- Each token is brought by a call of its own. -/
theorem Brings.exists_next {t : Token} (h : Brings next s input ts s' rest) (ht : t ∈ ts) :
    ∃ us s₁ rest₁ s₂ rest₂, Brings next s input us s₁ rest₁ ∧
      next s₁ rest₁ = (.ok (some t), s₂, rest₂) := by
  induction h with
  | nil => cases ht
  | cons h _ ih =>
    rcases List.mem_cons.1 ht with rfl | ht
    · exact ⟨[], _, _, _, _, .nil, h⟩
    · obtain ⟨us, s₁, rest₁, s₂, rest₂, hb, hn⟩ := ih ht
      exact ⟨_ :: us, s₁, rest₁, s₂, rest₂, .cons h hb, hn⟩

theorem Brings.delivers (h : Brings next s input ts s₁ input₁)
    (hn : next s₁ input₁ = (.ok none, s', rest)) : Delivers next s input ts (.ok ()) s' rest := by
  induction h with
  | nil => exact .finish hn
  | cons h _ ih => exact .token h (ih hn)

theorem Brings.append_delivers (h : Brings next s input ts s₁ input₁)
    (hd : Delivers next s₁ input₁ us e s' rest) : Delivers next s input (ts ++ us) e s' rest := by
  induction h with
  | nil => exact hd
  | cons h _ ih => exact .token h (ih hd)

theorem Delivers.exists_of_append (h : Delivers next s input (ts ++ us) e s' rest) :
    ∃ s₁ input₁, Brings next s input ts s₁ input₁ ∧ Delivers next s₁ input₁ us e s' rest := by
  induction ts generalizing s input with
  | nil => exact ⟨s, input, .nil, h⟩
  | cons t ts ih =>
    cases h with
    | token h hd =>
      obtain ⟨s₁, input₁, hb, hd⟩ := ih hd
      exact ⟨s₁, input₁, .cons h hb, hd⟩

theorem exists_delivers_nil_iff :
    (∃ s' rest, Delivers next s input [] (.ok ()) s' rest) ↔
      ∃ s' rest, next s input = (.ok none, s', rest) := by
  constructor
  · intro ⟨s', rest, h⟩
    cases h with
    | finish h => exact ⟨s', rest, h⟩
  · intro ⟨s', rest, h⟩
    exact ⟨s', rest, .finish h⟩

theorem exists_delivers_cons_iff {t : Token} :
    (∃ s' rest, Delivers next s input (t :: ts) (.ok ()) s' rest) ↔
      ∃ s₁ input₁, next s input = (.ok (some t), s₁, input₁) ∧
        ∃ s' rest, Delivers next s₁ input₁ ts (.ok ()) s' rest := by
  constructor
  · intro ⟨s', rest, h⟩
    cases h with
    | token h hd => exact ⟨_, _, h, s', rest, hd⟩
  · intro ⟨s₁, input₁, h, s', rest, hd⟩
    exact ⟨s', rest, .token h hd⟩

theorem Delivers.eq_nil_of_next (h : Delivers next s input ts (.ok ()) s' rest)
    (hn : next s input = (.ok none, s₁, input₁)) : ts = [] := by
  cases h with
  | finish h => rfl
  | token h hd => cases hn.symm.trans h

theorem Delivers.next_ne_error (h : Delivers next s input ts (.ok ()) s' rest) {f : ε} :
    next s input ≠ (.error f, s₁, input₁) := by
  intro hn
  cases h with
  | finish h => cases hn.symm.trans h
  | token h hd => cases hn.symm.trans h

theorem Delivers.exists_eq_cons (h : Delivers next s input ts (.ok ()) s' rest) {t : Token}
    (hn : next s input = (.ok (some t), s₁, input₁)) :
    ∃ us, ts = t :: us ∧ Delivers next s₁ input₁ us (.ok ()) s' rest := by
  cases h with
  | finish h => cases hn.symm.trans h
  | token h hd =>
    cases hn.symm.trans h
    exact ⟨_, rfl, hd⟩

end

namespace Lexer
variable {V R : Type} [Checker V] [Descriptor R]

/-- What one call of a lexer comes to: the answer of its scanner, and the verdict of its checker
on a token. -/
inductive Answers (l : Lexer V R) (input : Input) :
    Except TokenFault (Option Token) × Lexer V R × Input → Prop
  | finish {s rest} (hs : l.scanner.next input = (.ok none, s, rest)) :
      Answers l input (.ok none, ⟨s, l.checker⟩, rest)
  | fault {f s rest} (hs : l.scanner.next input = (.error f, s, rest)) :
      Answers l input (.error (.scan f), ⟨s, l.checker⟩, rest)
  | unchecked {t s rest} (hs : l.scanner.next input = (.ok (some t), s, rest))
      (hv : l.checker = none) : Answers l input (.ok (some t), ⟨s, none⟩, rest)
  | accepted {t s rest v v'} (hs : l.scanner.next input = (.ok (some t), s, rest))
      (hv : l.checker = some v) (hc : Checker.check v t = (none, v')) :
      Answers l input (.ok (some t), ⟨s, some v'⟩, rest)
  | refused {t s rest v r v'} (hs : l.scanner.next input = (.ok (some t), s, rest))
      (hv : l.checker = some v) (hc : Checker.check v t = (some r, v')) :
      Answers l input (.error (.refused r), ⟨s, some v'⟩, rest)

theorem answers_next (l : Lexer V R) (input : Input) : l.Answers input (l.next input) := by
  unfold next
  rcases hs : l.scanner.next input with ⟨f | _ | t, s, rest⟩
  · exact .fault hs
  · exact .finish hs
  · cases hv : l.checker with
    | none => exact .unchecked hs hv
    | some v =>
      rcases hc : Checker.check v t with ⟨_ | r, v'⟩
      · simpa only [hc] using Answers.accepted hs hv hc
      · simpa only [hc] using Answers.refused hs hv hc

theorem scanner_next_of_token {l l' : Lexer V R} {input rest : Input} {t : Token}
    (h : l.next input = (.ok (some t), l', rest)) :
    l.scanner.next input = (.ok (some t), l'.scanner, rest) := by
  have hanswers := answers_next l input
  rw [h] at hanswers
  cases hanswers with
  | unchecked hs | accepted hs => exact hs

/-- What a lexer brings is what its scanner brings. -/
theorem brings_scanner {l l' : Lexer V R} {input rest : Input} {ts : List Token}
    (h : Brings next l input ts l' rest) :
    Brings Scanner.next l.scanner input ts l'.scanner rest := by
  induction h with
  | nil => exact .nil
  | cons h _ ih => exact .cons (scanner_next_of_token h) ih

/-- A token that is brought is one that the checker has accepted, if there is one. -/
theorem exists_check_of_token {l l' : Lexer V R} {input rest : Input} {t : Token} {v : V}
    (h : l.next input = (.ok (some t), l', rest)) (hv : l.checker = some v) :
    ∃ v', Checker.check v t = (none, v') ∧ l'.checker = some v' := by
  have hanswers := answers_next l input
  rw [h] at hanswers
  cases hanswers with
  | unchecked hs hnone =>
    rw [hnone] at hv
    cases hv
  | accepted hs hsome hc =>
    rw [hsome] at hv
    cases hv
    exact ⟨_, hc, rfl⟩

theorem scanner_next_of_finish {l l' : Lexer V R} {input rest : Input}
    (h : l.next input = (.ok none, l', rest)) :
    l.scanner.next input = (.ok none, l'.scanner, rest) := by
  have hanswers := answers_next l input
  rw [h] at hanswers
  cases hanswers with
  | finish hs => exact hs

theorem exists_delivers (l : Lexer V R) (input : Input) :
    ∃ ts e l' rest, Delivers next l input ts e l' rest := by
  induction hw : l.weight input using Nat.strongRecOn generalizing l input with
  | ind n ih =>
    rcases hn : l.next input with ⟨f | _ | t, l₁, rest₁⟩
    · exact ⟨[], .error f, l₁, rest₁, .fault hn⟩
    · exact ⟨[], .ok (), l₁, rest₁, .finish hn⟩
    · have hlt := weight_next_lt l input (by simp [hn])
      rw [hn, hw] at hlt
      obtain ⟨ts, e, l', rest, hd⟩ := ih _ hlt l₁ rest₁ rfl
      exact ⟨t :: ts, e, l', rest, .token hn hd⟩

theorem nextSignificant_eq (l : Lexer V R) (input : Input) :
    l.nextSignificant input =
      match l.next input with
      | (.ok (some t), l', rest) =>
        if t.isTrivia then l'.nextSignificant rest else (.ok (some t), l', rest)
      | answer => answer := by
  rw [nextSignificant]
  split
  · rename_i h
    simp only [h]
  · rename_i hn
    split
    · rename_i h
      exact absurd h (hn _ _ _)
    · rfl

/-- Passing over trivia leaves the other tokens as they are, and the end. -/
theorem delivers_significant {l l' : Lexer V R} {input rest : Input} {ts : List Token}
    {e : Except TokenFault Unit} (h : Delivers next l input ts e l' rest) :
    Delivers nextSignificant l input (significant ts) e l' rest := by
  induction h with
  | finish h => exact .finish (by rw [nextSignificant_eq, h])
  | fault h => exact .fault (by rw [nextSignificant_eq, h])
  | @token l input t l₁ rest₁ ts e l' rest h _ ih =>
    by_cases ht : t.isTrivia = true
    · have hs : significant (t :: ts) = significant ts := by simp [significant, ht]
      rw [hs]
      exact ih.of_next_eq (by rw [nextSignificant_eq l, h]; simp [ht])
    · have hs : significant (t :: ts) = t :: significant ts := by simp [significant, ht]
      rw [hs]
      exact .token (by rw [nextSignificant_eq, h]; simp [ht]) ih

end Lexer

/-- What an assembly comes to when the tokens have ended at `position`, as `e` tells. -/
def Assembly.outcome (position : Position) :
    Except ParseFault Assembly → Except TokenFault Unit → Except ParseFault Tree
  | .error f, _ => .error f
  | .ok a, .ok () => a.finish position
  | .ok _, .error f => .error (.ofToken f)

@[simp] theorem Assembly.outcome_error (position : Position) (f : ParseFault)
    (e : Except TokenFault Unit) : outcome position (.error f) e = .error f := by
  cases e <;> rfl

theorem Assembly.outcome_eq_ok_iff (position : Position) (r : Except ParseFault Assembly)
    (e : Except TokenFault Unit) (tree : Tree) :
    outcome position r e = .ok tree ↔
      e = .ok () ∧ ∃ a, r = .ok a ∧ a.finish position = .ok tree := by
  rcases r with _ | _ <;> rcases e with _ | _ <;> simp [outcome]

namespace Parser
variable {V R : Type} [Checker V] [Descriptor R]

theorem assemble_eq (maxDepth : Nat) (a : Assembly) (l : Lexer V R) (input : Input) :
    assemble maxDepth a l input =
      match l.nextSignificant input with
      | (.error f, l', rest) => (.error (.ofToken f), l', rest)
      | (.ok none, l', rest) => (a.finish l'.position, l', rest)
      | (.ok (some t), l', rest) =>
        match a.add maxDepth t with
        | .error f => (.error f, l', rest)
        | .ok a => assemble maxDepth a l' rest := by
  rw [assemble]
  split
  · rename_i h
    simp only [h]
  · rename_i h
    simp only [h]
  · rename_i t l' rest h
    cases hb : a.add maxDepth t with
    | error f => simp only [h, hb]
    | ok b => simp only [h, hb]

/-- The tokens decide up to the first that does not fit in; behind the last of them the
end of the input or the fault decides. -/
theorem assemble_of_delivers {maxDepth : Nat} {l l' : Lexer V R} {input rest : Input}
    {ts : List Token} {e : Except TokenFault Unit}
    (h : Delivers Lexer.nextSignificant l input ts e l' rest) (a : Assembly) :
    (assemble maxDepth a l input).1 = Assembly.outcome l'.position (a.addAll maxDepth ts) e := by
  induction h generalizing a with
  | finish h => rw [assemble_eq, h]; rfl
  | fault h => rw [assemble_eq, h]; rfl
  | @token l input t l₁ rest₁ ts e l' rest h _ ih =>
    rw [assemble_eq, h, Assembly.addAll]
    dsimp only
    cases a.add maxDepth t with
    | error f => simp
    | ok b => exact ih b

/-- A parser finds in an input what an assembly makes of the tokens of the input. -/
theorem parse_of_delivers {p : Parser V R} {l : Lexer V R} {input rest : Input} {ts : List Token}
    {e : Except TokenFault Unit} (h : Delivers Lexer.next p.lexer.reset input ts e l rest) :
    (p.parse input).1 =
      Assembly.outcome l.position (Assembly.document.addAll p.maxDepth (significant ts)) e := by
  rw [← assemble_of_delivers (Lexer.delivers_significant h)]
  rfl

/-- A parser finds the tree that the tokens of the whole input are read as, within its limit
on nesting, and nothing else. -/
theorem parse_eq_ok_iff (p : Parser V R) (input : Input) (tree : Tree) :
    (p.parse input).1 = .ok tree ↔
      ∃ ts l rest, Delivers Lexer.next p.lexer.reset input ts (.ok ()) l rest ∧
        Reads .tokens (.value tree) (significant ts) [] ∧ NestsWithin p.maxDepth (roles ts) := by
  constructor
  · intro h
    obtain ⟨ts, e, l, rest, hd⟩ := Lexer.exists_delivers p.lexer.reset input
    rw [parse_of_delivers hd, Assembly.outcome_eq_ok_iff, Assembly.addAll_finish_iff] at h
    obtain ⟨rfl, hr, hn⟩ := h
    exact ⟨ts, l, rest, hd, hr, hn⟩
  · rintro ⟨ts, l, rest, hd, hr, hn⟩
    rw [parse_of_delivers hd, Assembly.outcome_eq_ok_iff, Assembly.addAll_finish_iff]
    exact ⟨rfl, hr, hn⟩

/-- Whatever lexer drives it, a parser builds a tree exactly when the input is delivered
to its end, the tokens spell a document, and that nests within the limit. The tree is the
one read off the tokens; its names and scalars are their scalar tokens, in order, with
texts, kinds and places. -/
theorem parse_withMaxDepth_iff (p : Parser V R) (maxDepth : Nat) (input : Input) :
    ((∃ tree, ((p.withMaxDepth maxDepth).parse input).1 = .ok tree) ↔
      ∃ ts l rest, Delivers Lexer.next p.lexer.reset input ts (.ok ()) l rest ∧
        IsDocument (roles ts) ∧ NestsWithin (min maxDepth Options.deepest) (roles ts)) ∧
    ∀ tree, ((p.withMaxDepth maxDepth).parse input).1 = .ok tree ↔
      ∃ ts l rest, Delivers Lexer.next p.lexer.reset input ts (.ok ()) l rest ∧
        NestsWithin (min maxDepth Options.deepest) (roles ts) ∧
        Reads .tokens (.value tree) (significant ts) [] ∧
        List.Forall₂ Tree.Leaf.Of tree.leaves (scalarTokens (significant ts)) := by
  have hok := parse_eq_ok_iff (p.withMaxDepth maxDepth) input
  constructor
  · constructor
    · rintro ⟨tree, ht⟩
      obtain ⟨ts, l, rest, hd, hr, hn⟩ := (hok tree).1 ht
      exact ⟨ts, l, rest, hd, (isDocument_iff_exists_reads _).2 ⟨tree, hr⟩, hn⟩
    · rintro ⟨ts, l, rest, hd, hw, hn⟩
      obtain ⟨tree, hr⟩ := (isDocument_iff_exists_reads _).1 hw
      exact ⟨tree, (hok tree).2 ⟨ts, l, rest, hd, hr, hn⟩⟩
  · intro tree
    constructor
    · intro ht
      obtain ⟨ts, l, rest, hd, hr, hn⟩ := (hok tree).1 ht
      have hl := hr.leaves [] .nil
      rw [List.append_nil] at hl
      exact ⟨ts, l, rest, hd, hn, hr, hl⟩
    · rintro ⟨ts, l, rest, hd, hn, hr, _⟩
      exact (hok tree).2 ⟨ts, l, rest, hd, hr, hn⟩

end Parser

end LaxJson
