import LaxJson.Checker.SpotCheck
import LaxJson.Proofs.Delivery
import LaxJson.Proofs.Scan.Reach
import LaxJson.TokenStream

/-!
# A parser has no memory

A parser is used for one input after another, and any of them may come to a bad end: a token
that is not whole, a refusal, a failure to read, too much text, a stream of tokens that nobody
reads on. Each of these leaves its traces in the scanner, its recognizers and the checker, but
every state that use leads to is one that a reset makes anew (`Scanner.Reached.reset_eq`,
`Checker.Restores`), and both `parse` and `tokens` begin with a reset. So a used parser answers
as a new one does (`Parser.parse_of_used`).
-/
namespace LaxJson

namespace Checker
variable {V : Type} [Checker V]

/-- The states that a checker comes to from `v`, whatever tokens it is shown. -/
inductive Reaches (v : V) : V → Prop
  | refl : Reaches v v
  | check {w} (h : Reaches v w) (t : Token) : Reaches v (check w t).2
  | reset {w} (h : Reaches v w) : Reaches v (reset w)

theorem Reaches.of_check_eq {v w w' : V} {t : Token} {verdict : Option Refusal}
    (h : Reaches v w) (he : Checker.check w t = (verdict, w')) : Reaches v w' := by
  have hcheck := h.check t
  rwa [he] at hcheck

/-- Whatever the checker has come to, a reset makes of it what it makes of `v`. -/
def Restores (v : V) : Prop := ∀ w, Reaches v w → reset w = reset v

theorem restores_of_step (hcheck : ∀ (v : V) (t : Token), reset (check v t).2 = reset v)
    (hreset : ∀ v : V, reset (reset v) = reset v) (v : V) : Restores v := by
  intro w h
  induction h with
  | refl => rfl
  | check _ t ih => rw [hcheck, ih]
  | reset _ ih => rw [hreset, ih]

end Checker

theorem DocumentChecker.restores (v : DocumentChecker) : Checker.Restores v := by
  refine Checker.restores_of_step (fun v t => ?_) (fun _ => rfl) v
  simp only [Checker.check]
  split
  · rfl
  · split <;> rfl

theorem SpotCheck.restores (v : SpotCheck) : Checker.Restores v :=
  Checker.restores_of_step (fun _ _ => rfl) (fun _ => rfl) v

namespace Scanner

/-- A reset makes a scanner new, whatever it has been used for. -/
theorem Reached.reset_eq {lexicon : Lexicon} {options : Options} {s : Scanner}
    (h : s.Reached lexicon options) : s.reset = .ofOptions lexicon options := by
  have hset : s.skipWhiteSpace = options.skipWhiteSpace ∧ s.maxChars = options.maxChars := by
    induction h with
    | ofOptions => exact ⟨rfl, rfl⟩
    | @next s _ input ih =>
      obtain ⟨_, _, _, he⟩ := s.exists_next_eq_moveTo input
      rw [he]
      exact ih
    | reset _ ih => exact ih
  have hlexicon : s.lexicon.map Descriptor.init = lexicon.map Descriptor.init := h.keeps.1
  rw [Scanner.ofOptions, Scanner.reset, Scanner.reset, moveTo, moveTo, hlexicon, hset.1, hset.2]

end Scanner

namespace Lexer
variable {V : Type} [Checker V] {lexicon : Lexicon} {options : Options} {checker : Option V}
  {l : Lexer V}

/-- The lexer has come of one with the given parts. -/
structure ComesOf (lexicon : Lexicon) (options : Options) (checker : Option V) (l : Lexer V) :
    Prop where
  scanner : l.scanner.Reached lexicon options
  checker : Option.Rel Checker.Reaches checker l.checker

theorem ComesOf.reset (h : l.ComesOf lexicon options checker) :
    l.reset.ComesOf lexicon options checker := by
  obtain ⟨hs, hc⟩ := h
  refine ⟨hs.reset, ?_⟩
  dsimp only [Lexer.reset]
  generalize l.checker = held at hc ⊢
  cases hc with
  | none => exact .none
  | some hw => exact .some hw.reset

theorem ComesOf.next (h : l.ComesOf lexicon options checker) (input : Input) :
    (l.next input).2.1.ComesOf lexicon options checker := by
  obtain ⟨hs, hc⟩ := h
  have hnext : (l.scanner.next input).2.1.Reached lexicon options := hs.next input
  have hanswers := answers_next l input
  generalize l.next input = answer at hanswers ⊢
  cases hanswers with
  | finish he | fault he =>
    rw [he] at hnext
    exact ⟨hnext, hc⟩
  | unchecked he hv =>
    rw [he] at hnext
    rw [hv] at hc
    exact ⟨hnext, hc⟩
  | accepted he hv hcheck | refused he hv hcheck =>
    rw [he] at hnext
    rw [hv] at hc
    cases hc with
    | some hw => exact ⟨hnext, .some (hw.of_check_eq hcheck)⟩

theorem ComesOf.nextSignificant (h : l.ComesOf lexicon options checker) (input : Input) :
    (l.nextSignificant input).2.1.ComesOf lexicon options checker := by
  fun_induction Lexer.nextSignificant l input with
  | case1 l input t l' rest e _ _ ih =>
    have hnext := h.next input
    rw [e] at hnext
    exact ih hnext
  | case2 l input t l' rest e _ _ =>
    have hnext := h.next input
    rwa [e] at hnext
  | case3 l input _ => exact h.next input

theorem ComesOf.assemble (h : l.ComesOf lexicon options checker) (maxDepth : Nat) (a : Assembly)
    (input : Input) : (Parser.assemble maxDepth a l input).2.1.ComesOf lexicon options checker := by
  fun_induction Parser.assemble maxDepth a l input with
  | case1 a l input f l' rest e | case2 a l input l' rest e | case3 a l input t l' rest e _ f _ =>
    have hnext := h.nextSignificant input
    rwa [e] at hnext
  | case4 a l input t l' rest e _ b hb ih =>
    have hnext := h.nextSignificant input
    rw [e] at hnext
    exact ih hnext

/-- A reset makes a lexer new, if it makes the checker so. -/
theorem ComesOf.reset_eq (h : l.ComesOf lexicon options checker)
    (hc : ∀ v ∈ checker, Checker.Restores v) :
    l.reset = (⟨.ofOptions lexicon options, checker⟩ : Lexer V).reset := by
  obtain ⟨hs, hrel⟩ := h
  have hchecker : l.checker.map Checker.reset = checker.map Checker.reset := by
    generalize l.checker = held at hrel
    cases hrel with
    | none => rfl
    | @some v w hw => exact congrArg some (hc v rfl w hw)
  have hscanner : (Scanner.ofOptions lexicon options).reset = .ofOptions lexicon options :=
    Scanner.Reached.ofOptions.reset_eq
  rw [Lexer.reset, Lexer.reset, hs.reset_eq, hchecker, hscanner]

end Lexer

namespace TokenStream
variable {V : Type} [Checker V] {lexicon : Lexicon} {options : Options} {checker : Option V}

theorem comesOf_next {s : TokenStream V}
    (h : s.parser.lexer.ComesOf lexicon options checker) :
    s.next.2.parser.lexer.ComesOf lexicon options checker ∧
      s.next.2.parser.maxDepth = s.parser.maxDepth := by
  have hnext := h.nextSignificant s.input
  unfold next
  split
  · exact ⟨h, rfl⟩
  · split <;> rename_i e <;> rw [e] at hnext
    · exact ⟨hnext, rfl⟩
    · exact ⟨hnext, rfl⟩
    · split <;> exact ⟨hnext, rfl⟩

end TokenStream

namespace Parser
variable {V : Type} [Checker V]

/-- What a parser may have become by use: any number of inputs have been parsed, or read as a
stream of which some items have been taken. -/
inductive Used {R : Type} [Descriptor R] (p : Parser V R) : Parser V R → Prop
  | unused : Used p p
  | parse {q} (h : Used p q) (input : Input) : Used p (q.parse input).2.1
  | tokens {q} (h : Used p q) (input : Input) (n : Nat) :
      Used p ((fun s => s.next.2)^[n] (q.tokens input)).parser

variable {lexicon : Lexicon} {options : Options} {p q : Parser V}

/-- Use changes nothing of a parser but where its lexer is. -/
theorem Used.comesOf (hp : p.lexer.scanner = .ofOptions lexicon options) (h : p.Used q) :
    q.lexer.ComesOf lexicon options p.lexer.checker ∧ q.maxDepth = p.maxDepth := by
  induction h with
  | unused =>
    refine ⟨⟨hp ▸ .ofOptions, ?_⟩, rfl⟩
    cases p.lexer.checker with
    | none => exact .none
    | some v => exact .some .refl
  | @parse q _ input ih =>
    exact ⟨ih.1.reset.assemble q.maxDepth .document input, ih.2⟩
  | @tokens q _ input n ih =>
    induction n with
    | zero => exact ⟨ih.1.reset, ih.2⟩
    | succ n ihn =>
      rw [Function.iterate_succ_apply']
      obtain ⟨hl, hd⟩ := TokenStream.comesOf_next ihn.1
      exact ⟨hl, hd.trans ihn.2⟩

/-- Whatever a parser has been used for, it parses the next input and streams its tokens as when
it was new: the answers are the same, and so is what becomes of the parser. A checker must be
restored by a reset for this, as the checker of documents is. -/
theorem parse_of_used :
    (∀ v : DocumentChecker, Checker.Restores v) ∧
    ∀ (V : Type) [Checker V] (lexicon : Lexicon) (options : Options) (p q : Parser V),
      p.lexer.scanner = .ofOptions lexicon options → (∀ v ∈ p.lexer.checker, Checker.Restores v) →
        p.Used q → ∀ input, q.parse input = p.parse input ∧ q.tokens input = p.tokens input := by
  refine ⟨DocumentChecker.restores, ?_⟩
  intro V _ lexicon options p q hp hv hq input
  obtain ⟨hl, hd⟩ := hq.comesOf hp
  have hreset : q.lexer.reset = p.lexer.reset := by
    rw [hl.reset_eq hv, ← hp]
  constructor
  · rw [parse, parse, hreset, hd]
  · rw [tokens, tokens, hreset, hd]

/-- The number of tokens that a spot check has seen, one of them a refused one, does not count in
the next input, nor does the string that a stream has stopped before. -/
theorem parse_of_used_spotCheck :
    let p : Parser SpotCheck := ⟨⟨.ofOptions Lexicon.document {}, some ⟨2, "spot", 0⟩⟩, 100⟩
    let q := ((p.parse (.ofString "[1]")).2.1.tokens (.ofString "[\"a")).next.2.parser
    q.parse (.ofString "7") = p.parse (.ofString "7") ∧
      q.tokens (.ofString "7") = p.tokens (.ofString "7") := by
  intro p q
  have hused : p.Used q := (Used.unused.parse (.ofString "[1]")).tokens (.ofString "[\"a") 1
  refine parse_of_used.2 SpotCheck Lexicon.document {} p q rfl ?_ hused (.ofString "7")
  exact fun v _ => SpotCheck.restores v

end Parser

end LaxJson
