import LaxJson.Proofs.Checking
import LaxJson.TokenStream

/-!
# A stream and a tree of the same input

A stream yields what its lexer delivers, and then one fault at the most. With the usual parser
of documents all that is yielded fits into an assembly, so that a stream and a parse of the same
input come to the same: the tree of the tokens, or the fault behind them.
-/
namespace LaxJson
open Grammar

namespace TokenStream
variable {V R : Type} [Checker V] [Descriptor R]

/-- What calls of `next` bring, one after another, up to the first that brings nothing. -/
inductive Yields : TokenStream V R → List (Except ParseFault Token) → TokenStream V R → Prop
  | nothing {s s'} (h : s.next = (none, s')) : Yields s [] s'
  | item {s x s₁ xs s'} (h : s.next = (some x, s₁)) (hy : Yields s₁ xs s') : Yields s (x :: xs) s'

theorem Yields.unique {s s₁ s₂ : TokenStream V R} {xs ys : List (Except ParseFault Token)}
    (h₁ : s.Yields xs s₁) (h₂ : s.Yields ys s₂) : xs = ys ∧ s₁ = s₂ := by
  induction h₁ generalizing ys with
  | nothing h =>
    cases h₂ with
    | nothing h' =>
      rw [h] at h'
      cases h'
      exact ⟨rfl, rfl⟩
    | item h' =>
      rw [h] at h'
      cases h'
  | item h _ ih =>
    cases h₂ with
    | nothing h' =>
      rw [h] at h'
      cases h'
    | item h' hy' =>
      rw [h] at h'
      cases h'
      obtain ⟨rfl, rfl⟩ := ih hy'
      exact ⟨rfl, rfl⟩

/-- The fault behind the tokens, where the lexer has stopped as `e` tells. -/
def ending (l : Lexer V R) : Except TokenFault Unit → Option ParseFault
  | .error f => some (.ofToken f)
  | .ok () => l.unclosed?.map fun (container, opened) => .unclosed container opened l.position

/-- A stream yields what its lexer delivers, and the fault behind it. -/
theorem yields_of_delivers {l l' : Lexer V R} {input rest : Input} {ts : List Token}
    {e : Except TokenFault Unit} (h : Delivers Lexer.nextSignificant l input ts e l' rest)
    {s : TokenStream V R} (hl : s.parser.lexer = l) (hi : s.input = input)
    (hs : s.finished = false) :
    s.Yields (ts.map .ok ++ (ending l' e).toList.map .error) (s.moveTo l' rest true) := by
  induction h generalizing s with
  | @finish l input l' rest h =>
    subst hl hi
    cases hu : l'.unclosed? with
    | none =>
      have hnext : s.next = (none, s.moveTo l' rest true) := by simp [next, hs, h, hu]
      simpa [ending, hu] using Yields.nothing hnext
    | some place =>
      obtain ⟨container, opened⟩ := place
      have hnext : s.next = (some (.error (.unclosed container opened l'.position)),
          s.moveTo l' rest true) := by simp [next, hs, h, hu]
      simpa [ending, hu] using Yields.item hnext (.nothing (next_of_finished rfl))
  | @fault l input f l' rest h =>
    subst hl hi
    have hnext : s.next = (some (.error (.ofToken f)), s.moveTo l' rest true) := by
      simp [next, hs, h]
    simpa [ending] using Yields.item hnext (.nothing (next_of_finished rfl))
  | @token l input t l₁ rest₁ ts e l' rest h _ ih =>
    subst hl hi
    have hnext : s.next = (some (.ok t), s.moveTo l₁ rest₁ false) := by simp [next, hs, h]
    exact .item hnext (ih (s := s.moveTo l₁ rest₁ false) rfl rfl rfl)

/-- The stream of a parser yields what the lexer delivers, and nothing else. -/
theorem exists_yields_iff {p : Parser V R} {l : Lexer V R} {input rest : Input} {ts : List Token}
    {e : Except TokenFault Unit} (h : Delivers Lexer.next p.lexer.reset input ts e l rest)
    (items : List (Except ParseFault Token)) :
    (∃ s, (p.tokens input).Yields items s) ↔
      items = (significant ts).map .ok ++ (ending l e).toList.map .error := by
  have hyields : (p.tokens input).Yields
      ((significant ts).map .ok ++ (ending l e).toList.map .error)
      ((p.tokens input).moveTo l rest true) :=
    yields_of_delivers (Lexer.delivers_significant h) rfl rfl rfl
  constructor
  · intro ⟨s, hs⟩
    exact (hs.unique hyields).1
  · rintro rfl
    exact ⟨_, hyields⟩

end TokenStream

namespace Assembly

/-- The input must not end while a container is open, and the innermost is blamed for it. -/
theorem finish_of_head?_opened {a : Assembly} {container : Container} {opened : Position}
    (h : a.opened.head? = some (container, opened)) (p : Position) :
    a.finish p = .error (.unclosed container opened p) := by
  cases a <;> cases h <;> rfl

/-- Only a token that has been fitted in can be misplaced. -/
theorem outcome_ok_ne_unexpected (p : Position) (a : Assembly) (e : Except TokenFault Unit)
    (role : Role) (text : List Char) (span : Span) :
    outcome p (.ok a) e ≠ .error (.unexpected role text span) := by
  rcases e with (f | r) | _
  · exact nofun
  · exact nofun
  · cases a <;> exact nofun

/-- The fault that a stream ends with is what keeps the assembly from its tree. -/
theorem outcome_of_ending {V R : Type} [Checker V] [Descriptor R] {l : Lexer V R} {a : Assembly}
    {e : Except TokenFault Unit} (hu : e = .ok () → l.unclosed? = a.opened.head?) :
    (∀ f, TokenStream.ending l e = some f → outcome l.position (.ok a) e = .error f) ∧
      (TokenStream.ending l e = none → e = .ok () ∧ a.opened = []) := by
  cases e with
  | error f =>
    refine ⟨fun g hg => ?_, nofun⟩
    cases hg
    rfl
  | ok u =>
    rw [TokenStream.ending, hu rfl]
    cases ho : a.opened.head? with
    | none => exact ⟨nofun, fun _ => ⟨rfl, List.head?_eq_none_iff.1 ho⟩⟩
    | some place =>
      refine ⟨fun f hf => ?_, nofun⟩
      cases hf
      exact finish_of_head?_opened ho l.position

end Assembly

namespace Parser

/-- Where all tokens fit in, the lexer is left where it has delivered them. -/
theorem assemble_of_addAll {V R : Type} [Checker V] [Descriptor R] {maxDepth : Nat}
    {l l' : Lexer V R} {input rest : Input} {ts : List Token} {e : Except TokenFault Unit}
    (h : Delivers Lexer.nextSignificant l input ts e l' rest) {a b : Assembly}
    (hb : a.addAll maxDepth ts = .ok b) :
    assemble maxDepth a l input = (Assembly.outcome l'.position (.ok b) e, l', rest) := by
  induction h generalizing a with
  | finish h | fault h =>
    cases hb
    rw [assemble_eq, h]
    rfl
  | token h _ ih =>
    rw [Assembly.addAll] at hb
    rw [assemble_eq, h]
    dsimp only
    split at hb
    · cases hb
    · rename_i c hc
      simpa only [hc] using ih hb

/-- The checker begins anew, with the parser's own limit. -/
theorem checker_reset_ofOptions (options : Options) :
    (ofOptions options).lexer.reset.checker =
      some (Checker.reset { maxDepth := (ofOptions options).maxDepth }) := rfl

section
variable {options : Options} {input rest : Input} {l : Lexer DocumentChecker} {ts : List Token}
  {e : Except TokenFault Unit}

/-- All that the usual parser is delivered fits together, so that only the end or the fault behind
it decides; at the end the checker knows what is open. -/
theorem exists_parse_ofOptions_eq
    (h : Delivers Lexer.next (ofOptions options).lexer.reset input ts e l rest) :
    ∃ a, Assembly.document.addAll (ofOptions options).maxDepth (significant ts) = .ok a ∧
      (ofOptions options).parse input =
        (Assembly.outcome l.position (.ok a) e, { ofOptions options with lexer := l }, rest) ∧
      (e = .ok () → l.unclosed? = a.opened.head?) := by
  obtain ⟨a, ha, hu⟩ := Lexer.exists_addAll_of_delivers h (checker_reset_ofOptions options)
  exact ⟨a, ha, by rw [parse, assemble_of_addAll (Lexer.delivers_significant h) ha], hu⟩

/-- The usual parser never finds a token out of place. -/
theorem parse_ofOptions_ne_unexpected (role : Role) (text : List Char) (span : Span) :
    ((ofOptions options).parse input).1 ≠ .error (.unexpected role text span) := by
  obtain ⟨ts, e, l, rest, hd⟩ := Lexer.exists_delivers (ofOptions options).lexer.reset input
  obtain ⟨a, -, hparse, -⟩ := exists_parse_ofOptions_eq hd
  rw [hparse]
  exact Assembly.outcome_ok_ne_unexpected l.position a e role text span

end

/-- A stream of tokens from the usual parser and a parse of the same input come to the same. The
stream yields tokens, one fault behind them at the most, and nothing any more. The parse leaves
the parser where the stream leaves it, and finds the fault, if there is one; else the tree of
the tokens, or no document where there are none. -/
theorem parse_ofOptions_of_tokens (options : Options) (input : Input) :
    ∃ ts fault s,
      (∀ items s', ((ofOptions options).tokens input).Yields items s' ↔
        items = ts.map .ok ++ fault.toList.map .error ∧ s' = s) ∧
      s.next = (none, s) ∧
      ((ofOptions options).parse input).2 = (s.parser, s.input) ∧
      (∀ f, fault = some f → ((ofOptions options).parse input).1 = .error f) ∧
      (fault = none → ts = [] →
        ((ofOptions options).parse input).1 = .error (.noDocument s.parser.lexer.position)) ∧
      (fault = none → ts ≠ [] →
        ∃ tree, ((ofOptions options).parse input).1 = .ok tree ∧
          Reads .tokens (.value tree) ts []) ∧
      ∀ role text span, ((ofOptions options).parse input).1 ≠ .error (.unexpected role text span) := by
  obtain ⟨ts, e, l, rest, hd⟩ := Lexer.exists_delivers (ofOptions options).lexer.reset input
  obtain ⟨a, ha, hparse, hu⟩ := exists_parse_ofOptions_eq hd
  have hyields : ((ofOptions options).tokens input).Yields
      ((significant ts).map .ok ++ (TokenStream.ending l e).toList.map .error)
      (((ofOptions options).tokens input).moveTo l rest true) :=
    TokenStream.yields_of_delivers (Lexer.delivers_significant hd) rfl rfl rfl
  obtain ⟨hfault, hnone⟩ := Assembly.outcome_of_ending hu
  refine ⟨significant ts, TokenStream.ending l e, _, fun items s' => ⟨fun h => h.unique hyields, ?_⟩,
    TokenStream.next_of_finished rfl, ?_, ?_, ?_, ?_, parse_ofOptions_ne_unexpected⟩
  · rintro ⟨rfl, rfl⟩
    exact hyields
  · rw [hparse]
    rfl
  · rwa [hparse]
  · intro he hts
    obtain ⟨rfl, -⟩ := hnone he
    rw [hts] at ha
    cases ha
    rw [hparse]
    rfl
  · intro he hts
    obtain ⟨rfl, hopened⟩ := hnone he
    rcases (Assembly.opened_eq_nil_iff a).1 hopened with rfl | ⟨tree, rfl⟩
    · exact absurd (Assembly.eq_nil_of_addAll_eq_document ha) hts
    · have hreads := (Assembly.addAll_finish_iff (ofOptions options).maxDepth _ l.position tree).1
        ⟨_, ha, rfl⟩
      exact ⟨tree, by rw [hparse]; rfl, hreads.1⟩

end Parser

end LaxJson
