import LaxJson.Proofs.Scan.Limit
import LaxJson.Proofs.Scan.Tiling
import LaxJson.Proofs.Spelling

/-!
# Faults point into the text

Every fault that a parser of documents finds in a text says where in the text it is.
`ParseFault.PointsInto` says for each kind of fault what stands there: the character that nothing
begins with, the part of the text that is no token, the token that is refused or out of place,
the first character beyond the limit, or the end. A container that is not closed is also
blamed on its opening bracket. All of it follows from where the scanner is at each call
(`Scanner.Follows`), though it may have read a character more by then.
-/
namespace LaxJson
open Grammar Lexicon

/-- The character that opens a container. -/
def Container.bracket : Container → Char
  | .object => '{'
  | .array => '['

/-- From the first of its places to the last the span covers `part`, and `part` is there. -/
def Span.Covers (span : Span) (part text : List Char) : Prop :=
  part ≠ [] ∧ ∃ before after, text = before ++ part ++ after ∧ span = .of before part

/-- What the fault says is in `text` where it says. -/
def ScanFault.PointsInto (text : List Char) : ScanFault → Prop
  | .noMatch c p => ∃ before after, text = before ++ c :: after ∧ p = .after before
  | .incomplete _ part span => span.Covers part text
  | .tooLong limit p => limit < text.length ∧ p = .after (text.take limit)
  | .unreadable _ _ => False

namespace Scanner
variable {R : Type} [Descriptor R]

/-- The scanner cuts `text` into `ts` from its beginning on, and may go on. -/
def Begins (s : Scanner R) (text : List Char) (ts : List Token) : Prop :=
  ∃ s' rest, Brings next s (.ofChars text) ts s' rest

/-- The scanner cuts the whole of `text` into `ts`. -/
def CutsInto (s : Scanner R) (text : List Char) (ts : List Token) : Prop :=
  ∃ s' rest, Delivers next s (.ofChars text) ts (.ok ()) s' rest

end Scanner

/-- What the fault says is in `text` where it says, where `s` cuts the text into tokens. -/
def ParseFault.PointsInto {R : Type} [Descriptor R] (s : Scanner R) (text : List Char) :
    ParseFault → Prop
  | .scan f => f.PointsInto text
  | .refused r =>
    ∃ ts t, s.Begins text (ts ++ [t]) ∧ r.span = t.span ∧ t.span.Covers t.text text
  | .unclosed container opened p =>
    p = .after text ∧
      (∃ ts, s.CutsInto text ts ∧ (stillOpen (significant ts)).head? = some (container, opened)) ∧
      ∃ before after, text = before ++ container.bracket :: after ∧ opened = .after before
  | .noDocument p => p = .after text
  | .unexpected _ part span => span.Covers part text

theorem Span.Covers.exists_prefix {span : Span} {part text : List Char}
    (h : span.Covers part text) : ∃ before, before <+: text ∧ span.first = .after before := by
  obtain ⟨-, before, after, rfl, rfl⟩ := h
  exact ⟨before, ⟨part ++ after, by simp⟩, rfl⟩

theorem ScanFault.PointsInto.exists_prefix {text : List Char} {f : ScanFault}
    (h : f.PointsInto text) : ∃ before, before <+: text ∧ f.position = .after before := by
  cases f with
  | noMatch c p =>
    obtain ⟨before, after, rfl, rfl⟩ := h
    exact ⟨before, List.prefix_append .., rfl⟩
  | incomplete role part span => exact Span.Covers.exists_prefix h
  | tooLong limit p => exact ⟨text.take limit, List.take_prefix .., h.2⟩
  | unreadable failure p => cases h

theorem ParseFault.PointsInto.exists_prefix {R : Type} [Descriptor R] {s : Scanner R}
    {text : List Char} {f : ParseFault} (h : f.PointsInto s text) :
    ∃ before, before <+: text ∧ f.position = .after before := by
  cases f with
  | scan f => exact ScanFault.PointsInto.exists_prefix h
  | refused r =>
    obtain ⟨ts, t, -, hspan, hcovers⟩ := h
    rw [← hspan] at hcovers
    exact hcovers.exists_prefix
  | unclosed container opened p => exact ⟨text, List.prefix_rfl, h.1⟩
  | noDocument p => exact ⟨text, List.prefix_rfl, h⟩
  | unexpected role part span => exact Span.Covers.exists_prefix h

namespace Scanner
variable {R : Type} [Descriptor R] {s s' : Scanner R} {text before left : List Char}
  {input rest : Input}

/-- The scanner has dealt with `before` and has `left` before it, and it counts what it reads. -/
structure Follows (s : Scanner R) (input : Input) (text before left : List Char) : Prop where
  text_eq : text = before ++ left
  splits : s.Splits input before left
  counts : s.Counts text input

theorem follows_reset (s : Scanner R) (text : List Char) :
    s.reset.Follows (.ofChars text) text [] text :=
  ⟨rfl, splits_reset s text, counts_reset s text⟩

/-- A token is in the text where it says, and the scanner goes on behind it. -/
theorem Follows.next_of_token (h : s.Follows input text before left) {t : Token}
    (hn : s.next input = (.ok (some t), s', rest)) :
    t.span.Covers t.text text ∧ ∃ before' left', s'.Follows rest text before' left' := by
  obtain ⟨gap, left', hleft, -, htext, hspan, -, hs'⟩ := h.splits.exists_of_next hn
  have heq : text = before ++ gap ++ t.text ++ left' := by
    rw [h.text_eq, hleft]
    simp
  refine ⟨⟨htext, before ++ gap, left', heq, hspan⟩, before ++ gap ++ t.text, left', heq, hs', ?_⟩
  rcases h.counts.next with ⟨_, _, _, _, -, -, herror⟩ | ⟨-, hcounts⟩
  · cases hn.symm.trans herror
  · rwa [hn] at hcounts

/-- At its end the scanner is behind the text. -/
theorem Follows.next_of_finish (h : s.Follows input text before left)
    (hn : s.next input = (.ok none, s', rest)) : s'.position = .after text := by
  obtain ⟨gap, hahead, -, hstands⟩ := h.splits.stands.exists_gap_of_next hn
  have hgap : left = gap := Input.ofChars_injective (h.splits.ahead_eq.symm.trans hahead)
  rw [h.text_eq, hgap]
  exact hstands.position_eq

theorem Follows.next_of_fault (h : s.Follows input text before left) {f : ScanFault}
    (hn : s.next input = (.error f, s', rest)) : f.PointsInto text := by
  rcases h.counts.next with ⟨done, c, left, _, htext, -, herror⟩ | ⟨hread, -⟩
  · cases hn.symm.trans herror
    rw [htext]
    exact ⟨by simp, by rw [List.take_left]⟩
  · have hnot : f.isReadFault = false := hread f (by rw [hn])
    have hgives := h.splits.gives_next
    rw [hn] at hgives
    cases hgives with
    | readFault hf =>
      rw [hf] at hnot
      cases hnot
    | @noMatch gap c _ _ hcut =>
      obtain ⟨left', hleft, -⟩ := hcut.exists_splits
      exact ⟨before ++ gap, left', by simp [h.text_eq, hleft], rfl⟩
    | @incomplete gap part _ _ _ hcut =>
      obtain ⟨left', hleft, -⟩ := hcut.exists_splits
      exact ⟨hcut.ne_nil, before ++ gap, left', by simp [h.text_eq, hleft], rfl⟩

theorem Follows.of_brings {ts : List Token} (h : s.Follows input text before left)
    (hb : Brings next s input ts s' rest) : ∃ before' left', s'.Follows rest text before' left' := by
  induction hb generalizing before left with
  | nil => exact ⟨before, left, h⟩
  | cons hn _ ih =>
    obtain ⟨-, before₁, left₁, h₁⟩ := h.next_of_token hn
    exact ih h₁

/-- Each of the tokens is in the text where it says. -/
theorem covers_of_brings {ts : List Token} {t : Token}
    (hb : Brings next s.reset (.ofChars text) ts s' rest) (ht : t ∈ ts) :
    (∃ us, s.reset.Begins text (us ++ [t])) ∧ t.span.Covers t.text text := by
  obtain ⟨us, s₁, rest₁, s₂, rest₂, hus, hn⟩ := hb.exists_next ht
  obtain ⟨before, left, h⟩ := (follows_reset s text).of_brings hus
  exact ⟨⟨us, s₂, rest₂, hus.append_singleton hn⟩, (h.next_of_token hn).1⟩

end Scanner

namespace Assembly

/-- Tokens do not fit together on account of one of them. -/
theorem exists_of_addAll_eq_error {maxDepth : Nat} {a : Assembly} {ts : List Token}
    {f : ParseFault} (h : a.addAll maxDepth ts = .error f) :
    ∃ t ∈ ts, f = .refused ⟨.tooDeep maxDepth, t.span⟩ ∨ f = misplaced t := by
  induction ts generalizing a with
  | nil => cases h
  | cons t ts ih =>
    rw [addAll] at h
    cases hadd : a.add maxDepth t with
    | error g =>
      rw [hadd] at h
      cases h
      exact ⟨t, List.mem_cons_self .., add_eq_error hadd⟩
    | ok b =>
      rw [hadd] at h
      obtain ⟨u, hu, hf⟩ := ih h
      exact ⟨u, List.mem_cons_of_mem t hu, hf⟩

theorem finish_eq_error {a : Assembly} {p : Position} {f : ParseFault}
    (h : a.finish p = .error f) :
    f = .noDocument p ∨
      ∃ container opened, a.opened.head? = some (container, opened) ∧
        f = .unclosed container opened p := by
  cases a with
  | document =>
    cases h
    exact .inl rfl
  | complete => cases h
  | fieldName | assignment | fieldValue | afterField | element | afterElement =>
    cases h
    exact .inr ⟨_, _, rfl, rfl⟩

end Assembly

theorem Grammar.exists_of_mem_foldl_track {ts : List Token} {opened : List (Container × Position)}
    {c : Container} {p : Position} (h : (c, p) ∈ ts.foldl track opened) :
    (c, p) ∈ opened ∨ ∃ t ∈ ts, t.role = .opening c ∧ t.span.first = p := by
  induction ts generalizing opened with
  | nil => exact .inl h
  | cons t ts ih =>
    rcases ih h with htrack | ⟨u, hu, hrole, hspan⟩
    · unfold track at htrack
      split at htrack
      · rename_i container hrole
        rcases List.mem_cons.1 htrack with heq | hmem
        · cases heq
          exact .inr ⟨t, List.mem_cons_self .., hrole, rfl⟩
        · exact .inl hmem
      · exact .inl (List.mem_of_mem_tail htrack)
      · exact .inl htrack
    · exact .inr ⟨u, List.mem_cons_of_mem t hu, hrole, hspan⟩

namespace Parser
variable {V R : Type} [Checker V] [Descriptor R]

/-- How a parser comes to a fault: by the lexer, by a token that does not fit in, or by the end. -/
inductive Fails (p : Parser V R) (input : Input) : ParseFault → Prop
  | lexer {ts l rest g l' rest'} (hb : Brings Lexer.next p.lexer.reset input ts l rest)
      (hn : l.next rest = (.error g, l', rest')) : Fails p input (.ofToken g)
  | tooDeep {ts l rest t} (hb : Brings Lexer.next p.lexer.reset input ts l rest) (ht : t ∈ ts) :
      Fails p input (.refused ⟨.tooDeep p.maxDepth, t.span⟩)
  | misplaced {ts l rest t} (hb : Brings Lexer.next p.lexer.reset input ts l rest) (ht : t ∈ ts) :
      Fails p input (Assembly.misplaced t)
  | finish {ts l rest l' rest' a f} (hb : Brings Lexer.next p.lexer.reset input ts l rest)
      (hn : l.next rest = (.ok none, l', rest'))
      (ha : Assembly.document.addAll p.maxDepth (significant ts) = .ok a)
      (hf : a.finish l'.position = .error f) : Fails p input f

theorem fails_of_parse_eq_error {p : Parser V R} {input : Input} {f : ParseFault}
    (h : (p.parse input).1 = .error f) : p.Fails input f := by
  obtain ⟨ts, e, l', rest', hd⟩ := Lexer.exists_delivers p.lexer.reset input
  rw [parse_of_delivers hd] at h
  obtain ⟨l, rest, hb, hn⟩ := hd.exists_brings
  cases ha : Assembly.document.addAll p.maxDepth (significant ts) with
  | error g =>
    rw [ha, Assembly.outcome_error] at h
    cases h
    obtain ⟨t, ht, hf⟩ := Assembly.exists_of_addAll_eq_error ha
    have hmem : t ∈ ts := (List.mem_filter.1 ht).1
    rcases hf with rfl | rfl
    · exact .tooDeep hb hmem
    · exact .misplaced hb hmem
  | ok a =>
    rw [ha] at h
    cases e with
    | error g =>
      cases h
      exact .lexer hb hn
    | ok => exact .finish hb hn ha h

end Parser

namespace Scanner
variable {s s' : Scanner} {options : Options} {input rest : Input} {ts : List Token}

/-- The token that opens a container is its bracket. -/
theorem Reached.text_eq_of_opening (h : s.Reached Lexicon.document options)
    (hb : Brings Scanner.next s input ts s' rest) {t : Token} (ht : t ∈ significant ts)
    {container : Container} (hrole : t.role = .opening container) :
    t.text = [container.bracket] := by
  rcases h.word_or_spells hb ht with hword | hspells
  · rw [hrole] at hword
    cases hword
  · rw [hrole] at hspells
    cases container <;> exact hspells

end Scanner

/-- A refusal has the place of the token that is refused. -/
theorem DocumentChecker.span_eq_of_check {v w : DocumentChecker} {t : Token} {r : Refusal}
    (h : Checker.check v t = (some r, w)) : r.span = t.span := by
  simp only [Checker.check] at h
  split at h
  · cases h
  · split at h <;> cases h
    rfl

namespace Parser
variable {options : Options} {p : Parser DocumentChecker} {text : List Char} {f : ParseFault}

theorem pointsInto_of_fails (h : p.Fails (.ofChars text) f)
    (hs : p.lexer.reset.scanner.Reached Lexicon.document options) :
    f.PointsInto p.lexer.reset.scanner text := by
  cases h with
  | @lexer ts l rest g l' rest' hb hn =>
    have hscan := Lexer.brings_scanner hb
    obtain ⟨before, left, hfollows⟩ := (Scanner.follows_reset p.lexer.scanner text).of_brings hscan
    have hanswers := l.answers_next rest
    rw [hn] at hanswers
    cases hanswers with
    | fault hnext => exact hfollows.next_of_fault hnext
    | refused hnext hv hc =>
      exact ⟨ts, _, ⟨_, _, hscan.append_singleton hnext⟩, DocumentChecker.span_eq_of_check hc,
        (hfollows.next_of_token hnext).1⟩
  | tooDeep hb ht =>
    obtain ⟨⟨us, hbegins⟩, hcovers⟩ := Scanner.covers_of_brings (Lexer.brings_scanner hb) ht
    exact ⟨us, _, hbegins, rfl, hcovers⟩
  | misplaced hb ht => exact (Scanner.covers_of_brings (Lexer.brings_scanner hb) ht).2
  | @finish ts l rest l' rest' a f hb hn ha hf =>
    have hscan := Lexer.brings_scanner hb
    have hend := Lexer.scanner_next_of_finish hn
    obtain ⟨before, left, hfollows⟩ := (Scanner.follows_reset p.lexer.scanner text).of_brings hscan
    have hposition : l'.position = .after text := hfollows.next_of_finish hend
    rw [hposition] at hf
    rcases Assembly.finish_eq_error hf with rfl | ⟨container, opened, hopened, rfl⟩
    · exact rfl
    · rw [Assembly.opened_addAll ha] at hopened
      refine ⟨rfl, ⟨ts, ⟨_, _, hscan.delivers hend⟩, hopened⟩, ?_⟩
      obtain h₀ | ⟨t, ht, hrole, rfl⟩ := exists_of_mem_foldl_track (List.mem_of_mem_head? hopened)
      · cases h₀
      have hmem : t ∈ ts := (List.mem_filter.1 ht).1
      obtain ⟨-, -, before, after, htext, hspan⟩ := Scanner.covers_of_brings hscan hmem
      rw [hs.text_eq_of_opening hscan ht hrole] at htext
      exact ⟨before, after, by simpa using htext, by rw [hspan]; rfl⟩

/-- Every fault that a parser of documents finds in a text, with its checker or without, has the
place of some character of the text or of its end, and what it says is there. -/
theorem pointsInto_of_parse_eq_error (options : Options) (p : Parser DocumentChecker)
    (hp : p.lexer.scanner = .ofOptions Lexicon.document options) (s : String) (f : ParseFault)
    (hf : (p.parse (.ofString s)).1 = .error f) :
    (∃ before, before <+: s.toList ∧ f.position = .after before) ∧
      f.PointsInto (Scanner.ofOptions Lexicon.document options) s.toList := by
  have hreset : p.lexer.reset.scanner = .ofOptions Lexicon.document options := by
    rw [Lexer.reset, hp]
    rfl
  have hreached : p.lexer.reset.scanner.Reached Lexicon.document options := by
    rw [hreset]
    exact .ofOptions
  have hpoints := pointsInto_of_fails (fails_of_parse_eq_error hf) hreached
  rw [hreset] at hpoints
  exact ⟨hpoints.exists_prefix, hpoints⟩

/-- The object is blamed, and not the array around it. -/
theorem pointsInto_of_parse_eq_error_unclosed :
    ((ofOptions {}).parse (.ofString "[1, \x7b")).1 = .error (.unclosed .object ⟨0, 4⟩ ⟨0, 5⟩) ∧
      (ParseFault.unclosed .object ⟨0, 4⟩ ⟨0, 5⟩).PointsInto
        (Scanner.ofOptions Lexicon.document {}) "[1, \x7b".toList := by
  have hdelivers : ∃ (l : Lexer DocumentChecker) (rest : Input),
      Delivers Lexer.next (ofOptions {}).lexer.reset (.ofString "[1, \x7b")
        [⟨.operator, .opening .array, ['['], ⟨⟨0, 0⟩, ⟨0, 0⟩⟩⟩,
          ⟨.operand, .scalar .integer, ['1'], ⟨⟨0, 1⟩, ⟨0, 1⟩⟩⟩,
          ⟨.operator, .separator, [','], ⟨⟨0, 2⟩, ⟨0, 2⟩⟩⟩,
          ⟨.operator, .opening .object, ['{'], ⟨⟨0, 4⟩, ⟨0, 4⟩⟩⟩] (.ok ()) l rest ∧
        l.position = ⟨0, 5⟩ :=
    ⟨_, _, .token rfl (.token rfl (.token rfl (.token rfl (.finish rfl)))), rfl⟩
  obtain ⟨l, rest, hd, hposition⟩ := hdelivers
  have hfault : ((ofOptions {}).parse (.ofString "[1, \x7b")).1 =
      .error (.unclosed .object ⟨0, 4⟩ ⟨0, 5⟩) := by
    rw [parse_of_delivers hd, hposition]
    rfl
  exact ⟨hfault, (pointsInto_of_parse_eq_error {} (ofOptions {}) rfl "[1, \x7b" _ hfault).2⟩

end Parser

end LaxJson
