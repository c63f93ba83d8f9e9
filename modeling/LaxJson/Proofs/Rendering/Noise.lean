import LaxJson.Proofs.Delivery
import LaxJson.Proofs.Scan.Document
import LaxJson.Proofs.Scan.Facing
import Mathlib.Data.List.Chain

/-!
# Lexemes among noise

`Noisy skip ls text` says that `text` is the lexemes `ls` with blanks and comments before,
between and after them; blanks only where they are passed over. A scanner of documents
delivers just these lexemes from such a text, provided that no two scalars stand together
(`delivers_of_noisy`), and what it delivers without a fault is such a text (`noisy_of_delivers`).
-/
namespace LaxJson
open Grammar Lexicon

/-- The lexemes in order, with arbitrary noise around them. A line comment at the end of the
text needs no newline. -/
inductive Noisy (skip : Bool) : List Lexeme → List Char → Prop
  | finish : Noisy skip [] []
  | line {text} (h : IsLineComment text) : Noisy skip [] text
  | blank {c ls text} (hs : skip = true) (hc : Text.WhiteSpace.isBlank c = true)
      (h : Noisy skip ls text) : Noisy skip ls (c :: text)
  | comment {noise ls text} (hc : IsComment noise) (h : Noisy skip ls text) :
      Noisy skip ls (noise ++ text)
  | lexeme (a : Lexeme) {ls text} (h : Noisy skip ls text) : Noisy skip (a :: ls) (a.text ++ text)

/-- No two scalars stand together. -/
def Separated (ls : List Lexeme) : Prop :=
  ls.IsChain fun a b => a.role.isScalar = true → b.role.isScalar = false

/-- A scalar may stand before them. -/
def FollowsScalar (ls : List Lexeme) : Prop :=
  (∀ a ∈ ls.head?, a.role.isScalar = false) ∧ Separated ls

theorem separated_cons_of_isScalar {a : Lexeme} {ls : List Lexeme}
    (ha : a.role.isScalar = true) : Separated (a :: ls) ↔ FollowsScalar ls := by
  simp only [Separated, FollowsScalar, List.isChain_cons, ha, true_implies]

theorem separated_cons_of_not_isScalar {a : Lexeme} {ls : List Lexeme}
    (ha : a.role.isScalar = false) : Separated (a :: ls) ↔ Separated ls := by
  simp only [Separated, List.isChain_cons, ha, Bool.false_eq_true, false_implies, implies_true,
    true_and]

/-- What a token keeps of a lexeme. -/
def Token.Has (t : Token) (a : Lexeme) : Prop := t.role = a.role ∧ t.text = a.text

/-- The text begins with a character that no number and no word goes on with. -/
def BeginsDelimited (text : List Char) : Prop := ∃ c more, text = c :: more ∧ Delimits c

theorem BeginsDelimited.of_head {c : Char} (h : Delimits c) (more : List Char) :
    BeginsDelimited (c :: more) :=
  ⟨c, more, rfl, h⟩

theorem BeginsDelimited.append {text : List Char} (h : BeginsDelimited text) (rest : List Char) :
    BeginsDelimited (text ++ rest) := by
  obtain ⟨c, more, rfl, hc⟩ := h
  exact .of_head hc (more ++ rest)

theorem BeginsDelimited.head? {text : List Char} (h : BeginsDelimited text) :
    ∀ c ∈ text.head?, Delimits c := by
  obtain ⟨c, more, rfl, hc⟩ := h
  intro d hd
  rw [← Option.mem_some_iff.1 hd]
  exact hc

theorem Lexeme.beginsDelimited (a : Lexeme) (ha : a.role.isScalar = false) :
    BeginsDelimited a.text := by
  obtain ⟨role, text, hs⟩ := a
  cases role with
  | opening c | closing c => cases c <;> cases hs <;> exact .of_head (by decide) []
  | separator | assignment =>
    cases hs
    exact .of_head (by decide) []
  | scalar kind => cases ha
  | word | comment | whiteSpace | custom => exact absurd hs (by simp [Role.Spells])

theorem IsLineComment.beginsDelimited {text : List Char} (h : IsLineComment text) :
    BeginsDelimited text := by
  obtain ⟨line, _, rfl | rfl⟩ := h
  · exact .of_head (by decide) line
  · exact .of_head (by decide) ('/' :: line)

theorem IsComment.beginsDelimited {text : List Char} (h : IsComment text) :
    BeginsDelimited text := by
  rcases h with ⟨body, rfl, _⟩ | ⟨line, hl, rfl⟩
  · exact .of_head (by decide) ('*' :: (body ++ ['*', '/']))
  · exact hl.beginsDelimited.append ['\n']

/-- Noise and symbols end a number or a word. -/
theorem Noisy.delimits {skip : Bool} {ls : List Lexeme} {text : List Char}
    (h : Noisy skip ls text) (hl : ∀ a ∈ ls.head?, a.role.isScalar = false) :
    ∀ c ∈ text.head?, Delimits c := by
  cases h with
  | finish => simp
  | line h => exact h.beginsDelimited.head?
  | blank _ hc _ => exact (BeginsDelimited.of_head (isBlank_spec hc).2 _).head?
  | comment hc _ => exact (hc.beginsDelimited.append _).head?
  | lexeme a _ => exact ((a.beginsDelimited (hl a rfl)).append _).head?

namespace Scanner

theorem not_skips_of_begin {s : Scanner} {c : Char} (hb : begin document c ≠ []) :
    s.skips c = false := by
  by_contra hs
  have hblank : Text.WhiteSpace.isBlank c = true := by
    simp only [skips, Bool.not_eq_false, Bool.and_eq_true] at hs
    exact hs.2
  exact hb (isBlank_spec hblank).1

/-- A scanner of documents has dealt with `done`, and nothing keeps it from reading `text`. -/
structure Awaits (s : Scanner) (skip : Bool) (input : Input) (done text : List Char) : Prop where
  fresh_eq : s.lexicon.map Recognizer.fresh = document
  skip_eq : s.skipWhiteSpace = skip
  faces : s.Faces input done text
  admits : Admits s.maxChars (done ++ text).length

namespace Awaits
variable {s : Scanner} {skip : Bool} {input : Input} {done text rest : List Char}

theorem next_nil (h : s.Awaits skip input done []) :
    ∃ s' rest', s.next input = (.ok none, s', rest') :=
  next_of_nil h.faces (by simpa using h.admits)

theorem next_blank {c : Char} (h : s.Awaits skip input done (c :: rest)) (hs : skip = true)
    (hc : Text.WhiteSpace.isBlank c = true) :
    ∃ (s' : Scanner) (input' : Input), s.next input = s'.next input' ∧
      s'.Awaits skip input' (done ++ [c]) rest := by
  have hskips : s.skips c = true := by simp [skips, h.skip_eq, hs, hc]
  obtain ⟨k, hnext, hfaces⟩ := next_of_skips h.faces hskips h.admits
  refine ⟨_, _, hnext, h.fresh_eq, h.skip_eq, hfaces, ?_⟩
  show Admits s.maxChars _
  simpa using h.admits

theorem next_no_match {c : Char} (h : s.Awaits skip input done (c :: rest))
    (hc : s.skips c = false) (hb : begin document c = []) :
    ∃ f s' rest', s.next input = (.error f, s', rest') := by
  have hb' : begin s.lexicon c = [] := by rw [← begin_map_fresh, h.fresh_eq, hb]
  obtain ⟨s', rest', hnext⟩ := next_of_begin_eq_nil h.faces hc hb' h.admits
  exact ⟨_, s', rest', hnext⟩

/-- What is munched comes next, and has to be whole. -/
theorem next_munched {owner : Recognizer} (h : s.Awaits skip input done (text ++ rest))
    (hm : Munches document text rest owner) :
    ∃ s' input', s.next input = ((owner.token done text).map some, s', input') ∧
      s'.Awaits skip input' (done ++ text) rest := by
  have hskips : ∀ c ∈ text.head?, s.skips c = false := by
    intro c hc
    apply not_skips_of_begin
    obtain ⟨more, rfl⟩ := List.head?_eq_some_iff.1 hc
    obtain ⟨rivals, hr⟩ := hm.exists_rivals
    rw [← survivors_singleton]
    exact survivors_ne_nil_of_append (by simp) more (by simp [hr])
  have hm' : Munches s.lexicon text rest owner := by rwa [← munches_map_fresh, h.fresh_eq]
  obtain ⟨lexicon, k, lookahead, input', hnext, hfresh, hfaces⟩ :=
    next_of_munches h.faces hskips hm' h.admits
  refine ⟨_, _, hnext, hfresh.trans h.fresh_eq, h.skip_eq, hfaces, ?_⟩
  show Admits s.maxChars _
  simpa using h.admits

/-- The token that comes next where something whole is munched. -/
theorem next_token {owner : Recognizer} (h : s.Awaits skip input done (text ++ rest))
    (hm : Munches document text rest owner) (hc : owner.isComplete = true) :
    ∃ t s' input', s.next input = (.ok (some t), s', input') ∧ t.category = owner.category ∧
      t.role = owner.role ∧ t.text = text ∧ s'.Awaits skip input' (done ++ text) rest := by
  obtain ⟨s', input', hnext, hs'⟩ := h.next_munched hm
  rw [Recognizer.token, if_pos hc] at hnext
  exact ⟨_, s', input', hnext, rfl, rfl, rfl, hs'⟩

end Awaits

end Scanner

theorem significant_cons_of_isTrivia {t : Token} (h : t.category.isTrivia = true)
    (ts : List Token) : significant (t :: ts) = significant ts := by
  simp [significant, Token.isTrivia, h]

theorem significant_cons_of_not_isTrivia {t : Token} (h : t.category.isTrivia = false)
    (ts : List Token) : significant (t :: ts) = t :: significant ts := by
  simp [significant, Token.isTrivia, h]

/-- From lexemes among noise a scanner delivers those lexemes. -/
theorem delivers_of_noisy {skip : Bool} {ls : List Lexeme} {text : List Char}
    (h : Noisy skip ls text) (hsep : Separated ls) {s : Scanner} {input : Input}
    {done : List Char} (hs : s.Awaits skip input done text) :
    ∃ ts s' rest, Delivers Scanner.next s input ts (.ok ()) s' rest ∧
      List.Forall₂ Token.Has (significant ts) ls := by
  induction h generalizing s input done with
  | finish =>
    obtain ⟨s', rest, hnext⟩ := hs.next_nil
    exact ⟨[], s', rest, .finish hnext, .nil⟩
  | @line text hline =>
    obtain ⟨owner, hm, hc, hcat⟩ := munches_lineComment hline
    rw [← List.append_nil text] at hs
    obtain ⟨t, s₁, input₁, hnext, htcat, _, _, hs₁⟩ := hs.next_token hm hc
    obtain ⟨s', rest, hend⟩ := hs₁.next_nil
    have htrivia : t.category.isTrivia = true := by rw [htcat, hcat]; rfl
    refine ⟨[t], s', rest, .token hnext (.finish hend), ?_⟩
    rw [significant_cons_of_isTrivia htrivia]
    exact .nil
  | blank hskip hblank _ ih =>
    obtain ⟨s₁, input₁, hnext, hs₁⟩ := hs.next_blank hskip hblank
    obtain ⟨ts, s', rest, hd, hts⟩ := ih hsep hs₁
    exact ⟨ts, s', rest, hd.of_next_eq hnext, hts⟩
  | comment hcomment _ ih =>
    obtain ⟨owner, hm, hc, hcat⟩ := munches_comment hcomment
    obtain ⟨t, s₁, input₁, hnext, htcat, _, _, hs₁⟩ := hs.next_token hm hc
    obtain ⟨ts, s', rest, hd, hts⟩ := ih hsep hs₁
    have htrivia : t.category.isTrivia = true := by rw [htcat, hcat]; rfl
    refine ⟨t :: ts, s', rest, .token hnext hd, ?_⟩
    rwa [significant_cons_of_isTrivia htrivia]
  | @lexeme a ls text hn ih =>
    have hdel : a.role.isScalar = true → ∀ c ∈ text.head?, Delimits c := by
      intro ha
      exact hn.delimits ((separated_cons_of_isScalar ha).1 hsep).1
    have htail : Separated ls := List.IsChain.of_cons hsep
    obtain ⟨owner, hm, hc, hrole, hcat⟩ := munches_lexeme a hdel
    obtain ⟨t, s₁, input₁, hnext, htcat, htrole, httext, hs₁⟩ := hs.next_token hm hc
    obtain ⟨ts, s', rest, hd, hts⟩ := ih htail hs₁
    refine ⟨t :: ts, s', rest, .token hnext hd, ?_⟩
    rw [significant_cons_of_not_isTrivia (by rw [htcat, hcat])]
    exact .cons ⟨htrole.trans hrole, httext⟩ hts

/-- A token that is whole adds to the text a lexeme or, if it is trivia, noise. A line comment
without its newline must be the last of the text. -/
theorem Noisy.exists_of_munches {skip : Bool} {text rest : List Char} {owner : Recognizer}
    (hm : Munches document text rest owner) (hc : owner.isComplete = true) {t : Token}
    (hcat : t.category = owner.category) (hrole : t.role = owner.role) (htext : t.text = text)
    {us : List Token} (hw : ∀ u ∈ significant (t :: us), u.role ≠ .word)
    (hend : rest = [] → us = [])
    (htail : (∀ u ∈ significant us, u.role ≠ .word) →
      ∃ ls, List.Forall₂ Token.Has (significant us) ls ∧ Noisy skip ls rest) :
    ∃ ls, List.Forall₂ Token.Has (significant (t :: us)) ls ∧ Noisy skip ls (text ++ rest) := by
  rcases hm.document_cases hc with ⟨htrivia, hspell⟩ | ⟨htrivia, hcomment⟩
  · rw [← hcat] at htrivia
    rw [significant_cons_of_not_isTrivia htrivia] at hw ⊢
    obtain ⟨hwt, hwus⟩ := List.forall_mem_cons.1 hw
    obtain ⟨ls, hls, hnoisy⟩ := htail hwus
    rw [← hrole, ← htext] at hspell
    have hspelled : t.role.Spells t.text := hspell.resolve_left hwt
    refine ⟨⟨t.role, t.text, hspelled⟩ :: ls, .cons ⟨rfl, rfl⟩ hls, ?_⟩
    rw [← htext]
    exact .lexeme ⟨t.role, t.text, hspelled⟩ hnoisy
  · rw [← hcat] at htrivia
    rw [significant_cons_of_isTrivia htrivia] at hw ⊢
    rcases hcomment with hcomment | ⟨hline, hrest⟩
    · obtain ⟨ls, hls, hnoisy⟩ := htail hw
      exact ⟨ls, hls, .comment hcomment hnoisy⟩
    · subst hrest
      rw [hend rfl]
      exact ⟨[], .nil, by simpa using .line hline⟩

/-- What a scanner delivers without a fault and without bare words is lexemes among noise. -/
theorem noisy_of_delivers {s s' : Scanner} {skip : Bool} {input rest : Input}
    {done text : List Char} {ts : List Token}
    (hd : Delivers Scanner.next s input ts (.ok ()) s' rest)
    (hw : ∀ t ∈ significant ts, t.role ≠ .word) (hs : s.Awaits skip input done text) :
    ∃ ls, List.Forall₂ Token.Has (significant ts) ls ∧ Noisy skip ls text := by
  induction hn : text.length using Nat.strongRecOn generalizing text s input done ts with
  | ind n ih =>
    cases text with
    | nil =>
      obtain ⟨_, _, hnext⟩ := hs.next_nil
      rw [hd.eq_nil_of_next hnext]
      exact ⟨[], .nil, .finish⟩
    | cons c text =>
      rw [List.length_cons] at hn
      by_cases hskips : s.skips c = true
      · obtain ⟨hskip, hblank⟩ := Bool.and_eq_true_iff.1 hskips
        rw [hs.skip_eq] at hskip
        obtain ⟨s₁, input₁, hnext, hs₁⟩ := hs.next_blank hskip hblank
        have hd₁ := hd.of_next_eq hnext.symm
        obtain ⟨ls, hls, hnoisy⟩ := ih text.length (by omega) hd₁ hw hs₁ rfl
        exact ⟨ls, hls, .blank hskip hblank hnoisy⟩
      · by_cases hb : begin document c = []
        · obtain ⟨f, _, _, hnext⟩ := hs.next_no_match (by simpa using hskips) hb
          exact absurd hnext hd.next_ne_error
        · obtain ⟨lexeme, more, owner, he, hm⟩ := exists_munches hb text
          have hpos : 0 < lexeme.length := List.length_pos_of_ne_nil hm.ne_nil
          have hlen : lexeme.length + more.length = text.length + 1 := by
            rw [← List.length_append, ← he, List.length_cons]
          rw [he] at hs ⊢
          by_cases hc : owner.isComplete = true
          · obtain ⟨t, s₁, input₁, hnext, hcat, hrole, htext, hs₁⟩ := hs.next_token hm hc
            obtain ⟨us, rfl, hd₁⟩ := hd.exists_eq_cons hnext
            refine Noisy.exists_of_munches hm hc hcat hrole htext hw ?_ ?_
            · intro hmore
              subst hmore
              obtain ⟨_, _, hend⟩ := hs₁.next_nil
              exact hd₁.eq_nil_of_next hend
            · intro hwus
              exact ih more.length (by omega) hd₁ hwus hs₁ rfl
          · obtain ⟨_, _, hnext, _⟩ := hs.next_munched hm
            rw [Recognizer.token, if_neg hc] at hnext
            exact absurd hnext hd.next_ne_error

end LaxJson
