import LaxJson.Proofs.Rendering.Language
import LaxJson.Proofs.Scan.Reach

/-!
# Tokens and their spelling

Whatever state calls have led a scanner of documents to, a token that it brings and that is not
trivia is a bare word or a lexeme of its role. No bare word has a part in a document, so that
only lexemes come into a tree, with any checker and from any input (`Parser.wellFormed_of_parse`).
Conversely, the lexeme of a scalar is a document by itself.
-/
namespace LaxJson
open Grammar Lexicon

namespace Scanner
variable {s s' : Scanner} {options : Options} {input rest : Input} {ts : List Token}

theorem Reached.of_brings {lexicon : Lexicon} (h : s.Reached lexicon options)
    (hb : Brings Scanner.next s input ts s' rest) : s'.Reached lexicon options := by
  induction hb with
  | nil => exact h
  | @cons s input t s₁ rest₁ ts s' rest hn _ ih =>
    have hnext := h.next input
    rw [hn] at hnext
    exact ih hnext

/-- What is brought is a bare word or a lexeme, unless it is trivia. -/
theorem Reached.word_or_spells (h : s.Reached Lexicon.document options)
    (hb : Brings Scanner.next s input ts s' rest) {t : Token} (ht : t ∈ significant ts) :
    t.role = .word ∨ t.role.Spells t.text := by
  obtain ⟨hmem, hsignificant⟩ := List.mem_filter.1 ht
  obtain ⟨us, s₁, rest₁, s₂, rest₂, hus, hn⟩ := hb.exists_next hmem
  have h₁ := h.of_brings hus
  obtain ⟨done, hstands⟩ := h₁.exists_stands
  obtain ⟨left, owner, hm, hc, hcategory, howner⟩ := hstands.exists_munches_of_next hn
  rw [← munches_map_fresh, h₁.keeps.1, munches_map_fresh] at hm
  rcases hm.document_cases hc with ⟨-, hspells⟩ | ⟨htrivia, -⟩
  · rw [howner]
    exact hspells
  · rw [Token.isTrivia, hcategory, htrivia] at hsignificant
    cases hsignificant

end Scanner

theorem Token.exists_lexemes {ts : List Token} (h : ∀ t ∈ ts, t.role.Spells t.text) :
    ∃ ls, List.Forall₂ Token.Has ts ls := by
  induction ts with
  | nil => exact ⟨[], .nil⟩
  | cons t ts ih =>
    rw [List.forall_mem_cons] at h
    obtain ⟨hspelled, hts⟩ := h
    obtain ⟨ls, hls⟩ := ih hts
    exact ⟨⟨t.role, t.text, hspelled⟩ :: ls, .cons ⟨rfl, rfl⟩ hls⟩

namespace Parser

/-- The names and scalars of every tree are lexemes of their kinds, whatever has checked the
tokens, and whatever the parser has been used for before. -/
theorem wellFormed_of_parse {V : Type} [Checker V] {options : Options} {p : Parser V}
    (hp : p.lexer.scanner.Reached Lexicon.document options) {input : Input} {tree : Tree}
    (h : (p.parse input).1 = .ok tree) : tree.WellFormed := by
  obtain ⟨ts, l, rest, hd, hread, -⟩ := (parse_eq_ok_iff p input tree).1 h
  obtain ⟨l₁, rest₁, hb, -⟩ := hd.exists_brings
  have hdoc : IsDocument (roles ts) := (isDocument_iff_exists_reads _).2 ⟨tree, hread⟩
  have hspelled : ∀ t ∈ significant ts, t.role.Spells t.text := by
    intro t ht
    rcases hp.reset.word_or_spells (Lexer.brings_scanner hb) ht with hword | hspells
    · exact absurd (hword ▸ List.mem_map_of_mem ht) hdoc.word_notMem
    · exact hspells
  obtain ⟨ls, hls⟩ := Token.exists_lexemes hspelled
  exact (hread.lexemes_of_tokens hls).spelled

/-- The lexeme of a scalar is read as this scalar. -/
theorem exists_parse_scalar {options : Options} {kind : ScalarKind} {raw : List Char}
    (hs : kind.Spells raw) (hlimit : ∀ limit ∈ options.maxChars, raw.length ≤ limit) :
    ∃ leaf, ((ofOptions options).parse (.ofChars raw)).1 = .ok (.scalar leaf) ∧
      leaf.kind = kind ∧ leaf.raw = raw := by
  have hwritten : (Tree.scalar { raw, kind }).IsWrittenAs options.skipWhiteSpace raw :=
    ⟨[⟨.scalar kind, raw, hs⟩], .scalar ⟨rfl, rfl⟩, by
      simpa using Noisy.lexeme ⟨.scalar kind, raw, hs⟩ .finish⟩
  obtain ⟨parsed, hp, he⟩ := exists_parse_of_isWrittenAs hlimit (Nat.zero_le _) hwritten
  cases parsed with
  | scalar leaf =>
    simp only [Tree.unplaced, Scalar.unplaced, Tree.scalar.injEq, Scalar.mk.injEq] at he
    exact ⟨leaf, hp, he.2.1, he.1⟩
  | object fields => simp [Tree.unplaced] at he
  | array elements => simp [Tree.unplaced] at he

end Parser

end LaxJson
