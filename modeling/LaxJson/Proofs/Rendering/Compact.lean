import LaxJson.Proofs.Barrier
import LaxJson.Proofs.Rendering.RoundTrip

/-!
# The shortest text of a tree

The compact text of a tree has the lexemes that the tree needs and nothing else, while a text that
the tree is read off may have noise and trailing commas besides. So it is the shortest text of the
tree (`Tree.IsWrittenAs.length_text_le`), and where the one could be read, within whatever limits,
the other can be read in its place.
-/
namespace LaxJson
open Grammar

/-- How many characters the lexemes take. -/
def Lexeme.size : List Lexeme → Nat
  | [] => 0
  | a :: ls => a.text.length + size ls

/-- No lexeme is without characters. -/
theorem Lexeme.length_pos (a : Lexeme) : 0 < a.text.length := by
  have hend : a.role.isScalar = true → ∀ c ∈ ([] : List Char).head?, Lexicon.Delimits c := by simp
  obtain ⟨owner, hm, _⟩ := Lexicon.munches_lexeme a hend
  exact List.length_pos_of_ne_nil hm.ne_nil

/-- Noise only adds to the lexemes. -/
theorem Noisy.size_le {skip : Bool} {ls : List Lexeme} {text : List Char}
    (h : Noisy skip ls text) : Lexeme.size ls ≤ text.length := by
  induction h with
  | finish | line => exact Nat.zero_le _
  | blank _ _ _ ih => exact Nat.le_succ_of_le ih
  | comment _ _ ih =>
    rw [List.length_append]
    exact Nat.le_add_left_of_le ih
  | lexeme a _ ih =>
    rw [Lexeme.size, List.length_append]
    exact Nat.add_le_add_left ih _

namespace Tree

/-- A trailing comma is left out, and no other. -/
theorem length_renderMoreFields_le (depth : Nat) (fields : List (Field Tree)) :
    (renderMoreFields .compact depth fields).length ≤
      (renderFields .compact depth fields).length + 1 := by
  cases fields with
  | nil => exact Nat.zero_le _
  | cons f fields => simp [renderMoreFields, renderFields, Layout.compact]

theorem length_renderMoreElements_le (depth : Nat) (elements : List Tree) :
    (renderMoreElements .compact depth elements).length ≤
      (renderElements .compact depth elements).length + 1 := by
  cases elements with
  | nil => exact Nat.zero_le _
  | cons value elements => simp [renderMoreElements, renderElements, Layout.compact]

end Tree

namespace Grammar

/-- How many characters a phrase takes when it is written compactly, up to the end of the container
that it is part of. -/
def Phrase.size (depth : Nat) : Phrase → Nat
  | .value tree => (tree.render .compact depth).length
  | .fields fs => (Tree.renderFields .compact depth fs).length + 1
  | .moreFields fs => (Tree.renderMoreFields .compact depth fs).length + 1
  | .elements es => (Tree.renderElements .compact depth es).length + 1
  | .moreElements es => (Tree.renderMoreElements .compact depth es).length + 1

/-- The lexemes that a phrase is read off take no less room than the phrase written compactly. -/
theorem Reads.size_le {p : Phrase} {ls rest : List Lexeme} (h : Reads .lexemes p ls rest)
    (depth : Nat) : p.size depth + Lexeme.size rest ≤ Lexeme.size ls := by
  induction h generalizing depth with
  | @scalar leaf a rest h =>
    rw [Phrase.size, Tree.render, ← h.2, Lexeme.size]
  | @object fields a ls rest h _ ih =>
    have hpos := a.length_pos
    have hfields := ih depth
    simp only [Phrase.size, Tree.render, List.length_cons, List.length_append, List.length_nil,
      Lexeme.size] at hfields ⊢
    omega
  | @array elements a ls rest h _ ih =>
    have hpos := a.length_pos
    have helements := ih depth
    simp only [Phrase.size, Tree.render, List.length_cons, List.length_append, List.length_nil,
      Lexeme.size] at helements ⊢
    omega
  | @noField a | @endFields a | @noElement a | @endElements a =>
    have hpos := a.length_pos
    rw [Lexeme.size]
    exact Nat.add_le_add_right hpos _
  | @field name value fields a b ls us rest hn hc _ _ ihv ihm =>
    have hpos := b.length_pos
    have hvalue := ihv (depth + 1)
    have hmore := ihm depth
    simp only [Phrase.size, Tree.renderFields, Layout.compact, List.length_cons, List.length_append,
      List.length_nil, Lexeme.size, ← hn.2] at hvalue hmore ⊢
    omega
  | element _ _ ihv ihm =>
    have hvalue := ihv (depth + 1)
    have hmore := ihm depth
    simp only [Phrase.size, Tree.renderElements, Layout.compact, List.length_append,
      List.length_nil] at hvalue hmore ⊢
    omega
  | @commaFields fields a ls rest h _ ih =>
    have hpos := a.length_pos
    have hfields := ih depth
    have hle := Tree.length_renderMoreFields_le depth fields
    simp only [Phrase.size, Lexeme.size] at hfields ⊢
    omega
  | @commaElements elements a ls rest h _ ih =>
    have hpos := a.length_pos
    have helements := ih depth
    have hle := Tree.length_renderMoreElements_le depth elements
    simp only [Phrase.size, Lexeme.size] at helements ⊢
    omega

end Grammar

/-- Of all texts of a tree its compact text is the shortest. -/
theorem Tree.IsWrittenAs.length_text_le {tree : Tree} {skip : Bool} {text : List Char}
    (h : tree.IsWrittenAs skip text) : tree.text.length ≤ text.length := by
  obtain ⟨ls, hread, hnoisy⟩ := h
  exact (hread.size_le 0).trans hnoisy.size_le

theorem Tree.IsWrittenAs.wellFormed {tree : Tree} {skip : Bool} {text : List Char}
    (h : tree.IsWrittenAs skip text) : tree.WellFormed := by
  obtain ⟨ls, hread, -⟩ := h
  exact hread.spelled

namespace Parser

/-- What has been parsed was no longer than the limit allows. -/
theorem length_le_of_parse {options : Options} {text : List Char} {tree : Tree}
    (h : ((ofOptions options).parse (.ofChars text)).1 = .ok tree) :
    ∀ limit ∈ options.maxChars, text.length ≤ limit := by
  intro limit hl
  have hset : ofOptions options = (ofOptions options).withMaxChars (some limit) := by
    have hmax : (ofOptions options).lexer.scanner.maxChars = some limit := hl
    rw [withMaxChars, Lexer.withMaxChars, Scanner.withMaxChars, ← hmax]
  rw [hset, parse_withMaxChars_eq_ok_iff] at h
  exact h.1

/-- A tree that has been parsed is written compactly with no more characters than it has been read
from. With the same options it is parsed from those, up to places, and then written as before. -/
theorem parse_text_of_parse (options : Options) (text : List Char) (tree : Tree)
    (hp : ((ofOptions options).parse (.ofChars text)).1 = .ok tree) :
    tree.text.length ≤ text.length ∧
      ∃ parsed, ((ofOptions options).parse (.ofChars tree.text)).1 = .ok parsed ∧
        parsed.unplaced = tree.unplaced ∧ parsed.text = tree.text := by
  have hlimit := length_le_of_parse hp
  obtain ⟨hnesting, hwritten⟩ := isWrittenAs_of_parse hlimit hp
  have hlength := hwritten.length_text_le
  have hcompact := Tree.isWrittenAs_render (Layout.isQuiet_compact options.skipWhiteSpace)
    hwritten.wellFormed 0
  obtain ⟨parsed, hparsed, he⟩ := exists_parse_of_isWrittenAs
    (fun limit hl => hlength.trans (hlimit limit hl)) hnesting hcompact
  exact ⟨hlength, parsed, hparsed, he, Tree.render_eq_of_unplaced_eq he .compact 0⟩

/-- All that the limits allow is used up, by a trailing comma among others. -/
theorem parse_text_of_parse_trailing :
    let options : Options := { maxDepth := 1, maxChars := some 4, skipWhiteSpace := false }
    let tree : Tree := .array [.scalar ⟨['1'], .integer, ⟨⟨0, 1⟩, ⟨0, 1⟩⟩⟩]
    ((ofOptions options).parse (.ofChars "[1,]".toList)).1 = .ok tree ∧
      tree.text = "[1]".toList ∧
      ∃ parsed, ((ofOptions options).parse (.ofChars tree.text)).1 = .ok parsed ∧
        parsed.unplaced = tree.unplaced := by
  intro options tree
  have hdelivers : ∃ (s : Scanner) (rest : Input),
      Delivers Scanner.next (.ofOptions Lexicon.document options) (.ofChars "[1,]".toList)
        [⟨.operator, .opening .array, ['['], ⟨⟨0, 0⟩, ⟨0, 0⟩⟩⟩,
          ⟨.operand, .scalar .integer, ['1'], ⟨⟨0, 1⟩, ⟨0, 1⟩⟩⟩,
          ⟨.operator, .separator, [','], ⟨⟨0, 2⟩, ⟨0, 2⟩⟩⟩,
          ⟨.operator, .closing .array, [']'], ⟨⟨0, 3⟩, ⟨0, 3⟩⟩⟩] (.ok ()) s rest :=
    ⟨_, _, .token rfl (.token rfl (.token rfl (.token rfl (.finish rfl))))⟩
  have hparse : ((ofOptions options).parse (.ofChars "[1,]".toList)).1 = .ok tree := by
    refine (parse_ofOptions_eq_ok_iff options _ tree).2 ⟨_, hdelivers, ?_, ?_⟩
    · exact .array rfl (.element (.scalar ⟨rfl, rfl, rfl⟩) (.commaElements rfl (.noElement rfl)))
    · simp [options, roles, significant, Token.isTrivia, Category.isTrivia, Options.deepest]
  obtain ⟨_, parsed, hp, he, _⟩ := parse_text_of_parse options _ tree hparse
  exact ⟨hparse, rfl, parsed, hp, he⟩

end Parser

end LaxJson
