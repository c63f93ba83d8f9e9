import LaxJson.Proofs.Spelling
import LaxJson.Tree.Access

/-!
# Escaping and unescaping

A string may be written between quotation marks in many ways (`Escape.Writes`), since most
characters that have a simple escape may also stand for themselves. Whichever is chosen, the
text is read as one scalar, and its decoding is the string again. More can stand in a document
than is ever written so, such as a `\u` with its digits; how that is read is said by
`Escape.Decodes`. It has no rule for a backslash with nothing behind it, and still applies to
every string of a document: the scanner ends a string only where no backslash is waiting.
-/
namespace LaxJson

namespace Text.Escape

/-- The characters that make a simple escape with a backslash, and what the escapes stand for. -/
def simplePairs : List (Char × Char) :=
  [('"', '"'), ('\\', '\\'), ('/', '/'), ('b', '\x08'), ('f', '\x0c'), ('n', '\n'), ('r', '\r'),
    ('t', '\t')]

/-- `body` is a way to write `s` between quotation marks: what has a simple escape may be
escaped, and a quotation mark and a backslash must be. -/
inductive Writes : List Char → List Char → Prop
  | nil : Writes [] []
  | plain {c s body} (hq : c ≠ '"') (hb : c ≠ '\\') (h : Writes s body) :
      Writes (c :: s) (c :: body)
  | escape {letter c s body} (hp : (letter, c) ∈ simplePairs) (h : Writes s body) :
      Writes (c :: s) ('\\' :: letter :: body)

/-- Read from left to right, `text` stands for `out`. A backslash takes the next character with
it, and the pair is kept if it is no simple escape. -/
inductive Decodes : List Char → List Char → Prop
  | nil : Decodes [] []
  | plain {c text out} (hb : c ≠ '\\') (h : Decodes text out) : Decodes (c :: text) (c :: out)
  | simple {letter c text out} (hp : (letter, c) ∈ simplePairs) (h : Decodes text out) :
      Decodes ('\\' :: letter :: text) (c :: out)
  | other {letter text out} (hp : ∀ c, (letter, c) ∉ simplePairs) (h : Decodes text out) :
      Decodes ('\\' :: letter :: text) ('\\' :: letter :: out)

theorem simple?_eq_some_iff {letter c : Char} :
    simple? letter = some c ↔ (letter, c) ∈ simplePairs := by
  constructor
  · intro h
    unfold simple? at h
    split at h <;> cases h
    all_goals decide
  · intro h
    simp only [simplePairs, List.mem_cons, Prod.mk.injEq, List.not_mem_nil, or_false] at h
    rcases h with ⟨rfl, rfl⟩ | ⟨rfl, rfl⟩ | ⟨rfl, rfl⟩ | ⟨rfl, rfl⟩ | ⟨rfl, rfl⟩ | ⟨rfl, rfl⟩ |
      ⟨rfl, rfl⟩ | ⟨rfl, rfl⟩
    all_goals rfl

theorem simple?_eq_none_iff {letter : Char} :
    simple? letter = none ↔ ∀ c, (letter, c) ∉ simplePairs := by
  rw [Option.eq_none_iff_forall_ne_some]
  exact forall_congr' fun c => not_congr simple?_eq_some_iff

/-- There is one way to read a text, and `decode` finds it. -/
theorem Decodes.decode_eq {text out : List Char} (h : Decodes text out) : decode text = out := by
  induction h with
  | nil => rfl
  | plain hb _ ih => rw [decode_cons hb, ih]
  | simple hp _ ih => rw [decode_escape (simple?_eq_some_iff.2 hp), ih]
  | other hp _ ih => simp [decode, simple?_eq_none_iff.2 hp, ih]

theorem Decodes.of_cons {c : Char} {text out : List Char} (hb : c ≠ '\\')
    (h : Decodes (c :: text) out) : ∃ out', Decodes text out' := by
  cases h with
  | plain _ h => exact ⟨_, h⟩
  | simple | other => exact absurd rfl hb

theorem Decodes.of_pair {letter : Char} {text out : List Char}
    (h : Decodes ('\\' :: letter :: text) out) : ∃ out', Decodes text out' := by
  cases h with
  | plain hb => exact absurd rfl hb
  | simple _ h | other _ h => exact ⟨_, h⟩

/-- What can be read up to a backslash cannot be read with it. -/
theorem Decodes.not_append_backslash {text out : List Char} (h : Decodes text out)
    (out' : List Char) : ¬ Decodes (text ++ ['\\']) out' := by
  induction h generalizing out' with
  | nil =>
    intro h
    cases h with
    | plain hb => exact hb rfl
  | plain hb _ ih =>
    intro h
    obtain ⟨rest, hrest⟩ := h.of_cons hb
    exact ih rest hrest
  | simple _ _ ih | other _ _ ih =>
    intro h
    obtain ⟨rest, hrest⟩ := h.of_pair
    exact ih rest hrest

/-- Every string of a document can be read. -/
theorem decodes_decode {body : List Char} (h : IsStringBody body) : Decodes body (decode body) := by
  induction h with
  | nil => exact .nil
  | plain _ hb _ ih =>
    rw [decode_cons hb]
    exact .plain hb ih
  | @escape letter body _ ih =>
    cases hs : simple? letter with
    | some c =>
      rw [decode_escape hs]
      exact .simple (simple?_eq_some_iff.1 hs) ih
    | none =>
      have hd : decode ('\\' :: letter :: body) = '\\' :: letter :: decode body := by
        simp [decode, hs]
      rw [hd]
      exact .other (simple?_eq_none_iff.1 hs) ih

theorem Writes.decodes {s body : List Char} (h : Writes s body) : Decodes body s := by
  induction h with
  | nil => exact .nil
  | plain _ hb _ ih => exact .plain hb ih
  | escape hp _ ih => exact .simple hp ih

theorem Writes.isStringBody {s body : List Char} (h : Writes s body) : IsStringBody body := by
  induction h with
  | nil => exact .nil
  | plain hq hb _ ih => exact .plain hq hb ih
  | escape _ _ ih => exact .escape _ ih

end Text.Escape

open Text.Escape

namespace Scalar
variable {leaf : Scalar} {body : List Char}

theorem text_of_raw_eq (hk : leaf.kind = .string) (hraw : leaf.raw = '"' :: (body ++ ['"'])) :
    leaf.text = body := by
  rw [text, if_pos hk, hraw]
  exact unquote_quoted body

theorem unescaped_of_raw_eq (hk : leaf.kind = .string) (hraw : leaf.raw = '"' :: (body ++ ['"'])) :
    leaf.unescaped = decode body := by
  rw [unescaped, if_pos hk, text_of_raw_eq hk hraw]

/-- Where there is no backslash nothing has to be decoded. -/
theorem unescaped_eq_text (h : '\\' ∉ leaf.text) : leaf.unescaped = leaf.text := by
  unfold unescaped
  split
  · exact decode_eq_self h
  · rfl

end Scalar

namespace Parser

/-- A string that is written between quotation marks, in whichever way, is read as one scalar
that decodes to it. And whatever else stands in a string of a document, its decoding is the
reading from left to right, which never comes to a backslash with nothing behind it. -/
theorem parse_unescapes (options : Options) :
    (∀ s body, Writes s body →
      (∀ limit ∈ options.maxChars, ('"' :: (body ++ ['"'])).length ≤ limit) →
      ∃ leaf, ((ofOptions options).parse (.ofChars ('"' :: (body ++ ['"'])))).1 =
          .ok (.scalar leaf) ∧
        leaf.kind = .string ∧ leaf.raw = '"' :: (body ++ ['"']) ∧ leaf.text = body ∧
        leaf.unescaped = s) ∧
    ∀ {V : Type} [Checker V] (p : Parser V), p.lexer.scanner.Reached Lexicon.document options →
      ∀ input tree, (p.parse input).1 = .ok tree →
      ∀ leaf, .scalar leaf ∈ tree.leaves → leaf.kind = .string →
        leaf.raw = '"' :: (leaf.text ++ ['"']) ∧ Decodes leaf.text leaf.unescaped ∧
        ('\\' ∉ leaf.text → leaf.unescaped = leaf.text) ∧
        ∀ before out, Decodes before out → leaf.text ≠ before ++ ['\\'] := by
  constructor
  · intro s body hw hlimit
    have hs : ScalarKind.string.Spells ('"' :: (body ++ ['"'])) := ⟨body, rfl, hw.isStringBody⟩
    obtain ⟨leaf, hparse, hk, hraw⟩ := exists_parse_scalar hs hlimit
    have hdecode : leaf.unescaped = s := by
      rw [Scalar.unescaped_of_raw_eq hk hraw]
      exact hw.decodes.decode_eq
    exact ⟨leaf, hparse, hk, hraw, Scalar.text_of_raw_eq hk hraw, hdecode⟩
  · intro V _ p hp input tree hparse leaf hleaf hk
    have hspelled : leaf.kind.Spells leaf.raw := wellFormed_of_parse hp hparse _ hleaf
    rw [hk] at hspelled
    obtain ⟨body, hraw, hbody⟩ := hspelled
    have htext : leaf.text = body := Scalar.text_of_raw_eq hk hraw
    have hdecodes : Decodes leaf.text leaf.unescaped := by
      rw [htext, Scalar.unescaped_of_raw_eq hk hraw]
      exact decodes_decode hbody
    refine ⟨by rw [htext, hraw], hdecodes, Scalar.unescaped_eq_text, ?_⟩
    intro before out hbefore hlast
    rw [hlast] at hdecodes
    exact hbefore.not_append_backslash _ hdecodes

/-- A string that ends in an escaped quotation mark and an escaped backslash, and one with an
escape that is kept. -/
theorem parse_unescapes_at_end :
    (Writes ['/', '"', '\\'] ['/', '\\', '"', '\\', '\\'] ∧
      ∃ leaf, ((ofOptions {}).parse (.ofChars ['"', '/', '\\', '"', '\\', '\\', '"'])).1 =
          .ok (.scalar leaf) ∧ leaf.unescaped = ['/', '"', '\\']) ∧
      ∃ leaf, ((ofOptions {}).parse (.ofChars ['"', '\\', 'u', '\\', 'n', '"'])).1 =
          .ok (.scalar leaf) ∧
        leaf.text = ['\\', 'u', '\\', 'n'] ∧ leaf.unescaped = ['\\', 'u', '\n'] ∧
        Decodes leaf.text leaf.unescaped := by
  constructor
  · have hw : Writes ['/', '"', '\\'] ['/', '\\', '"', '\\', '\\'] :=
      .plain (by decide) (by decide) (.escape (by decide) (.escape (by decide) .nil))
    obtain ⟨leaf, hparse, -, -, -, hunescaped⟩ := (parse_unescapes {}).1 _ _ hw (by decide)
    exact ⟨hw, leaf, hparse, hunescaped⟩
  · have hbody : IsStringBody ['\\', 'u', '\\', 'n'] := .escape 'u' (.escape 'n' .nil)
    have hs : ScalarKind.string.Spells ('"' :: (['\\', 'u', '\\', 'n'] ++ ['"'])) :=
      ⟨_, rfl, hbody⟩
    have hlimit : ∀ limit ∈ ({} : Options).maxChars, 6 ≤ limit := by decide
    obtain ⟨leaf, hparse, hk, hraw⟩ := exists_parse_scalar hs hlimit
    have hleaf : .scalar leaf ∈ (Tree.scalar leaf).leaves := List.mem_singleton_self _
    obtain ⟨-, hdecodes, -⟩ :=
      (parse_unescapes {}).2 (ofOptions {}) .ofOptions _ _ hparse leaf hleaf hk
    exact ⟨leaf, hparse, Scalar.text_of_raw_eq hk hraw, Scalar.unescaped_of_raw_eq hk hraw,
      hdecodes⟩

end Parser

end LaxJson
