import LaxJson.Proofs.Checking
import LaxJson.Proofs.Rendering.Noise
import LaxJson.Proofs.Rendering.Placing

/-!
# The language that is read

A text is written for a tree when it consists of the lexemes that the tree is read off, with
arbitrary noise around them. A parser of documents finds a tree in a text, up to places, exactly
when the tree is well formed and nests within the limit and the text is written for it.
-/
namespace LaxJson
open Grammar

/-- What a leaf is read off is a lexeme. -/
def Tree.Leaf.Spelled : Tree.Leaf → Prop
  | .name rawName => IsString rawName
  | .scalar leaf => leaf.kind.Spells leaf.raw

/-- The texts of all names and scalars are lexemes of their kinds. -/
def Tree.WellFormed (tree : Tree) : Prop := ∀ leaf ∈ tree.leaves, leaf.Spelled

/-- Lexemes by their roles and texts; where a scalar was read is of no concern. -/
def Grammar.Alphabet.lexemes : Alphabet Lexeme where
  symbol role a := a.role = role
  name rawName a := a.role = .scalar .string ∧ a.text = rawName
  scalar leaf a := a.role = .scalar leaf.kind ∧ a.text = leaf.raw

/-- The text is the lexemes of the tree in order, with noise before, between and after them. -/
def Tree.IsWrittenAs (tree : Tree) (skip : Bool) (text : List Char) : Prop :=
  ∃ ls, Reads .lexemes (.value tree) ls [] ∧ Noisy skip ls text

namespace Grammar

/-- Every name and scalar has a lexeme of its own. -/
theorem Reads.spelled {p : Phrase} {ls rest : List Lexeme} (h : Reads .lexemes p ls rest) :
    ∀ leaf ∈ p.leaves, leaf.Spelled := by
  induction h with
  | @scalar leaf a rest h =>
    obtain ⟨hrole, htext⟩ := h
    have hs : leaf.kind.Spells leaf.raw := by
      have hspelled := a.spelled
      rwa [hrole, htext] at hspelled
    simpa [Phrase.leaves, Tree.leaves, Tree.Leaf.Spelled] using hs
  | object _ _ ih | array _ _ ih | commaFields _ _ ih | commaElements _ _ ih => exact ih
  | noField | endFields | noElement | endElements =>
    simp [Phrase.leaves, Tree.leavesFields, Tree.leavesElements]
  | @field name value fields a b _ _ _ hn _ _ _ ihv ihm =>
    obtain ⟨hrole, htext⟩ := hn
    have hs : IsString name := by
      have hspelled := a.spelled
      rwa [hrole, htext] at hspelled
    intro leaf hleaf
    rw [Phrase.leaves, Tree.leavesFields] at hleaf
    rcases List.mem_cons.1 hleaf with rfl | hleaf
    · exact hs
    · rcases List.mem_append.1 hleaf with hleaf | hleaf
      · exact ihv leaf hleaf
      · exact ihm leaf hleaf
  | element _ _ ihv ihm =>
    intro leaf hleaf
    rw [Phrase.leaves, Tree.leavesElements] at hleaf
    rcases List.mem_append.1 hleaf with hleaf | hleaf
    · exact ihv leaf hleaf
    · exact ihm leaf hleaf

/-- Behind an entry of a container there is no scalar. -/
def Phrase.Separates (ls : List Lexeme) : Phrase → Prop
  | .value _ | .fields _ | .elements _ => Separated ls
  | .moreFields _ | .moreElements _ => FollowsScalar ls

theorem followsScalar_cons {a : Lexeme} {ls : List Lexeme} (ha : a.role.isScalar = false)
    (h : Separated ls) : FollowsScalar (a :: ls) :=
  ⟨by simpa using ha, (separated_cons_of_not_isScalar ha).2 h⟩

theorem Reads.separates {p : Phrase} {ls rest : List Lexeme} (h : Reads .lexemes p ls rest)
    (hr : FollowsScalar rest) : p.Separates ls := by
  induction h with
  | scalar h => exact (separated_cons_of_isScalar (by rw [h.1]; rfl)).2 hr
  | object h _ ih | array h _ ih =>
    exact (separated_cons_of_not_isScalar (by rw [h]; rfl)).2 (ih hr)
  | noField h | noElement h => exact (separated_cons_of_not_isScalar (by rw [h]; rfl)).2 hr.2
  | endFields h | endElements h => exact followsScalar_cons (by rw [h]; rfl) hr.2
  | commaFields h _ ih | commaElements h _ ih => exact followsScalar_cons (by rw [h]; rfl) (ih hr)
  | field hn hc _ _ ihv ihm =>
    have hvalue := ihv (ihm hr)
    exact (separated_cons_of_isScalar (by rw [hn.1]; rfl)).2
      (followsScalar_cons (by rw [hc]; rfl) hvalue)
  | element _ _ ihv ihm => exact ihv (ihm hr)

section
variable {α : Type} {A : Alphabet α} {rest : List α}

theorem reads_moreFields_congr {fs gs : List (Field Tree)} (hnil : fs = [] ↔ gs = [])
    (h : ∀ ls, Reads A (.fields fs) ls rest ↔ Reads A (.fields gs) ls rest) (ls : List α) :
    Reads A (.moreFields fs) ls rest ↔ Reads A (.moreFields gs) ls rest := by
  cases ls with
  | nil => simp
  | cons a ls => rw [reads_moreFields_cons, reads_moreFields_cons, hnil, h]

theorem reads_moreElements_congr {es ds : List Tree} (hnil : es = [] ↔ ds = [])
    (h : ∀ ls, Reads A (.elements es) ls rest ↔ Reads A (.elements ds) ls rest) (ls : List α) :
    Reads A (.moreElements es) ls rest ↔ Reads A (.moreElements ds) ls rest := by
  cases ls with
  | nil => simp
  | cons a ls => rw [reads_moreElements_cons, reads_moreElements_cons, hnil, h]

end

theorem unplacedFields_eq_nil_iff (fs : List (Field Tree)) :
    Tree.unplacedFields fs = [] ↔ fs = [] := by
  cases fs <;> simp [Tree.unplacedFields]

theorem unplacedElements_eq_nil_iff (es : List Tree) :
    Tree.unplacedElements es = [] ↔ es = [] := by
  cases es <;> simp [Tree.unplacedElements]

mutual

theorem reads_unplaced : ∀ (tree : Tree) (ls rest : List Lexeme),
    Reads .lexemes (.value tree.unplaced) ls rest ↔ Reads .lexemes (.value tree) ls rest
  | _, [], _ => by simp
  | .scalar leaf, a :: ls, rest => by
    simp [reads_value_cons, Tree.unplaced, Alphabet.lexemes, Scalar.unplaced]
  | .object fields, a :: ls, rest => by
    simp [reads_value_cons, Tree.unplaced, reads_unplacedFields fields]
  | .array elements, a :: ls, rest => by
    simp [reads_value_cons, Tree.unplaced, reads_unplacedElements elements]

theorem reads_unplacedFields : ∀ (fields : List (Field Tree)) (ls rest : List Lexeme),
    Reads .lexemes (.fields (Tree.unplacedFields fields)) ls rest ↔
      Reads .lexemes (.fields fields) ls rest
  | _, [], _ => by simp
  | [], a :: ls, rest => by rw [Tree.unplacedFields]
  | ⟨name, value⟩ :: fields, a :: ls, rest => by
    have hmore := fun ls rest => reads_moreFields_congr (unplacedFields_eq_nil_iff fields)
      (fun ls => reads_unplacedFields fields ls rest) ls
    simp [reads_fields_cons, Tree.unplacedFields, reads_unplaced value, hmore]

theorem reads_unplacedElements : ∀ (elements : List Tree) (ls rest : List Lexeme),
    Reads .lexemes (.elements (Tree.unplacedElements elements)) ls rest ↔
      Reads .lexemes (.elements elements) ls rest
  | _, [], _ => by simp
  | [], a :: ls, rest => by rw [Tree.unplacedElements]
  | value :: elements, a :: ls, rest => by
    have hmore := fun ls rest => reads_moreElements_congr (unplacedElements_eq_nil_iff elements)
      (fun ls => reads_unplacedElements elements ls rest) ls
    simp [reads_elements_cons, Tree.unplacedElements, reads_unplaced value, hmore]

end

/-- Trees that agree without places are read off the same lexemes. -/
theorem Reads.of_unplaced_eq {t u : Tree} {ls rest : List Lexeme}
    (h : Reads .lexemes (.value t) ls rest) (he : t.unplaced = u.unplaced) :
    Reads .lexemes (.value u) ls rest := by
  rw [← reads_unplaced, ← he, reads_unplaced]
  exact h

/-- No bare word has a part in a document. -/
theorem Generates.word_notMem {n : Nonterminal} {w : List Role} (h : Generates n w) :
    Role.word ∉ w := by
  induction h <;> simp_all

theorem Reads.lexemes_of_tokens {tree : Tree} {ts : List Token} {ls : List Lexeme}
    (h : Reads .tokens (.value tree) ts []) (hl : List.Forall₂ Token.Has ts ls) :
    Reads .lexemes (.value tree) ls [] := by
  have hsymbol (role : Role) (t : Token) (a : Lexeme) (ha : t.Has a)
      (ht : Alphabet.tokens.symbol role t) : Alphabet.lexemes.symbol role a := ha.1.symm.trans ht
  have hname (name : List Char) (t : Token) (a : Lexeme) (ha : t.Has a)
      (ht : Alphabet.tokens.name name t) : Alphabet.lexemes.name name a :=
    ⟨ha.1.symm.trans ht.1, (ht.2.trans ha.2).symm⟩
  have hscalar (leaf : Scalar) (t : Token) (a : Lexeme) (ha : t.Has a)
      (ht : Alphabet.tokens.scalar leaf t) :
      ∃ leaf', Scalar.unplaced leaf' = leaf.unplaced ∧ Alphabet.lexemes.scalar leaf' a :=
    ⟨leaf, rfl, ha.1.symm.trans ht.1, (ht.2.1.trans ha.2).symm⟩
  obtain ⟨rest, hrest, tree', he, hread⟩ := h.readAlike hsymbol hname hscalar hl
  cases hrest
  exact hread.of_unplaced_eq he

/-- Tokens with the texts of lexemes are read as the same tree, with places of their own. -/
theorem Reads.exists_tokens {tree : Tree} {ts : List Token} {ls : List Lexeme}
    (h : Reads .lexemes (.value tree) ls []) (hl : List.Forall₂ Token.Has ts ls) :
    ∃ placed, placed.unplaced = tree.unplaced ∧ Reads .tokens (.value placed) ts [] := by
  have hsymbol (role : Role) (a : Lexeme) (t : Token) (ht : t.Has a)
      (ha : Alphabet.lexemes.symbol role a) : Alphabet.tokens.symbol role t := ht.1.trans ha
  have hname (name : List Char) (a : Lexeme) (t : Token) (ht : t.Has a)
      (ha : Alphabet.lexemes.name name a) : Alphabet.tokens.name name t :=
    ⟨ht.1.trans ha.1, (ht.2.trans ha.2).symm⟩
  have hscalar (leaf : Scalar) (a : Lexeme) (t : Token) (ht : t.Has a)
      (ha : Alphabet.lexemes.scalar leaf a) :
      ∃ leaf', Scalar.unplaced leaf' = leaf.unplaced ∧ Alphabet.tokens.scalar leaf' t :=
    ⟨{ leaf with span := t.span }, rfl, ht.1.trans ha.1, (ht.2.trans ha.2).symm, rfl⟩
  obtain ⟨rest, hrest, hplaced⟩ := h.readAlike hsymbol hname hscalar hl.flip
  cases hrest
  exact hplaced

end Grammar

namespace Parser

/-- A document within the limit is accepted to its end, so that only the scanner can keep a
parser of documents from its tree. -/
theorem parse_ofOptions_eq_ok_iff (options : Options) (input : Input) (tree : Tree) :
    ((ofOptions options).parse input).1 = .ok tree ↔
      ∃ ts, (∃ s' rest, Delivers Scanner.next (.ofOptions Lexicon.document options) input ts
          (.ok ()) s' rest) ∧
        Reads .tokens (.value tree) (significant ts) [] ∧
        NestsWithin (min options.maxDepth Options.deepest) (roles ts) := by
  have hv : (ofOptions options).lexer.reset.checker = some
      (Checker.reset { maxDepth := min options.maxDepth Options.deepest }) := rfl
  rw [parse_eq_ok_iff]
  constructor
  · intro ⟨ts, l', rest, hd, hr, hn⟩
    obtain ⟨hds, _⟩ := (Lexer.exists_delivers_iff hv input ts).1 ⟨l', rest, hd⟩
    exact ⟨ts, hds, hr, hn⟩
  · intro ⟨ts, hds, hr, hn⟩
    have hdoc : IsDocument (roles ts) := (isDocument_iff_exists_reads _).2 ⟨tree, hr⟩
    have hw := (DocumentChecker.exists_accept?_reset_iff
      { maxDepth := min options.maxDepth Options.deepest } ts).2
      ⟨[], by simpa using hdoc, by simpa using hn⟩
    obtain ⟨l', rest, hd⟩ := (Lexer.exists_delivers_iff hv input ts).2 ⟨hds, hw⟩
    exact ⟨ts, l', rest, hd, hr, hn⟩

theorem awaits_ofOptions {options : Options} {text : List Char}
    (hlimit : ∀ limit ∈ options.maxChars, text.length ≤ limit) :
    (Scanner.ofOptions Lexicon.document options).Awaits options.skipWhiteSpace (.ofChars text) []
      text :=
  ⟨rfl, rfl, .reading rfl rfl, hlimit⟩

/-- A tree is found in every text that is written for it. -/
theorem exists_parse_of_isWrittenAs {options : Options} {text : List Char}
    (hlimit : ∀ limit ∈ options.maxChars, text.length ≤ limit) {tree : Tree}
    (hn : tree.nesting ≤ min options.maxDepth Options.deepest)
    (hw : tree.IsWrittenAs options.skipWhiteSpace text) :
    ∃ parsed, ((ofOptions options).parse (.ofChars text)).1 = .ok parsed ∧
      parsed.unplaced = tree.unplaced := by
  obtain ⟨ls, hread, hnoisy⟩ := hw
  have hsep : Separated ls := hread.separates ⟨by simp, .nil⟩
  obtain ⟨ts, s', rest, hd, hls⟩ := delivers_of_noisy hnoisy hsep (awaits_ofOptions hlimit)
  obtain ⟨parsed, he, hr⟩ := hread.exists_tokens hls
  have hnesting : parsed.nesting = tree.nesting := Tree.nesting_eq_of_unplaced_eq he
  have hnests := (nestsWithin_iff_nesting_le hr _).2 (hnesting.le.trans hn)
  exact ⟨parsed, (parse_ofOptions_eq_ok_iff options _ parsed).2 ⟨ts, ⟨s', rest, hd⟩, hr, hnests⟩,
    he⟩

/-- A text that a tree is found in is written for it. -/
theorem isWrittenAs_of_parse {options : Options} {text : List Char}
    (hlimit : ∀ limit ∈ options.maxChars, text.length ≤ limit) {parsed : Tree}
    (hp : ((ofOptions options).parse (.ofChars text)).1 = .ok parsed) :
    parsed.nesting ≤ min options.maxDepth Options.deepest ∧
      parsed.IsWrittenAs options.skipWhiteSpace text := by
  obtain ⟨ts, ⟨s', rest, hd⟩, hr, hn⟩ := (parse_ofOptions_eq_ok_iff options _ parsed).1 hp
  have hdoc : IsDocument (roles ts) := (isDocument_iff_exists_reads _).2 ⟨parsed, hr⟩
  have hwords : ∀ t ∈ significant ts, t.role ≠ .word := by
    intro t ht hw
    exact hdoc.word_notMem (hw ▸ List.mem_map_of_mem ht)
  obtain ⟨ls, hls, hnoisy⟩ := noisy_of_delivers hd hwords (awaits_ofOptions hlimit)
  exact ⟨(nestsWithin_iff_nesting_le hr _).1 hn, ls, hr.lexemes_of_tokens hls, hnoisy⟩

/-- A parser of documents accepts exactly the texts that are written for the well-formed trees
within its limit, and finds the tree that the text is written for, up to places. -/
theorem parse_ofOptions_iff (options : Options) (text : List Char)
    (hlimit : ∀ limit ∈ options.maxChars, text.length ≤ limit) (tree : Tree) :
    (∃ parsed, ((ofOptions options).parse (.ofChars text)).1 = .ok parsed ∧
        parsed.unplaced = tree.unplaced) ↔
      tree.WellFormed ∧ tree.nesting ≤ min options.maxDepth Options.deepest ∧
        tree.IsWrittenAs options.skipWhiteSpace text := by
  constructor
  · intro ⟨parsed, hp, he⟩
    obtain ⟨hn, ls, hread, hnoisy⟩ := isWrittenAs_of_parse hlimit hp
    have hread' : Reads .lexemes (.value tree) ls [] := hread.of_unplaced_eq he
    rw [Tree.nesting_eq_of_unplaced_eq he] at hn
    exact ⟨hread'.spelled, hn, ls, hread', hnoisy⟩
  · intro ⟨_, hn, hw⟩
    exact exists_parse_of_isWrittenAs hlimit hn hw

/-- A comment behind a number and a comma behind the last element. -/
theorem parse_ofOptions_iff_comment :
    (∀ limit ∈ ({} : Options).maxChars, "[1/*x*/,]".toList.length ≤ limit) ∧
      ∃ parsed, ((ofOptions {}).parse (.ofChars "[1/*x*/,]".toList)).1 = .ok parsed ∧
        parsed.unplaced = (Tree.array [.scalar { raw := ['1'], kind := .integer }]).unplaced := by
  have hlimit : ∀ limit ∈ ({} : Options).maxChars, "[1/*x*/,]".toList.length ≤ limit := by decide
  have hone : IsInteger ['1'] := ⟨[], ['1'], rfl, .inl rfl, isDigits_singleton (by decide)⟩
  have hcomment : IsComment "/*x*/".toList := .inl ⟨['x'], by decide, by decide⟩
  have hwritten : (Tree.array [.scalar { raw := ['1'], kind := .integer }]).IsWrittenAs true
      "[1/*x*/,]".toList := by
    refine ⟨[.opening .array, ⟨.scalar .integer, ['1'], hone⟩, .comma, .closing .array], ?_, ?_⟩
    · exact .array rfl (.element (.scalar ⟨rfl, rfl⟩) (.commaElements rfl (.noElement rfl)))
    · exact .lexeme (.opening .array) (.lexeme ⟨.scalar .integer, ['1'], hone⟩
        (.comment hcomment (.lexeme .comma (.lexeme (.closing .array) .finish))))
  have hwell : (Tree.array [.scalar { raw := ['1'], kind := .integer }]).WellFormed := by
    simpa [Tree.WellFormed, Tree.leaves, Tree.leavesElements, Tree.Leaf.Spelled,
      ScalarKind.Spells] using hone
  exact ⟨hlimit, (parse_ofOptions_iff {} _ hlimit _).2 ⟨hwell, by decide, hwritten⟩⟩

end Parser

end LaxJson
