import LaxJson.Proofs.Rendering.Language

/-!
# Writing and reading back

What a layout puts between the lexemes of a tree is noise, so that a tree is written as a text
that is read as this tree. Only the compact layout has no blanks, and is read as well where
blanks are not passed over.
-/
namespace LaxJson
open Grammar

/-- A layout adds nothing to the lexemes but noise. -/
structure Layout.IsQuiet (layout : Layout) (skip : Bool) : Prop where
  newline (depth : Nat) {ls : List Lexeme} {text : List Char} (h : Noisy skip ls text) :
    Noisy skip ls (layout.newline depth ++ text)
  colon {ls : List Lexeme} {text : List Char} (h : Noisy skip ls text) :
    Noisy skip (.colon :: ls) (layout.colon ++ text)

theorem Layout.isQuiet_compact (skip : Bool) : compact.IsQuiet skip where
  newline _ _ _ h := h
  colon h := .lexeme .colon h

theorem Noisy.spaces {ls : List Lexeme} {text : List Char} (h : Noisy true ls text) (n : Nat) :
    Noisy true ls (List.replicate n ' ' ++ text) := by
  induction n with
  | zero => exact h
  | succ n ih => exact .blank rfl (by simp) ih

theorem Layout.isQuiet_indented : indented.IsQuiet true where
  newline depth _ _ h := .blank rfl (by simp) (h.spaces (2 * depth))
  colon h := .lexeme .colon (.blank rfl (by simp) h)

namespace Tree
variable {layout : Layout} {skip : Bool}

mutual

/-- What is written for a tree are lexemes that it is read off, whatever follows. -/
theorem exists_reads_render (hq : layout.IsQuiet skip) : ∀ (tree : Tree) (depth : Nat),
    (∀ leaf ∈ tree.leaves, leaf.Spelled) →
    ∀ {rest : List Lexeme} {text : List Char}, Noisy skip rest text →
      ∃ ls, Reads .lexemes (.value tree) ls rest ∧
        Noisy skip ls (tree.render layout depth ++ text)
  | .scalar leaf, depth, hw, rest, text, hn => by
    have hs : leaf.kind.Spells leaf.raw := hw (.scalar leaf) (by simp [leaves])
    exact ⟨⟨.scalar leaf.kind, leaf.raw, hs⟩ :: rest, .scalar ⟨rfl, rfl⟩, .lexeme _ hn⟩
  | .object fields, depth, hw, rest, text, hn => by
    obtain ⟨ls, hread, hnoisy⟩ := exists_reads_renderFields hq fields depth hw hn
    refine ⟨.opening .object :: ls, .object rfl hread, ?_⟩
    rw [render, List.cons_append, List.append_assoc]
    exact .lexeme (.opening .object) hnoisy
  | .array elements, depth, hw, rest, text, hn => by
    obtain ⟨ls, hread, hnoisy⟩ := exists_reads_renderElements hq elements depth hw hn
    refine ⟨.opening .array :: ls, .array rfl hread, ?_⟩
    rw [render, List.cons_append, List.append_assoc]
    exact .lexeme (.opening .array) hnoisy

theorem exists_reads_renderFields (hq : layout.IsQuiet skip) :
    ∀ (fields : List (Field Tree)) (depth : Nat), (∀ leaf ∈ leavesFields fields, leaf.Spelled) →
    ∀ {rest : List Lexeme} {text : List Char}, Noisy skip rest text →
      ∃ ls, Reads .lexemes (.fields fields) ls rest ∧
        Noisy skip ls (renderFields layout depth fields ++ (['}'] ++ text))
  | [], depth, _, rest, text, hn =>
    ⟨.closing .object :: rest, .noField rfl, .lexeme (.closing .object) hn⟩
  | ⟨name, value⟩ :: fields, depth, hw, rest, text, hn => by
    rw [leavesFields, List.forall_mem_cons, List.forall_mem_append] at hw
    obtain ⟨hname, hvalue, hfields⟩ := hw
    obtain ⟨us, hmore, hnoisy⟩ := exists_reads_renderMoreFields hq fields depth hfields hn
    obtain ⟨ls, hread, hnoisy⟩ := exists_reads_render hq value (depth + 1) hvalue hnoisy
    refine ⟨⟨.scalar .string, name, hname⟩ :: .colon :: ls,
      .field ⟨rfl, rfl⟩ rfl hread hmore, ?_⟩
    simp only [renderFields, List.append_assoc]
    exact hq.newline _ (.lexeme ⟨.scalar .string, name, hname⟩ (hq.colon hnoisy))

theorem exists_reads_renderMoreFields (hq : layout.IsQuiet skip) :
    ∀ (fields : List (Field Tree)) (depth : Nat), (∀ leaf ∈ leavesFields fields, leaf.Spelled) →
    ∀ {rest : List Lexeme} {text : List Char}, Noisy skip rest text →
      ∃ ls, Reads .lexemes (.moreFields fields) ls rest ∧
        Noisy skip ls (renderMoreFields layout depth fields ++ (['}'] ++ text))
  | [], depth, _, rest, text, hn =>
    ⟨.closing .object :: rest, .endFields rfl, hq.newline _ (.lexeme (.closing .object) hn)⟩
  | ⟨name, value⟩ :: fields, depth, hw, rest, text, hn => by
    rw [leavesFields, List.forall_mem_cons, List.forall_mem_append] at hw
    obtain ⟨hname, hvalue, hfields⟩ := hw
    obtain ⟨us, hmore, hnoisy⟩ := exists_reads_renderMoreFields hq fields depth hfields hn
    obtain ⟨ls, hread, hnoisy⟩ := exists_reads_render hq value (depth + 1) hvalue hnoisy
    refine ⟨.comma :: ⟨.scalar .string, name, hname⟩ :: .colon :: ls,
      .commaFields rfl (.field ⟨rfl, rfl⟩ rfl hread hmore), ?_⟩
    simp only [renderMoreFields, List.cons_append, List.append_assoc]
    exact .lexeme .comma
      (hq.newline _ (.lexeme ⟨.scalar .string, name, hname⟩ (hq.colon hnoisy)))

theorem exists_reads_renderElements (hq : layout.IsQuiet skip) :
    ∀ (elements : List Tree) (depth : Nat), (∀ leaf ∈ leavesElements elements, leaf.Spelled) →
    ∀ {rest : List Lexeme} {text : List Char}, Noisy skip rest text →
      ∃ ls, Reads .lexemes (.elements elements) ls rest ∧
        Noisy skip ls (renderElements layout depth elements ++ ([']'] ++ text))
  | [], depth, _, rest, text, hn =>
    ⟨.closing .array :: rest, .noElement rfl, .lexeme (.closing .array) hn⟩
  | value :: elements, depth, hw, rest, text, hn => by
    rw [leavesElements, List.forall_mem_append] at hw
    obtain ⟨hvalue, helements⟩ := hw
    obtain ⟨us, hmore, hnoisy⟩ := exists_reads_renderMoreElements hq elements depth helements hn
    obtain ⟨ls, hread, hnoisy⟩ := exists_reads_render hq value (depth + 1) hvalue hnoisy
    refine ⟨ls, .element hread hmore, ?_⟩
    simp only [renderElements, List.append_assoc]
    exact hq.newline _ hnoisy

theorem exists_reads_renderMoreElements (hq : layout.IsQuiet skip) :
    ∀ (elements : List Tree) (depth : Nat), (∀ leaf ∈ leavesElements elements, leaf.Spelled) →
    ∀ {rest : List Lexeme} {text : List Char}, Noisy skip rest text →
      ∃ ls, Reads .lexemes (.moreElements elements) ls rest ∧
        Noisy skip ls (renderMoreElements layout depth elements ++ ([']'] ++ text))
  | [], depth, _, rest, text, hn =>
    ⟨.closing .array :: rest, .endElements rfl, hq.newline _ (.lexeme (.closing .array) hn)⟩
  | value :: elements, depth, hw, rest, text, hn => by
    rw [leavesElements, List.forall_mem_append] at hw
    obtain ⟨hvalue, helements⟩ := hw
    obtain ⟨us, hmore, hnoisy⟩ := exists_reads_renderMoreElements hq elements depth helements hn
    obtain ⟨ls, hread, hnoisy⟩ := exists_reads_render hq value (depth + 1) hvalue hnoisy
    refine ⟨.comma :: ls, .commaElements rfl (.element hread hmore), ?_⟩
    simp only [renderMoreElements, List.cons_append, List.append_assoc]
    exact .lexeme .comma (hq.newline _ hnoisy)

end

/-- A quiet layout writes a text for every well-formed tree. -/
theorem isWrittenAs_render (hq : layout.IsQuiet skip) {tree : Tree} (hw : tree.WellFormed)
    (depth : Nat) : tree.IsWrittenAs skip (tree.render layout depth) := by
  obtain ⟨ls, hread, hnoisy⟩ := exists_reads_render hq tree depth hw .finish
  exact ⟨ls, hread, by simpa using hnoisy⟩

end Tree

namespace Parser

/-- Both ways of writing a well-formed tree are read back as the tree, up to places, and what
has been read back is written as before. The compact text needs no white space to be passed
over. -/
theorem parse_render (options : Options) (tree : Tree) (hw : tree.WellFormed)
    (hn : tree.nesting ≤ min options.maxDepth Options.deepest) :
    ((∀ limit ∈ options.maxChars, tree.text.length ≤ limit) →
      ∃ parsed, ((ofOptions options).parse (.ofChars tree.text)).1 = .ok parsed ∧
        parsed.unplaced = tree.unplaced ∧ parsed.text = tree.text) ∧
    (options.skipWhiteSpace = true →
      (∀ limit ∈ options.maxChars, tree.indentedText.length ≤ limit) →
      ∃ parsed, ((ofOptions options).parse (.ofChars tree.indentedText)).1 = .ok parsed ∧
        parsed.unplaced = tree.unplaced ∧ parsed.text = tree.text) := by
  constructor
  · intro hlimit
    have hwritten := Tree.isWrittenAs_render (Layout.isQuiet_compact options.skipWhiteSpace) hw 0
    obtain ⟨parsed, hp, he⟩ := exists_parse_of_isWrittenAs hlimit hn hwritten
    exact ⟨parsed, hp, he, Tree.render_eq_of_unplaced_eq he .compact 0⟩
  · intro hskip hlimit
    have hwritten := Tree.isWrittenAs_render Layout.isQuiet_indented hw 0
    rw [← hskip] at hwritten
    obtain ⟨parsed, hp, he⟩ := exists_parse_of_isWrittenAs hlimit hn hwritten
    exact ⟨parsed, hp, he, Tree.render_eq_of_unplaced_eq he .compact 0⟩

/-- An empty object under a name that a backslash takes a quotation mark in. -/
theorem parse_render_escape :
    ∃ tree : Tree, tree = .object [⟨['"', '\\', '"', '"'], .object []⟩] ∧ tree.WellFormed ∧
      (∃ parsed, ((ofOptions {}).parse (.ofChars tree.text)).1 = .ok parsed ∧
        parsed.unplaced = tree.unplaced ∧ parsed.text = tree.text) ∧
      ∃ parsed, ((ofOptions {}).parse (.ofChars tree.indentedText)).1 = .ok parsed ∧
        parsed.unplaced = tree.unplaced ∧ parsed.text = tree.text := by
  have hname : IsString ['"', '\\', '"', '"'] := ⟨['\\', '"'], rfl, .escape '"' .nil⟩
  have hwell : (Tree.object [⟨['"', '\\', '"', '"'], .object []⟩]).WellFormed := by
    simpa [Tree.WellFormed, Tree.leaves, Tree.leavesFields, Tree.Leaf.Spelled] using hname
  have hparse := parse_render {} _ hwell (by decide)
  exact ⟨_, rfl, hwell, hparse.1 (by decide), hparse.2 rfl (by decide)⟩

end Parser

end LaxJson
