import LaxJson.Proofs.Scan.Stages

/-!
# The tokens of documents

With the lexicon of documents a lexeme is munched whole wherever something stands behind it
that it cannot go on with, and a comment wherever it stands. Conversely, what is munched and
whole is a lexeme, a bare word, or a comment; a line comment without its newline is found at
the end of a text only.
-/
namespace LaxJson

/-- What holds of the code points of White_Space holds of every blank. -/
theorem Text.WhiteSpace.forall_of_isBlank {P : Char → Prop}
    (h : ∀ r ∈ ranges, ∀ k < r.2 + 1 - r.1, P (Char.ofNat (r.1 + k))) {c : Char}
    (hc : isBlank c = true) : P c := by
  have hasc : Ranges.Ascending ranges := by
    unfold Ranges.Ascending
    decide
  obtain ⟨r, hr, hfirst, hlast⟩ := (Ranges.contains_iff hasc c.toNat).1 hc
  have hP := h r hr (c.toNat - r.1) (by omega)
  rwa [Nat.add_sub_cancel' hfirst, Char.ofNat_toNat] at hP

namespace Lexicon
open Recognizer

/-- No number and no word goes on with the character. -/
def Delimits (c : Char) : Prop := isWordChar c = false ∧ c ≠ '.'

instance : DecidablePred Delimits := fun c =>
  inferInstanceAs (Decidable (isWordChar c = false ∧ c ≠ '.'))

/-- No token begins with a blank, and none goes on with it but a string or a comment. -/
theorem isBlank_spec {c : Char} (h : Text.WhiteSpace.isBlank c = true) :
    begin document c = [] ∧ Delimits c :=
  Text.WhiteSpace.forall_of_isBlank (P := fun c => begin document c = [] ∧ Delimits c)
    (by decide +kernel) h

/-- What holds of ten characters holds of every digit. -/
theorem forall_of_isDigit {P : Char → Prop} (h : ∀ k < 10, P (Char.ofNat (48 + k))) {c : Char}
    (hc : c.isDigit = true) : P c := by
  simp only [Char.isDigit, Bool.and_eq_true, decide_eq_true_eq, ge_iff_le,
    UInt32.le_iff_toNat_le] at hc
  have hfirst : 48 ≤ c.toNat := hc.1
  have hlast : c.toNat ≤ 57 := hc.2
  have hP := h (c.toNat - 48) (by omega)
  rwa [Nat.add_sub_cancel' hfirst, Char.ofNat_toNat] at hP

theorem begin_document_of_isDigit {c : Char} (h : c.isDigit = true) :
    begin document c = [.number .integer, .identifier] :=
  forall_of_isDigit (P := fun c => begin document c = [.number .integer, .identifier])
    (by decide) h

theorem Delimits.isDigit_eq_false {c : Char} (h : Delimits c) : c.isDigit = false := by
  by_contra hd
  have hword : isWordChar c = true :=
    forall_of_isDigit (P := fun c => isWordChar c = true) (by decide) (by simpa using hd)
  rw [h.1] at hword
  cases hword

section
variable {text rest : List Char} {owner : Recognizer}

theorem munches_string (h : IsString text) : Munches document text rest (.quotation .closed) := by
  obtain ⟨body, rfl, hb⟩ := h
  have hs : survivors document ['"'] = [.quotation .body] := by decide
  exact munches_of_survivors_eq_singleton ['"'] _ hs (follow?_quotation_body hb) fun _ _ => rfl

theorem munches_symbol {c : Char} {role : Role} (h : survivors document [c] = [.symbol c role]) :
    Munches document [c] rest (.symbol c role) :=
  munches_of_survivors_eq_singleton [c] [] h rfl fun _ _ => rfl

/-- A bare word is the only rival of numbers and keywords, and ends where they do. -/
theorem munches_of_rivals {rivals : List Recognizer}
    (hs : survivors document text = owner :: rivals) (hr : ∀ r ∈ rivals, r = .identifier)
    (hn : ∀ c, Delimits c → owner.next? c = none) (hd : ∀ c ∈ rest.head?, Delimits c) :
    Munches document text rest owner := by
  have ht : text ≠ [] := by
    intro h0
    simp [h0] at hs
  refine ⟨by rw [hs, List.head?_cons], fun c hc => ?_⟩
  rw [survivors_append_singleton ht, hs, narrow, List.filterMap_eq_nil_iff]
  intro r hmem
  rcases List.mem_cons.1 hmem with rfl | hmem
  · exact hn c (hd c hc)
  · rw [hr r hmem]
    simp [next?, (hd c hc).1]

/-- A number is preferred to a bare word. -/
theorem survivors_document_of_number {stage : Number.Stage}
    (h : Recognizer.anyNumber.read? text = some (.number stage)) :
    ∃ rivals, survivors document text = .number stage :: rivals ∧
      ∀ r ∈ rivals, r = .identifier := by
  cases text with
  | nil => cases h
  | cons c text =>
    have hsurv : survivors document (c :: text) =
        (begin document c).filterMap (·.follow? text) := by
      rw [← survivors_singleton, ← survivors_append (by simp), List.singleton_append]
    obtain ⟨r, hr, hf⟩ := Option.bind_eq_some_iff.1 h
    by_cases hm : c = '-'
    · subst hm
      have hb : begin document '-' = [.number .sign] := by decide
      cases hr
      exact ⟨[], by simp [hsurv, hb, hf], by simp⟩
    · by_cases hd : c.isDigit = true
      · have hr : some (number .integer) = some r := by
          simpa [anyNumber, begin?, Number.first?, hm, hd] using hr
        cases hr
        refine ⟨[identifier].filterMap (·.follow? text), ?_, fun r hmem => ?_⟩
        · rw [hsurv, begin_document_of_isDigit hd, List.filterMap_cons]
          simp only [hf]
        · obtain ⟨s, hs, hfollow⟩ := List.mem_filterMap.1 hmem
          rw [List.mem_singleton.1 hs] at hfollow
          have hfresh := fresh_of_follow? hfollow
          cases r <;> simp [fresh] at hfresh
          rfl
      · simp [anyNumber, begin?, Number.first?, hm, hd] at hr

theorem munches_number {stage : Number.Stage}
    (h : Recognizer.anyNumber.read? text = some (.number stage))
    (hc : Number.isComplete stage = true) (hd : ∀ c ∈ rest.head?, Delimits c) :
    Munches document text rest (.number stage) := by
  obtain ⟨rivals, hs, hr⟩ := survivors_document_of_number h
  refine munches_of_rivals hs hr (fun c hdel => ?_) hd
  have hword := hdel.1
  have hdigit := hdel.isDigit_eq_false
  have hlower : c ≠ 'e' := by
    intro he
    exact absurd hword (he ▸ by decide)
  have hupper : c ≠ 'E' := by
    intro he
    exact absurd hword (he ▸ by decide)
  cases stage <;>
    simp [next?, Number.next?, Number.isComplete, hdigit, hlower, hupper, hdel.2] at hc ⊢

theorem munches_keyword {words : List (List Char)} {role : Role}
    (hs : survivors document text =
      [.keyword words role (.matching text (Keyword.byteSize text)), .identifier])
    (hd : ∀ c ∈ rest.head?, Delimits c) :
    Munches document text rest (.keyword words role (.matching text (Keyword.byteSize text))) := by
  refine munches_of_rivals hs (by simp) (fun c _ => ?_) hd
  have hdrop : Keyword.dropBytes? text (Keyword.byteSize text) = some [] := by
    simpa using Keyword.dropBytes?_append text []
  simp [next?, Keyword.next?, hdrop]

theorem munches_boolean (h : ScalarKind.boolean.Spells text)
    (hd : ∀ c ∈ rest.head?, Delimits c) :
    Munches document text rest (.keyword ["true".toList, "false".toList] (.scalar .boolean)
      (.matching text (Keyword.byteSize text))) := by
  have hs : survivors document text = [.keyword ["true".toList, "false".toList]
      (.scalar .boolean) (.matching text (Keyword.byteSize text)), .identifier] := by
    rcases h with rfl | rfl <;> decide
  exact munches_keyword hs hd

theorem munches_null (h : ScalarKind.null.Spells text) (hd : ∀ c ∈ rest.head?, Delimits c) :
    Munches document text rest (.keyword ["null".toList] (.scalar .null)
      (.matching text (Keyword.byteSize text))) := by
  have hs : survivors document text = [.keyword ["null".toList]
      (.scalar .null) (.matching text (Keyword.byteSize text)), .identifier] := by
    cases h
    decide
  exact munches_keyword hs hd

/-- A scalar is munched whole if what follows ends a number or a word, another lexeme in any
case. -/
theorem munches_lexeme (a : Lexeme) (hd : a.role.isScalar = true → ∀ c ∈ rest.head?, Delimits c) :
    ∃ owner, Munches document a.text rest owner ∧ owner.isComplete = true ∧
      owner.role = a.role ∧ owner.category.isTrivia = false := by
  obtain ⟨role, text, hs⟩ := a
  cases role with
  | opening c | closing c =>
    cases c <;> cases hs
    · exact ⟨_, munches_symbol (by decide), rfl, rfl, rfl⟩
    · exact ⟨_, munches_symbol (by decide), rfl, rfl, rfl⟩
  | separator | assignment =>
    cases hs
    exact ⟨_, munches_symbol (by decide), rfl, rfl, rfl⟩
  | scalar kind =>
    have hrest : ∀ c ∈ rest.head?, Delimits c := hd rfl
    cases kind with
    | string => exact ⟨_, munches_string hs, rfl, rfl, rfl⟩
    | integer => exact ⟨_, munches_number (read?_number_integer hs _) rfl hrest, rfl, rfl, rfl⟩
    | real =>
      rcases read?_number_real hs .integer with hread | hread
      · exact ⟨_, munches_number hread rfl hrest, rfl, rfl, rfl⟩
      · exact ⟨_, munches_number hread rfl hrest, rfl, rfl, rfl⟩
    | boolean => exact ⟨_, munches_boolean hs hrest, beq_self_eq_true _, rfl, rfl⟩
    | null => exact ⟨_, munches_null hs hrest, beq_self_eq_true _, rfl, rfl⟩
  | word | comment | whiteSpace | custom => exact absurd hs (by simp [Role.Spells])

/-- Behind its marker only the recognizer of a line comment is left. -/
theorem exists_survivors_of_isLineComment (h : IsLineComment text) :
    ∃ marker opener line, text = opener ++ line ∧ '\n' ∉ line ∧
      survivors document opener = [.lineComment marker .body] := by
  obtain ⟨line, hl, rfl | rfl⟩ := h
  · exact ⟨.hash, ['#'], line, rfl, hl, by decide⟩
  · exact ⟨.doubleSlash, ['/', '/'], line, rfl, hl, by decide⟩

/-- A comment with its end is munched whole wherever it stands. -/
theorem munches_comment (h : IsComment text) :
    ∃ owner, Munches document text rest owner ∧ owner.isComplete = true ∧
      owner.category = .comment := by
  rcases h with ⟨body, rfl, hn⟩ | ⟨line, hline, rfl⟩
  · have hs : survivors document ['/', '*'] = [.blockComment .body] := by decide
    have hf := (follow?_blockComment_eq_closed_iff (body ++ ['*', '/'])).1.2 ⟨body, rfl, hn⟩
    exact ⟨_, munches_of_survivors_eq_singleton ['/', '*'] _ hs hf fun _ _ => rfl, rfl, rfl⟩
  · obtain ⟨marker, opener, line, rfl, hl, hs⟩ := exists_survivors_of_isLineComment hline
    have hf : (lineComment marker .body).follow? (line ++ ['\n']) =
        some (lineComment marker .closed) := by
      rw [follow?_append, follow?_lineComment_body hl]
      rfl
    refine ⟨lineComment marker .closed, ?_, rfl, rfl⟩
    rw [List.append_assoc]
    exact munches_of_survivors_eq_singleton opener _ hs hf fun _ _ => rfl

/-- The end of the text stands for the newline. -/
theorem munches_lineComment (h : IsLineComment text) :
    ∃ owner, Munches document text [] owner ∧ owner.isComplete = true ∧
      owner.category = .comment := by
  obtain ⟨marker, opener, line, rfl, hl, hs⟩ := exists_survivors_of_isLineComment h
  have hf : (lineComment marker .body).follow? line = some (lineComment marker .body) :=
    follow?_lineComment_body hl
  exact ⟨_, munches_of_survivors_eq_singleton opener line hs hf (by simp), rfl, rfl⟩

end

section
variable {text rest : List Char} {owner : Recognizer}

/-- The owner has read the text from its beginning. -/
theorem Munches.fresh_mem_document (h : Munches document text rest owner) :
    owner.fresh ∈ document ∧ owner.fresh.read? text = some owner := by
  obtain ⟨r, hr, hread⟩ := h.exists_mem
  have hfresh : ∀ r ∈ document, r.fresh = r := by decide
  rw [fresh_of_read? hread, hfresh r hr]
  exact ⟨hr, hread⟩

/-- A comment that waits for its newline has nothing behind it. -/
theorem Munches.rest_eq_nil {lexicon : Lexicon} {marker : LineComment.Marker}
    (h : Munches lexicon text rest (.lineComment marker .body)) : rest = [] := by
  cases rest with
  | nil => rfl
  | cons c rest =>
    obtain ⟨rivals, hr⟩ := h.exists_rivals
    have hstop := h.stops c rfl
    rw [survivors_append_singleton h.ne_nil, hr, narrow, List.filterMap_eq_nil_iff] at hstop
    have hnone := hstop _ (List.mem_cons_self ..)
    by_cases hc : c = '\n' <;> simp [next?, LineComment.next?, hc] at hnone

theorem keyword_mem_document {words : List (List Char)} {role : Role} {stage : Keyword.Stage}
    (h : keyword words role stage ∈ document) :
    words = ["true".toList, "false".toList] ∧ role = .scalar .boolean ∨
      words = ["null".toList] ∧ role = .scalar .null := by
  simp [document, hashComment, slashComment, enclosedComment, anyNumber, boolean, null, anyOf,
    string, comma, colon, opening, closing] at h
  rcases h with ⟨rfl, rfl, rfl⟩ | ⟨rfl, rfl, rfl⟩
  · exact .inl ⟨rfl, rfl⟩
  · exact .inr ⟨rfl, rfl⟩

/-- Every symbol of documents is the lexeme of its role. -/
theorem spells_of_symbol_mem_document {c : Char} {role : Role} (h : symbol c role ∈ document) :
    role.Spells [c] := by
  simp [document, hashComment, slashComment, enclosedComment, anyNumber, boolean, null, anyOf,
    string, comma, colon, opening, closing] at h
  rcases h with ⟨rfl, rfl⟩ | ⟨rfl, rfl⟩ | ⟨rfl, rfl⟩ | ⟨rfl, rfl⟩ | ⟨rfl, rfl⟩ | ⟨rfl, rfl⟩
  all_goals rfl

/-- A token of a document is a lexeme of its role or a bare word, and a comment is trivia. -/
theorem Munches.document_cases (h : Munches document text rest owner)
    (hc : owner.isComplete = true) :
    owner.category.isTrivia = false ∧ (owner.role = .word ∨ owner.role.Spells text) ∨
      owner.category.isTrivia = true ∧ (IsComment text ∨ IsLineComment text ∧ rest = []) := by
  obtain ⟨hmem, hread⟩ := h.fresh_mem_document
  cases owner with
  | lineComment marker stage =>
    refine .inr ⟨rfl, ?_⟩
    rcases of_read?_lineComment hread hc with ⟨rfl, hline⟩ | hcomment
    · exact .inr ⟨hline, h.rest_eq_nil⟩
    · exact .inl hcomment
  | blockComment stage =>
    cases stage with
    | closed => exact .inr ⟨rfl, .inl (.inl (read?_blockComment_eq_closed_iff.1 hread))⟩
    | opener | body | star => cases hc
  | whiteSpace => exact absurd hmem (by decide)
  | number stage => exact .inl ⟨rfl, .inr (spells_of_read?_number hread hc)⟩
  | keyword words role stage =>
    have hword := mem_of_read?_keyword hread hc
    refine .inl ⟨rfl, .inr ?_⟩
    rcases keyword_mem_document hmem with ⟨rfl, rfl⟩ | ⟨rfl, rfl⟩
    · simpa [Recognizer.role, Role.Spells, ScalarKind.Spells] using hword
    · simpa [Recognizer.role, Role.Spells, ScalarKind.Spells] using hword
  | quotation stage =>
    cases stage with
    | closed => exact .inl ⟨rfl, .inr (read?_quotation_eq_closed_iff.1 hread)⟩
    | body | escape => cases hc
  | identifier => exact .inl ⟨rfl, .inl rfl⟩
  | symbol c role =>
    have htext : text = [c] := eq_singleton_of_read?_symbol hread
    subst htext
    exact .inl ⟨rfl, .inr (spells_of_symbol_mem_document hmem)⟩

end

end Lexicon

end LaxJson
