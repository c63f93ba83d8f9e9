import LaxJson.Proofs.Scan.Enclosed

/-!
# Cutting a document directly

Numbers, keywords and bare words compete for a text; the one that goes on the longest leads, and
`Piece.ofWord` says which that is. With the pieces that a mark ends, the lexicon of documents
munches exactly what `Piece.cut?` cuts (`Piece.exists_cut?_of_munches`), so that in every state
that calls lead to, a scanner of documents answers with the piece at the front of what is left
(`Scanner.next_document`).
-/
namespace LaxJson
open Lexicon

namespace Piece
open Recognizer Descriptor

/-- A mark in a number is that of a fraction or of an exponent. -/
theorem numberKind_eq_real {text : List Char} {c : Char} (h : c ∈ text)
    (hc : c = '.' ∨ c = 'e' ∨ c = 'E') : numberKind text = .real := by
  rw [numberKind, if_pos]
  rcases hc with rfl | rfl | rfl
  · exact .inl h
  · exact .inr (.inl h)
  · exact .inr (.inr h)

theorem numberKind_eq_integer {text : List Char} (h : IsInteger text) :
    numberKind text = .integer := by
  obtain ⟨sign, digits, rfl, hsign, -, hdigits⟩ := h
  have hnot : ∀ c ∈ sign ++ digits, c = '-' ∨ c.isDigit = true := by
    intro c hc
    rcases List.mem_append.1 hc with hc | hc
    · rcases hsign with rfl | rfl
      · cases hc
      · exact .inl (List.mem_singleton.1 hc)
    · exact .inr (hdigits c hc)
  rw [numberKind, if_neg]
  rintro (hc | hc | hc)
  · exact absurd (hnot _ hc) (by decide)
  · exact absurd (hnot _ hc) (by decide)
  · exact absurd (hnot _ hc) (by decide)

theorem kind_eq_numberKind {text : List Char} {stage : Number.Stage}
    (h : anyNumber.read? text = some (number stage)) : Number.kind stage = numberKind text := by
  have hread := hasRead_of_read?_number h
  symm
  cases stage with
  | sign =>
    have hread : text = ['-'] := hread
    subst hread
    rfl
  | integer => exact numberKind_eq_integer hread
  | point =>
    obtain ⟨whole, rfl, -⟩ := hread
    exact numberKind_eq_real (List.mem_append_right _ (List.mem_singleton_self _)) (.inl rfl)
  | fraction =>
    obtain ⟨whole, _, rfl, -, digits, rfl, -⟩ := hread
    exact numberKind_eq_real (List.mem_append_right _ (List.mem_cons_self ..)) (.inl rfl)
  | exponentMark =>
    obtain ⟨mantissa, mark, rfl, -, hmark⟩ := hread
    exact numberKind_eq_real (List.mem_append_right _ (List.mem_cons_self ..)) (.inr hmark)
  | exponentSign =>
    obtain ⟨mantissa, mark, sign, rfl, -, hmark, -⟩ := hread
    exact numberKind_eq_real (List.mem_append_right _ (List.mem_cons_self ..)) (.inr hmark)
  | exponent =>
    obtain ⟨mantissa, _, rfl, -, mark, sign, digits, rfl, hmark, -⟩ := hread
    exact numberKind_eq_real (List.mem_append_right _ (List.mem_cons_self ..)) (.inr hmark)

theorem keywordKind_eq_boolean {text left : List Char} (ht : text ≠ [])
    (h : text ++ left ∈ ["true", "false"].map String.toList) : keywordKind text = .boolean := by
  obtain ⟨c, text, rfl⟩ := List.exists_cons_of_ne_nil ht
  have hhead : ∀ word ∈ ["true", "false"].map String.toList, word.head? ≠ some 'n' := by decide
  rw [keywordKind, if_neg]
  intro hp
  have hc : c = 'n' := (List.cons_prefix_cons.1 hp).1
  exact hhead _ h (by simp [hc])

theorem keywordKind_eq_null {text left : List Char}
    (h : text ++ left ∈ ["null"].map String.toList) : keywordKind text = .null := by
  rw [keywordKind, if_pos]
  exact ⟨left, List.mem_singleton.1 h⟩

/-- No keyword begins another. -/
theorem eq_nil_of_append_mem_keywords {text left : List Char} (h : text ∈ keywords)
    (h' : text ++ left ∈ keywords) : left = [] := by
  simp only [keywords, List.mem_cons, List.not_mem_nil, or_false] at h
  rcases h with rfl | rfl | rfl <;> simpa [keywords] using h'

/-- A keyword is whole where its machine has come to the end of the word. -/
theorem isComplete_keyword {words : List (List Char)} {role : Role} {text left : List Char}
    (h : text ++ left ∈ keywords) :
    (keyword words role (.matching (text ++ left) (Keyword.byteSize text))).isComplete =
      decide (text ∈ keywords) := by
  rw [Bool.eq_iff_iff, decide_eq_true_iff]
  refine Keyword.isComplete_matching_iff.trans ⟨fun hl => ?_, fun hm => ?_⟩
  · rwa [hl, List.append_nil] at h
  · exact eq_nil_of_append_mem_keywords hm h

/-- The characters that tell the class of their token, the minus and those of words aside. -/
def markers : List Char := ['#', '/', '"', '{', '}', '[', ']', ',', ':']

theorem notMem_markers {c : Char} (hc : c = '-' ∨ isWordChar c = true) : c ∉ markers := by
  have hmarkers : markers.all (fun d => d != '-' && !isWordChar d) = true := by decide
  intro hmem
  have hmarker := List.all_eq_true.1 hmarkers c hmem
  simp only [Bool.and_eq_true, bne_iff_ne, Bool.not_eq_true'] at hmarker
  obtain ⟨hminus, hword⟩ := hmarker
  rcases hc with hc | hc
  · exact hminus hc
  · rw [hword] at hc
    cases hc

/-- Only numbers, keywords and bare words begin with another character. -/
theorem eq_of_begin?_ne_none {c : Char} {r : Recognizer} (hc : c ∉ markers) (hr : r ∈ document)
    (hb : r.begin? c ≠ none) : r = anyNumber ∨ r = boolean ∨ r = null ∨ r = identifier := by
  simp only [document, List.mem_cons, List.not_mem_nil, or_false] at hr
  simp only [markers, List.mem_cons, List.not_mem_nil, or_false, not_or] at hc
  rcases hr with rfl | rfl | rfl | rfl | rfl | rfl | rfl | rfl | rfl | rfl | rfl | rfl | rfl | rfl
  all_goals simp_all [hashComment, slashComment, enclosedComment, comma, colon, string, opening,
    closing, begin?, LineComment.first?, BlockComment.first?, Quotation.first?]

theorem begin_eq_nil_of_notMem_markers {c : Char} (hc : c ∉ markers) (hminus : c ≠ '-')
    (hw : isWordChar c = false) : begin document c = [] := by
  have hne : ∀ d, isWordChar d = true → d ≠ c := by
    rintro d hd rfl
    rw [hw] at hd
    cases hd
  have hdigit : c.isDigit = false := by
    by_contra hd
    have hword : isWordChar c = true :=
      forall_of_isDigit (P := fun c => isWordChar c = true) (by decide) (by simpa using hd)
    exact hne c hword rfl
  rw [begin, List.filterMap_eq_nil_iff]
  intro r hr
  by_contra hb
  rcases eq_of_begin?_ne_none hc hr hb with rfl | rfl | rfl | rfl
  · simp [anyNumber, begin?, Number.first?, hminus, hdigit] at hb
  · have ht := hne 't' (by decide)
    have hf := hne 'f' (by decide)
    simp [boolean, anyOf, begin?, Keyword.first?, ht, hf] at hb
  · have hn := hne 'n' (by decide)
    simp [null, anyOf, begin?, Keyword.first?, hn] at hb
  · simp [begin?, hw] at hb

/-- With the lexicon of documents one of the four leads where the text begins so. -/
theorem exists_leads_document {c : Char} {x : List Char} (hc : c = '-' ∨ isWordChar c = true) :
    ∃ text rest owner r, c :: x = text ++ rest ∧ Munches document text rest owner ∧
      Leads document (text ++ rest) r ∧ reach r (text ++ rest) = text.length ∧
      r.read? text = some owner ∧ (r = anyNumber ∨ r = boolean ∨ r = null ∨ r = identifier) := by
  have hb : begin document c ≠ [] := by
    intro hnil
    have hnone := List.filterMap_eq_nil_iff.1 hnil
    rcases hc with rfl | hc
    · exact absurd (hnone anyNumber (by decide)) (by decide)
    · have hidentifier := hnone identifier (by decide)
      simp [begin?, hc] at hidentifier
  obtain ⟨text, rest, owner, he, hm⟩ := exists_munches hb x
  obtain ⟨r, hleads, hreach, rfl⟩ := hm.exists_leads
  have hpos : 0 < text.length := List.length_pos_of_ne_nil hm.ne_nil
  have hread : r.read? text = some (shown r text) := by
    have htake := r.read?_take (x := text ++ rest) hpos (by simp)
    rwa [List.take_left, if_pos hreach.ge] at htake
  refine ⟨text, rest, _, r, he, hm, hleads, hreach, hread,
    eq_of_begin?_ne_none (notMem_markers hc) ?_ ?_⟩
  · obtain ⟨before, after, hlex, -⟩ := hleads
    simp [hlex]
  · rw [Ne, ← reach_eq_zero_iff r c x, he]
    omega

theorem isCutFrom_ofWord {c : Char} {x : List Char} (hc : c = '-' ∨ isWordChar c = true) :
    (ofWord (c :: x)).IsCutFrom (c :: x) := by
  obtain ⟨text, rest, owner, r, he, hm, hleads, hreach, hread, hr⟩ :=
    exists_leads_document (x := x) hc
  rw [he]
  have hnumber : reach anyNumber (text ++ rest) ≤ text.length :=
    hreach ▸ hleads.reach_le (by decide)
  have hboolean : reach boolean (text ++ rest) ≤ text.length :=
    hreach ▸ hleads.reach_le (by decide)
  have hnull : reach null (text ++ rest) ≤ text.length := hreach ▸ hleads.reach_le (by decide)
  have hidentifier : reach identifier (text ++ rest) ≤ text.length :=
    hreach ▸ hleads.reach_le (by decide)
  have hlength : max (reach anyNumber (text ++ rest)) (max (max (reach boolean (text ++ rest))
      (reach null (text ++ rest))) (reach identifier (text ++ rest))) = text.length := by
    rcases hr with rfl | rfl | rfl | rfl <;> omega
  rw [ofWord, longest_beginsNumber, longest_beginsKeyword, ← reach_identifier, hlength,
    List.take_left]
  rcases hr with rfl | rfl | rfl | rfl
  · obtain ⟨stage, rfl⟩ := exists_stage_of_read?_number hread
    rw [if_pos hreach]
    refine isCutFrom_append hm rfl rfl ?_ ?_
    · rw [← kind_eq_numberKind hread]
      rfl
    · rw [Bool.eq_iff_iff, decide_eq_true_iff, isNumber_iff_isComplete hread]
      rfl
  · have hlt : reach anyNumber (text ++ rest) < text.length :=
      hreach ▸ hleads.reach_lt (by decide)
    obtain ⟨left, hmem, rfl⟩ := exists_word_of_read?_keyword hread
    have hsub : ∀ word ∈ ["true", "false"].map String.toList, word ∈ keywords := by decide
    rw [if_neg hlt.ne, if_pos (by omega), keywordKind_eq_boolean hm.ne_nil hmem]
    exact isCutFrom_append hm rfl rfl rfl (isComplete_keyword (hsub _ hmem))
  · have hlt : reach anyNumber (text ++ rest) < text.length :=
      hreach ▸ hleads.reach_lt (by decide)
    obtain ⟨left, hmem, rfl⟩ := exists_word_of_read?_keyword hread
    have hsub : ∀ word ∈ ["null"].map String.toList, word ∈ keywords := by decide
    rw [if_neg hlt.ne, if_pos (by omega), keywordKind_eq_null hmem]
    exact isCutFrom_append hm rfl rfl rfl (isComplete_keyword (hsub _ hmem))
  · have hlt : reach anyNumber (text ++ rest) < text.length :=
      hreach ▸ hleads.reach_lt (by decide)
    have hltb : reach boolean (text ++ rest) < text.length :=
      hreach ▸ hleads.reach_lt (by decide)
    have hltn : reach null (text ++ rest) < text.length :=
      hreach ▸ hleads.reach_lt (by decide)
    have howner : owner = identifier := by
      have hfresh := fresh_of_read? hread
      cases owner <;> first | rfl | cases hfresh
    subst howner
    rw [if_neg hlt.ne, if_neg (by omega)]
    exact isCutFrom_append hm rfl rfl rfl rfl

theorem isCutFrom_of_cut? {x : List Char} {p : Piece} (h : cut? x = some p) : p.IsCutFrom x := by
  revert h
  fun_cases cut? x <;> intro h
  case case1 x =>
    cases h
    exact isCutFrom_ofLineComment (.inl rfl) x
  case case2 x =>
    cases h
    exact isCutFrom_ofLineComment (.inr rfl) x
  case case3 x =>
    cases h
    exact isCutFrom_ofBlockComment x
  case case4 x hslash hstar =>
    cases h
    exact isCutFrom_slash hslash hstar
  case case5 x =>
    cases h
    exact isCutFrom_ofString x
  case case12 =>
    cases h
    exact isCutFrom_ofWord (by assumption)
  case case13 | case14 => cases h
  all_goals
    cases h
    exact isCutFrom_ofSymbol _ (by decide)

/-- Where no piece begins, no recognizer does. -/
theorem begin_eq_nil_of_cut? {c : Char} {x : List Char} (h : cut? (c :: x) = none) :
    begin document c = [] := by
  unfold cut? at h
  split at h
  case h_12 he =>
    cases he
    split at h
    · cases h
    · rename_i hw
      rw [not_or, Bool.not_eq_true] at hw
      refine begin_eq_nil_of_notMem_markers ?_ hw.1 hw.2
      simp_all [markers]
  case h_13 he => cases he
  all_goals cases h

theorem cut?_eq_none_iff (c : Char) (x : List Char) :
    cut? (c :: x) = none ↔ begin document c = [] := by
  refine ⟨begin_eq_nil_of_cut?, fun hnil => ?_⟩
  cases hcut : cut? (c :: x) with
  | none => rfl
  | some p =>
    obtain ⟨owner, hm, -⟩ := isCutFrom_of_cut? hcut
    exact absurd hnil (hm.begin_ne_nil (List.take_append_drop ..))

/-- What is munched is the piece. -/
theorem exists_cut?_of_munches {text rest : List Char} {owner : Recognizer}
    (h : Munches document text rest owner) (done : List Char) :
    ∃ p, cut? (text ++ rest) = some p ∧ owner.token done text = p.token done (text ++ rest) := by
  obtain ⟨c, more, rfl⟩ := List.exists_cons_of_ne_nil h.ne_nil
  cases hcut : cut? (c :: more ++ rest) with
  | none => exact absurd ((cut?_eq_none_iff c (more ++ rest)).1 hcut) (h.begin_ne_nil rfl)
  | some p =>
    obtain ⟨owner', hm, hcategory, hrole, hwhole⟩ := isCutFrom_of_cut? hcut
    obtain ⟨htext, -, rfl⟩ := h.unique hm (List.take_append_drop ..).symm
    refine ⟨p, rfl, ?_⟩
    rw [token, ← htext, ← hcategory, ← hrole, ← hwhole]
    rfl

end Piece

namespace Scanner

/-- In every state that calls lead to, where white space is passed over, `c :: x` follows it up to
the end or a failure of the input, and no read of this call fails, a scanner of documents answers
with the piece that is cut from the front of `c :: x` directly: with the token if it is whole, and
else with what there is of it. Where no piece begins with `c` there is nothing to match it. -/
theorem next_document {options : Options} {s : Scanner} (hs : s.Reached document options)
    (hskip : options.skipWhiteSpace = true) {input : Input} {gap x : List Char} {c : Char}
    (hx : (s.ahead input).readable = gap ++ c :: x)
    (hg : ∀ b ∈ gap, Text.WhiteSpace.isBlank b = true) (hc : Text.WhiteSpace.isBlank c = false)
    (hr : ∀ f, (s.next input).1 = .error f → f.isReadFault = false) :
    ∃ done, s.position = .after done ∧
      (s.next input).1 =
        match Piece.cut? (c :: x) with
        | some p => (p.token (done ++ gap) (c :: x)).map some
        | none => .error (.noMatch c (.after (done ++ gap))) := by
  obtain ⟨done, hstands⟩ := hs.exists_stands
  obtain ⟨hlexicon, hskips⟩ := hs.keeps
  have hblank : s.skips = Text.WhiteSpace.isBlank := by
    rw [hskips]
    funext b
    simp [skips, ofOptions, reset, moveTo, hskip]
  refine ⟨done, hstands.position_eq, ?_⟩
  rcases hstands.next_munches hx (by rwa [hblank]) (by rwa [hblank]) hr with
    ⟨hnil, hnext⟩ | ⟨text, rest, owner, hcx, hm, hnext⟩
  · rw [← begin_map_fresh, hlexicon, begin_map_fresh] at hnil
    rw [hnext, (Piece.cut?_eq_none_iff c x).2 hnil]
  · rw [← munches_map_fresh, hlexicon, munches_map_fresh] at hm
    obtain ⟨p, hcut, htoken⟩ := Piece.exists_cut?_of_munches hm (done ++ gap)
    rw [hnext, hcx, hcut, htoken]

/-- A number that owes a digit is preferred to the bare word that goes on as far, and ends where
neither goes on. -/
theorem next_document_exponent :
    ((ofOptions document {}).ahead (.ofString " 1e+x")).readable = [' '] ++ '1' :: "e+x".toList ∧
      ((ofOptions document {}).next (.ofString " 1e+x")).1 =
        .error (.incomplete (.scalar .real) "1e+".toList ⟨⟨0, 1⟩, ⟨0, 3⟩⟩) ∧
      ∃ done, (ofOptions document {}).position = .after done ∧
        ((ofOptions document {}).next (.ofString " 1e+x")).1 =
          match Piece.cut? "1e+x".toList with
          | some p => (p.token (done ++ [' ']) "1e+x".toList).map some
          | none => .error (.noMatch '1' (.after (done ++ [' ']))) := by
  have hx : ((ofOptions document {}).ahead (.ofString " 1e+x")).readable =
      [' '] ++ '1' :: "e+x".toList := by decide
  have hnext : ((ofOptions document {}).next (.ofString " 1e+x")).1 =
      .error (.incomplete (.scalar .real) "1e+".toList ⟨⟨0, 1⟩, ⟨0, 3⟩⟩) := by decide
  have hr : ∀ f, ((ofOptions document {}).next (.ofString " 1e+x")).1 = .error f →
      f.isReadFault = false := by
    intro f hf
    rw [hnext] at hf
    cases hf
    rfl
  have hg : ∀ b ∈ [' '], Text.WhiteSpace.isBlank b = true := List.forall_mem_singleton.2 (by decide)
  exact ⟨hx, hnext, next_document .ofOptions rfl hx hg (by decide) hr⟩

end Scanner

end LaxJson
