import LaxJson.Proofs.Lexeme
import LaxJson.Proofs.Scan.Munch
import Mathlib.Data.List.Nodup

/-!
# What the recognizers read

For every class of tokens, what its stages have read when they are reached, and the texts
that lead to the stages at which a token is whole. Reading never changes the class
(`fresh_of_read?`), so it is enough to look at each machine on its own.
-/
namespace LaxJson
open Lexicon

@[simp] theorem Lexicon.Keyword.byteSize_append (text more : List Char) :
    byteSize (text ++ more) = byteSize text + byteSize more := by
  induction text with
  | nil => simp
  | cons c text ih => simp [ih, Nat.add_assoc]

theorem Lexicon.Keyword.eq_nil_of_byteSize_eq_zero {text : List Char} (h : byteSize text = 0) :
    text = [] := by
  cases text with
  | nil => rfl
  | cons c text =>
    have hpos := c.utf8Size_pos
    rw [byteSize_cons] at h
    omega

/-- A keyword is whole when nothing is left of its word. -/
theorem Lexicon.Keyword.isComplete_matching_iff {done left : List Char} :
    isComplete (.matching (done ++ left) (byteSize done)) = true ↔ left = [] := by
  rw [isComplete, beq_iff_eq, byteSize_append]
  constructor
  · intro h
    apply eq_nil_of_byteSize_eq_zero
    omega
  · rintro rfl
    simp

namespace Recognizer

theorem follow?_lineComment_body {marker : LineComment.Marker} {line : List Char}
    (h : '\n' ∉ line) :
    (lineComment marker .body).follow? line = some (lineComment marker .body) := by
  induction line with
  | nil => rfl
  | cons c line ih =>
    obtain ⟨hc, hl⟩ := not_or.1 (mt List.mem_cons.2 h)
    simp [next?, LineComment.next?, Ne.symm hc, ih hl]

/-- The body of a line comment goes on up to a newline, which ends it. -/
theorem of_follow?_lineComment_body {marker : LineComment.Marker} {text : List Char}
    {stage : LineComment.Stage}
    (h : (lineComment marker .body).follow? text = some (lineComment marker stage)) :
    ∃ line, '\n' ∉ line ∧
      (stage = .body ∧ text = line ∨ stage = .closed ∧ text = line ++ ['\n']) := by
  induction text with
  | nil =>
    cases h
    exact ⟨[], by simp, .inl ⟨rfl, rfl⟩⟩
  | cons c text ih =>
    by_cases hc : c = '\n'
    · subst hc
      cases text with
      | nil =>
        cases h
        exact ⟨[], by simp, .inr ⟨rfl, rfl⟩⟩
      | cons => cases h
    · have hnext : (lineComment marker .body).next? c = some (lineComment marker .body) := by
        simp [next?, LineComment.next?, hc]
      rw [follow?_cons, hnext, Option.bind_some] at h
      obtain ⟨line, hl, hstage⟩ := ih h
      refine ⟨c :: line, by simp [Ne.symm hc, hl], ?_⟩
      simpa using hstage

/-- A line comment without or with its newline, by its stage. -/
theorem of_read?_lineComment {marker : LineComment.Marker} {text : List Char}
    {start stage : LineComment.Stage}
    (h : (lineComment marker start).read? text = some (lineComment marker stage))
    (hc : LineComment.isComplete stage = true) :
    stage = .body ∧ IsLineComment text ∨ IsComment text := by
  cases text with
  | nil => cases h
  | cons c text =>
    cases marker with
    | hash =>
      by_cases hh : c = '#'
      · subst hh
        obtain ⟨line, hl, ⟨hs, rfl⟩ | ⟨hs, rfl⟩⟩ := of_follow?_lineComment_body h
        · exact .inl ⟨hs, _, hl, .inl rfl⟩
        · exact .inr (.inr ⟨'#' :: line, ⟨line, hl, .inl rfl⟩, rfl⟩)
      · simp [begin?, LineComment.first?, hh] at h
    | doubleSlash =>
      by_cases hs : c = '/'
      · subst hs
        cases text with
        | nil =>
          cases h
          simp [LineComment.isComplete] at hc
        | cons d text =>
          by_cases hd : d = '/'
          · subst hd
            obtain ⟨line, hl, ⟨hs, rfl⟩ | ⟨hs, rfl⟩⟩ := of_follow?_lineComment_body h
            · exact .inl ⟨hs, _, hl, .inr rfl⟩
            · exact .inr (.inr ⟨'/' :: '/' :: line, ⟨line, hl, .inr rfl⟩, rfl⟩)
          · simp [begin?, LineComment.first?, next?, LineComment.next?, hd] at h
      · simp [begin?, LineComment.first?, hs] at h

/-- A text that ends with the first `*/` in it. -/
def EndsComment (text : List Char) : Prop :=
  ∃ body, text = body ++ ['*', '/'] ∧ ¬ ['*', '/'] <:+: body ++ ['*']

/-- A character that begins no `*/` does not matter. -/
theorem endsComment_cons {c : Char} {text : List Char} (h : ¬ ['*', '/'] <+: c :: text) :
    EndsComment (c :: text) ↔ EndsComment text := by
  constructor
  · intro ⟨body, he, hn⟩
    cases body with
    | nil =>
      rw [List.nil_append] at he
      exact absurd (he ▸ List.prefix_refl _) h
    | cons b body =>
      cases he
      exact ⟨body, rfl, fun hi => hn (List.infix_cons hi)⟩
  · intro ⟨body, he, hn⟩
    subst he
    refine ⟨c :: body, rfl, fun hi => ?_⟩
    rcases List.infix_cons_iff.1 hi with hp | hi
    · refine h (hp.trans ?_)
      rw [List.cons_prefix_cons]
      exact ⟨rfl, ['/'], by simp⟩
    · exact hn hi

theorem endsComment_star_slash {text : List Char} :
    EndsComment ('*' :: '/' :: text) ↔ text = [] := by
  constructor
  · intro ⟨body, he, hn⟩
    rcases body with _ | ⟨b, _ | ⟨d, body⟩⟩
    · simpa using he
    · simp at he
    · simp only [List.cons_append, List.cons.injEq] at he
      obtain ⟨rfl, rfl, _⟩ := he
      exact absurd (List.IsPrefix.isInfix ⟨body ++ ['*'], by simp⟩) hn
  · intro h
    subst h
    exact ⟨[], rfl, by simp [List.infix_cons_iff]⟩

/-- Behind a star the machine waits as if it had just begun with that star. -/
theorem follow?_blockComment_eq_closed_iff (text : List Char) :
    ((blockComment .body).follow? text = some (blockComment .closed) ↔ EndsComment text) ∧
    ((blockComment .star).follow? text = some (blockComment .closed) ↔
      EndsComment ('*' :: text)) := by
  induction text with
  | nil =>
    constructor
    · simp [EndsComment]
    · rw [endsComment_cons (by simp)]
      simp [EndsComment]
  | cons c text ih =>
    obtain ⟨ihb, ihs⟩ := ih
    by_cases hstar : c = '*'
    · subst hstar
      have hdrop : EndsComment ('*' :: '*' :: text) ↔ EndsComment ('*' :: text) :=
        endsComment_cons (by simp)
      rw [hdrop]
      exact ⟨ihs, ihs⟩
    · have hdrop : EndsComment (c :: text) ↔ EndsComment text :=
        endsComment_cons (by simp [Ne.symm hstar])
      have hbody : (blockComment .body).next? c = some (blockComment .body) := by
        simp [next?, BlockComment.next?, hstar]
      refine ⟨by rw [follow?_cons, hbody, Option.bind_some, ihb, hdrop], ?_⟩
      by_cases hslash : c = '/'
      · subst hslash
        rw [endsComment_star_slash]
        cases text <;> simp [next?, BlockComment.next?]
      · have hnext : (blockComment .star).next? c = some (blockComment .body) := by
          simp [next?, BlockComment.next?, hstar, hslash]
        rw [follow?_cons, hnext, Option.bind_some, ihb,
          endsComment_cons (by simp [Ne.symm hslash]), hdrop]

theorem read?_blockComment_eq_closed_iff {start : BlockComment.Stage} {text : List Char} :
    (blockComment start).read? text = some (blockComment .closed) ↔ IsBlockComment text := by
  constructor
  · intro h
    rcases text with _ | ⟨c, _ | ⟨d, text⟩⟩
    · cases h
    · by_cases hc : c = '/' <;> simp [begin?, BlockComment.first?, hc] at h
    · by_cases hc : c = '/'
      · by_cases hd : d = '*'
        · subst hc hd
          obtain ⟨body, rfl, hn⟩ := (follow?_blockComment_eq_closed_iff text).1.1 h
          exact ⟨body, rfl, hn⟩
        · simp [begin?, BlockComment.first?, hc, next?, BlockComment.next?, hd] at h
      · simp [begin?, BlockComment.first?, hc] at h
  · rintro ⟨body, he, hn⟩
    subst he
    exact (follow?_blockComment_eq_closed_iff _).1.2 ⟨body, rfl, hn⟩

theorem eq_singleton_of_read?_symbol {c : Char} {role : Role} {text : List Char} {r : Recognizer}
    (h : (symbol c role).read? text = some r) : text = [c] := by
  rcases text with _ | ⟨d, _ | ⟨e, text⟩⟩
  · cases h
  · by_cases hd : d = c
    · rw [hd]
    · simp [begin?, hd] at h
  · by_cases hd : d = c <;> simp [begin?, hd, next?] at h

/-- What is read up to the closing quotation mark, from the body and behind a backslash. -/
theorem of_follow?_quotation_eq_closed (text : List Char) :
    ((quotation .body).follow? text = some (quotation .closed) →
      ∃ body, text = body ++ ['"'] ∧ IsStringBody body) ∧
    ((quotation .escape).follow? text = some (quotation .closed) →
      ∃ c body, text = c :: (body ++ ['"']) ∧ IsStringBody body) := by
  induction text with
  | nil => simp
  | cons c text ih =>
    obtain ⟨ihb, ihe⟩ := ih
    constructor
    · intro h
      by_cases hb : c = '\\'
      · subst hb
        obtain ⟨d, body, rfl, hbody⟩ := ihe h
        exact ⟨'\\' :: d :: body, rfl, .escape d hbody⟩
      · by_cases hq : c = '"'
        · subst hq
          cases text with
          | nil => exact ⟨[], rfl, .nil⟩
          | cons => cases h
        · have hnext : (quotation .body).next? c = some (quotation .body) := by
            simp [next?, Quotation.next?, hb, hq]
          rw [follow?_cons, hnext, Option.bind_some] at h
          obtain ⟨body, rfl, hbody⟩ := ihb h
          exact ⟨c :: body, rfl, .plain hq hb hbody⟩
    · intro h
      obtain ⟨body, rfl, hbody⟩ := ihb h
      exact ⟨c, body, rfl, hbody⟩

theorem follow?_quotation_body {body : List Char} (h : IsStringBody body) :
    (quotation .body).follow? (body ++ ['"']) = some (quotation .closed) := by
  induction h with
  | nil => rfl
  | plain hq hb _ ih => simpa [next?, Quotation.next?, hq, hb] using ih
  | escape c _ ih => simpa [next?, Quotation.next?] using ih

theorem read?_quotation_eq_closed_iff {start : Quotation.Stage} {text : List Char} :
    (quotation start).read? text = some (quotation .closed) ↔ IsString text := by
  constructor
  · intro h
    cases text with
    | nil => cases h
    | cons c text =>
      by_cases hc : c = '"'
      · subst hc
        obtain ⟨body, rfl, hbody⟩ := (of_follow?_quotation_eq_closed text).1 h
        exact ⟨body, rfl, hbody⟩
      · simp [begin?, Quotation.first?, hc] at h
  · rintro ⟨body, he, hbody⟩
    subst he
    exact follow?_quotation_body hbody

/-- A keyword that has been read up to `left` goes on with the first character of `left`. -/
theorem next?_keyword {words : List (List Char)} {role : Role} {word done left : List Char}
    (hw : word = done ++ left) (c : Char) :
    (keyword words role (.matching word (Keyword.byteSize done))).next? c =
      if left.head? = some c then
        some (keyword words role (.matching word (Keyword.byteSize (done ++ [c]))))
      else none := by
  have hdrop : Keyword.dropBytes? word (Keyword.byteSize done) = some left := by simp [hw]
  have hsize : Keyword.byteSize (done ++ [c]) = Keyword.byteSize done + c.utf8Size := by simp
  rw [next?, Keyword.next?, hdrop, hsize, Option.bind_some]
  split <;> rfl

/-- A keyword that has been read up to `left` goes on with the beginnings of `left`. -/
theorem follow?_keyword {words : List (List Char)} {role : Role} {word done left : List Char}
    (hw : word = done ++ left) (text : List Char) :
    (keyword words role (.matching word (Keyword.byteSize done))).follow? text =
      if text <+: left then
        some (keyword words role (.matching word (Keyword.byteSize (done ++ text))))
      else none := by
  induction text generalizing done left with
  | nil => simp
  | cons c text ih =>
    rw [follow?_cons, next?_keyword hw]
    cases left with
    | nil => simp
    | cons d left =>
      by_cases hc : d = c
      · subst hc
        have hw' : word = done ++ [d] ++ left := by simp [hw]
        rw [List.head?_cons, if_pos rfl, Option.bind_some, ih hw', List.append_assoc,
          List.singleton_append]
        simp only [List.cons_prefix_cons, true_and]
      · simp [hc, Ne.symm hc]

/-- What a keyword has read is the beginning of one of the words. -/
theorem exists_word_of_read?_keyword {words : List (List Char)} {role : Role} {text : List Char}
    {start : Keyword.Stage} {r : Recognizer}
    (h : (keyword words role start).read? text = some r) :
    ∃ left, text ++ left ∈ words ∧
      r = keyword words role (.matching (text ++ left) (Keyword.byteSize text)) := by
  have hfresh := fresh_of_read? h
  obtain ⟨stage, rfl⟩ : ∃ stage, r = keyword words role stage := by
    cases r <;> cases hfresh
    exact ⟨_, rfl⟩
  cases text with
  | nil => cases h
  | cons c text =>
    obtain ⟨_, hb, hf⟩ := Option.bind_eq_some_iff.1 h
    obtain ⟨first, hfirst, rfl⟩ := Option.map_eq_some_iff.1 hb
    obtain ⟨word, hword, rfl⟩ := Option.map_eq_some_iff.1 hfirst
    have hmem : word ∈ words := List.mem_of_find?_eq_some hword
    have hhead : word.head? = some c := by simpa using List.find?_some hword
    obtain ⟨left, rfl⟩ := List.head?_eq_some_iff.1 hhead
    have hf' : (keyword words role (.matching (c :: left) (Keyword.byteSize [c]))).follow? text =
        some (keyword words role stage) := by simpa using hf
    have hw : c :: left = [c] ++ left := rfl
    rw [follow?_keyword hw] at hf'
    split at hf'
    · rename_i hp
      obtain ⟨left', rfl⟩ := hp
      cases hf'
      exact ⟨left', hmem, rfl⟩
    · cases hf'

/-- Words with different first characters are told apart by them. -/
theorem find?_head?_eq {words : List (List Char)} (hd : (words.map List.head?).Nodup)
    {word : List Char} (hmem : word ∈ words) {c : Char} (hc : word.head? = some c) :
    (words.find? fun w => w.head? == some c) = some word := by
  cases hfind : words.find? fun w => w.head? == some c with
  | none => simpa [hc] using List.find?_eq_none.1 hfind word hmem
  | some first =>
    have hfirst : first.head? = some c := by simpa using List.find?_some hfind
    have hin : first ∈ words := List.mem_of_find?_eq_some hfind
    rw [List.inj_on_of_nodup_map hd hin hmem (hfirst.trans hc.symm)]

/-- Of words with different first characters, a keyword reads the beginnings. -/
theorem read?_keyword {words : List (List Char)} (hd : (words.map List.head?).Nodup)
    {word text : List Char} (hmem : word ∈ words) (ht : text ≠ []) (hp : text <+: word)
    (role : Role) (start : Keyword.Stage) :
    (keyword words role start).read? text =
      some (keyword words role (.matching word (Keyword.byteSize text))) := by
  obtain ⟨left, rfl⟩ := hp
  obtain ⟨c, text, rfl⟩ := List.exists_cons_of_ne_nil ht
  have hbegin : (keyword words role start).begin? c =
      some (keyword words role (.matching (c :: text ++ left) (Keyword.byteSize [c]))) := by
    simp [begin?, Keyword.first?, find?_head?_eq hd hmem rfl]
  have hw : c :: text ++ left = [c] ++ (text ++ left) := rfl
  rw [read?_cons, hbegin, Option.bind_some, follow?_keyword hw, if_pos (List.prefix_append ..)]
  rfl

theorem isSome_read?_keyword_iff {words : List (List Char)} (hd : (words.map List.head?).Nodup)
    {text : List Char} (ht : text ≠ []) (role : Role) (start : Keyword.Stage) :
    ((keyword words role start).read? text).isSome = true ↔ ∃ word ∈ words, text <+: word := by
  constructor
  · intro h
    obtain ⟨r, hr⟩ := Option.isSome_iff_exists.1 h
    obtain ⟨left, hmem, -⟩ := exists_word_of_read?_keyword hr
    exact ⟨text ++ left, hmem, List.prefix_append ..⟩
  · rintro ⟨word, hmem, hp⟩
    rw [read?_keyword hd hmem ht hp, Option.isSome_some]

/-- A keyword is whole when it is one of the words. -/
theorem mem_of_read?_keyword {words : List (List Char)} {role : Role} {text : List Char}
    {start stage : Keyword.Stage}
    (h : (keyword words role start).read? text = some (keyword words role stage))
    (hc : Keyword.isComplete stage = true) : text ∈ words := by
  obtain ⟨left, hmem, hr⟩ := exists_word_of_read?_keyword h
  cases hr
  rwa [Keyword.isComplete_matching_iff.1 hc, List.append_nil] at hmem

end Recognizer

theorem isDigits_singleton {c : Char} (h : c.isDigit = true) : IsDigits [c] :=
  ⟨by simp, by simpa using h⟩

theorem IsDigits.concat {digits : List Char} {c : Char} (hd : IsDigits digits)
    (hc : c.isDigit = true) : IsDigits (digits ++ [c]) := by
  refine ⟨by simp, fun d h => ?_⟩
  rcases List.mem_append.1 h with h | h
  · exact hd.2 d h
  · exact (List.mem_singleton.1 h) ▸ hc

theorem IsDigits.of_cons {c d : Char} {digits : List Char} (h : IsDigits (c :: d :: digits)) :
    IsDigits (d :: digits) := by
  refine ⟨by simp, fun x hx => ?_⟩
  exact h.2 x (List.mem_cons_of_mem c hx)

/-- Texts of the form `-?digits(.digits)?`. -/
def IsMantissa (text : List Char) : Prop :=
  ∃ whole fraction, text = whole ++ fraction ∧ IsInteger whole ∧
    (fraction = [] ∨ IsFraction fraction)

/-- What a number has read when it reaches a stage. -/
def Lexicon.Number.Stage.HasRead : Stage → List Char → Prop
  | .sign, text => text = ['-']
  | .integer, text => IsInteger text
  | .point, text => ∃ whole, text = whole ++ ['.'] ∧ IsInteger whole
  | .fraction, text => ∃ whole fraction, text = whole ++ fraction ∧ IsInteger whole ∧
      IsFraction fraction
  | .exponentMark, text => ∃ mantissa mark, text = mantissa ++ [mark] ∧ IsMantissa mantissa ∧
      (mark = 'e' ∨ mark = 'E')
  | .exponentSign, text => ∃ mantissa mark sign, text = mantissa ++ [mark, sign] ∧
      IsMantissa mantissa ∧ (mark = 'e' ∨ mark = 'E') ∧ (sign = '+' ∨ sign = '-')
  | .exponent, text => ∃ mantissa exponent, text = mantissa ++ exponent ∧ IsMantissa mantissa ∧
      IsExponent exponent

namespace Lexicon.Number.Stage

theorem hasRead_of_first? {c : Char} {stage : Stage} (h : first? c = some stage) :
    stage.HasRead [c] := by
  unfold first? at h
  split at h
  · rename_i hc
    cases h
    show [c] = ['-']
    rw [hc]
  · split at h
    · rename_i hd
      cases h
      exact ⟨[], [c], rfl, .inl rfl, isDigits_singleton hd⟩
    · cases h

/-- A digit goes to the last part of what has been read. -/
theorem HasRead.digit {stage : Stage} {text : List Char} {c : Char} (h : stage.HasRead text)
    (hc : c.isDigit = true) : stage.digit.HasRead (text ++ [c]) := by
  cases stage with
  | sign =>
    have h : text = ['-'] := h
    subst h
    exact ⟨['-'], [c], rfl, .inr rfl, isDigits_singleton hc⟩
  | integer =>
    obtain ⟨sign, digits, rfl, hs, hd⟩ := h
    exact ⟨sign, digits ++ [c], by simp, hs, hd.concat hc⟩
  | point =>
    obtain ⟨whole, rfl, hw⟩ := h
    exact ⟨whole, ['.', c], by simp, hw, [c], rfl, isDigits_singleton hc⟩
  | fraction =>
    obtain ⟨whole, _, rfl, hw, digits, rfl, hd⟩ := h
    exact ⟨whole, '.' :: (digits ++ [c]), by simp, hw, digits ++ [c], rfl, hd.concat hc⟩
  | exponentMark =>
    obtain ⟨mantissa, mark, rfl, hm, he⟩ := h
    exact ⟨mantissa, [mark, c], by simp, hm, mark, [], [c], rfl, he, .inl rfl,
      isDigits_singleton hc⟩
  | exponentSign =>
    obtain ⟨mantissa, mark, sign, rfl, hm, he, hs⟩ := h
    refine ⟨mantissa, [mark, sign, c], by simp, hm, mark, [sign], [c], rfl, he, ?_,
      isDigits_singleton hc⟩
    simpa using hs
  | exponent =>
    obtain ⟨mantissa, _, rfl, hm, mark, sign, digits, rfl, he, hs, hd⟩ := h
    exact ⟨mantissa, mark :: (sign ++ (digits ++ [c])), by simp, hm, mark, sign, digits ++ [c],
      rfl, he, hs, hd.concat hc⟩

theorem HasRead.next {stage stage' : Stage} {text : List Char} {c : Char}
    (h : stage.HasRead text) (hn : next? stage c = some stage') :
    stage'.HasRead (text ++ [c]) := by
  unfold next? at hn
  by_cases hc : c.isDigit = true
  · rw [if_pos hc] at hn
    cases hn
    exact h.digit hc
  · rw [if_neg hc] at hn
    cases stage with
    | integer =>
      dsimp only at hn
      split at hn
      · rename_i hp
        cases hn
        exact ⟨text, by rw [hp], h⟩
      · split at hn
        · rename_i he
          cases hn
          exact ⟨text, c, rfl, ⟨text, [], by simp, h, .inl rfl⟩, he⟩
        · cases hn
    | fraction =>
      dsimp only at hn
      split at hn
      · rename_i he
        cases hn
        obtain ⟨whole, fraction, rfl, hw, hf⟩ := h
        exact ⟨whole ++ fraction, c, rfl, ⟨whole, fraction, rfl, hw, .inr hf⟩, he⟩
      · cases hn
    | exponentMark =>
      dsimp only at hn
      split at hn
      · rename_i hs
        cases hn
        obtain ⟨mantissa, mark, rfl, hm, he⟩ := h
        exact ⟨mantissa, mark, c, by simp, hm, he, hs⟩
      · cases hn
    | sign | point | exponentSign | exponent => cases hn

/-- A number that is whole is a lexeme of its kind. -/
theorem HasRead.spells {stage : Stage} {text : List Char} (h : stage.HasRead text)
    (hc : isComplete stage = true) : (kind stage).Spells text := by
  cases stage with
  | integer => exact h
  | fraction =>
    obtain ⟨whole, fraction, rfl, hw, hf⟩ := h
    refine ⟨whole, fraction, [], by simp, hw, .inr hf, .inl rfl, .inl ?_⟩
    obtain ⟨digits, rfl, _⟩ := hf
    simp
  | exponent =>
    obtain ⟨_, exponent, rfl, ⟨whole, fraction, rfl, hw, hf⟩, he⟩ := h
    refine ⟨whole, fraction, exponent, by simp, hw, hf, .inr he, .inr ?_⟩
    obtain ⟨mark, sign, digits, rfl, _⟩ := he
    simp
  | sign | point | exponentMark | exponentSign => cases hc

end Lexicon.Number.Stage

namespace Recognizer
open Lexicon.Number

theorem hasRead_of_follow?_number {text more : List Char} {stage stage' : Stage}
    (hr : stage.HasRead text) (h : (number stage).follow? more = some (number stage')) :
    stage'.HasRead (text ++ more) := by
  induction more generalizing text stage with
  | nil =>
    cases h
    simpa using hr
  | cons c more ih =>
    obtain ⟨r, hr', hf⟩ := Option.bind_eq_some_iff.1 h
    obtain ⟨stage₁, hnext, rfl⟩ := Option.map_eq_some_iff.1 hr'
    simpa using ih (hr.next hnext) hf

theorem hasRead_of_read?_number {text : List Char} {start stage : Stage}
    (h : (number start).read? text = some (number stage)) : stage.HasRead text := by
  cases text with
  | nil => cases h
  | cons c text =>
    obtain ⟨r, hr, hf⟩ := Option.bind_eq_some_iff.1 h
    obtain ⟨first, hfirst, rfl⟩ := Option.map_eq_some_iff.1 hr
    exact hasRead_of_follow?_number (Stage.hasRead_of_first? hfirst) hf

theorem spells_of_read?_number {text : List Char} {start stage : Stage}
    (h : (number start).read? text = some (number stage)) (hc : Number.isComplete stage = true) :
    (kind stage).Spells text :=
  (hasRead_of_read?_number h).spells hc

/-- Digits lead to the stage of digits, and stay there. -/
theorem follow?_number_digits {digits : List Char} (hd : IsDigits digits) (stage : Stage) :
    (number stage).follow? digits = some (number stage.digit) := by
  induction digits generalizing stage with
  | nil => exact absurd rfl hd.1
  | cons c digits ih =>
    have hc : c.isDigit = true := hd.2 c (List.mem_cons_self ..)
    have hnext : (number stage).next? c = some (number stage.digit) := by
      simp [next?, Number.next?, hc]
    rw [follow?_cons, hnext, Option.bind_some]
    cases digits with
    | nil => rfl
    | cons d digits =>
      have hidem : stage.digit.digit = stage.digit := by cases stage <;> rfl
      rw [ih hd.of_cons stage.digit, hidem]

theorem read?_number_integer {text : List Char} (h : IsInteger text) (start : Stage) :
    (number start).read? text = some (number .integer) := by
  obtain ⟨sign, digits, rfl, rfl | rfl, hd⟩ := h
  · obtain ⟨c, more, rfl⟩ := List.exists_cons_of_ne_nil hd.1
    have hc : c.isDigit = true := hd.2 c (List.mem_cons_self ..)
    have hminus : c ≠ '-' := by
      intro he
      simp [he] at hc
    have hfirst : (number start).begin? c = some (number .integer) := by
      simp [begin?, Number.first?, hminus, hc]
    cases more with
    | nil => simpa using hfirst
    | cons d more =>
      rw [List.nil_append, read?_cons, hfirst, Option.bind_some, follow?_number_digits hd.of_cons]
      rfl
  · exact follow?_number_digits hd .sign

theorem follow?_number_fraction {text : List Char} (h : IsFraction text) :
    (number .integer).follow? text = some (number .fraction) := by
  obtain ⟨digits, rfl, hd⟩ := h
  exact follow?_number_digits hd .point

theorem follow?_number_exponent {text : List Char} (h : IsExponent text) {stage : Stage}
    (hs : stage = .integer ∨ stage = .fraction) :
    (number stage).follow? text = some (number .exponent) := by
  obtain ⟨mark, sign, digits, rfl, hm, hsign, hd⟩ := h
  have hmark : (number stage).next? mark = some (number .exponentMark) := by
    rcases hs with rfl | rfl <;> rcases hm with rfl | rfl <;> rfl
  rw [follow?_cons, hmark, Option.bind_some]
  rcases hsign with rfl | rfl | rfl
  · exact follow?_number_digits hd .exponentMark
  · exact follow?_number_digits hd .exponentSign
  · exact follow?_number_digits hd .exponentSign

theorem read?_number_real {text : List Char} (h : IsReal text) (start : Stage) :
    (number start).read? text = some (number .fraction) ∨
      (number start).read? text = some (number .exponent) := by
  obtain ⟨whole, fraction, exponent, rfl, hw, hf, he, hne⟩ := h
  have hwhole : whole ≠ [] := by
    obtain ⟨sign, digits, rfl, _, hd⟩ := hw
    simp [hd.1]
  rw [read?_append hwhole, read?_number_integer hw, Option.bind_some, follow?_append]
  rcases hf with rfl | hf
  · have he : IsExponent exponent := he.resolve_left (by simpa using hne)
    exact .inr (follow?_number_exponent he (.inl rfl))
  · rw [follow?_number_fraction hf, Option.bind_some]
    rcases he with rfl | he
    · exact .inl rfl
    · exact .inr (follow?_number_exponent he (.inr rfl))

end Recognizer

end LaxJson
