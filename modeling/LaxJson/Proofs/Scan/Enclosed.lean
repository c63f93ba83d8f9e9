import LaxJson.Proofs.Scan.Document
import LaxJson.Proofs.Scan.Piece

/-!
# Pieces that a mark ends

Comments, strings and symbols have no rival behind their first characters, and end where a mark
is found: a newline, `*/`, or a quotation mark that no backslash takes. The lexicon of documents
munches the piece through the mark, and all of the text where there is no such mark.
-/
namespace LaxJson
open Lexicon

namespace Piece
open Recognizer

/-- The lexicon of documents munches the piece off a text. -/
def IsCutFrom (p : Piece) (x : List Char) : Prop :=
  ∃ owner, Munches document (x.take p.length) (x.drop p.length) owner ∧
    owner.category = p.category ∧ owner.role = p.role ∧ owner.isComplete = p.isWhole

theorem isCutFrom_append {p : Piece} {text rest : List Char} {owner : Recognizer}
    (hm : Munches document text rest owner) (hl : p.length = text.length)
    (hc : owner.category = p.category) (hr : owner.role = p.role)
    (hw : owner.isComplete = p.isWhole) : p.IsCutFrom (text ++ rest) := by
  refine ⟨owner, ?_, hc, hr, hw⟩
  rwa [List.take_left' hl.symm, List.drop_left' hl.symm]

theorem isCutFrom_of_comment {p : Piece} {text rest : List Char}
    (hp : p = ⟨text.length, .comment, .comment, true⟩)
    (h : ∃ owner, Munches document text rest owner ∧ owner.isComplete = true ∧
      owner.category = .comment) : p.IsCutFrom (text ++ rest) := by
  obtain ⟨owner, hm, hw, hc⟩ := h
  have hr : owner.role = .comment := by
    cases owner <;> first | rfl | cases hc
  subst hp
  exact isCutFrom_append hm rfl hc hr hw

theorem isCutFrom_ofLineComment {opener : List Char} (ho : opener = ['#'] ∨ opener = ['/', '/'])
    (y : List Char) : (ofLineComment (opener ++ y)).IsCutFrom (opener ++ y) := by
  have hcomment : ∀ line, '\n' ∉ line → IsLineComment (opener ++ line) := by
    intro line hl
    rcases ho with rfl | rfl
    · exact ⟨line, hl, .inl rfl⟩
    · exact ⟨line, hl, .inr rfl⟩
  have htake : ∀ line rest, '\n' ∉ line → (opener ++ (line ++ rest)).takeWhile (· ≠ '\n') =
      opener ++ (line ++ rest.takeWhile (· ≠ '\n')) := by
    intro line rest hl
    have hopener : ∀ b ∈ opener, decide (b ≠ '\n') = true := by
      rcases ho with rfl | rfl <;> simp
    have hline : ∀ b ∈ line, decide (b ≠ '\n') = true := by
      intro b hb
      exact decide_eq_true fun he => hl (he ▸ hb)
    rw [List.takeWhile_append_of_pos hopener, List.takeWhile_append_of_pos hline]
  by_cases hy : '\n' ∈ y
  · obtain ⟨line, rest, rfl, hl⟩ := List.eq_append_cons_of_mem hy
    have hp : ofLineComment (opener ++ (line ++ '\n' :: rest)) =
        ⟨(opener ++ line ++ ['\n']).length, .comment, .comment, true⟩ := by
      rw [ofLineComment, htake line ('\n' :: rest) hl]
      simp
      omega
    have hm : ∃ owner, Munches document (opener ++ line ++ ['\n']) rest owner ∧
        owner.isComplete = true ∧ owner.category = .comment :=
      munches_comment (.inr ⟨opener ++ line, hcomment line hl, rfl⟩)
    simpa using isCutFrom_of_comment hp hm
  · have hp : ofLineComment (opener ++ y) = ⟨(opener ++ y).length, .comment, .comment, true⟩ := by
      have htakeall := htake y [] hy
      rw [List.append_nil] at htakeall
      rw [ofLineComment, htakeall]
      simp
    have hcut := isCutFrom_of_comment hp (munches_lineComment (hcomment y hy))
    rwa [List.append_nil] at hcut

theorem beforeClosing?_eq_none_iff (y : List Char) :
    beforeClosing? y = none ↔ ¬ ['*', '/'] <:+: y := by
  fun_induction beforeClosing? y with
  | case1 => simp
  | case2 rest => exact iff_of_false nofun fun h => h (List.IsPrefix.isInfix ⟨rest, rfl⟩)
  | case3 c y hne ih =>
    have hp : ¬ ['*', '/'] <+: c :: y := by
      rintro ⟨more, hmore⟩
      cases hmore
      exact hne _ rfl rfl
    rw [Option.map_eq_none_iff, ih, List.infix_cons_iff, or_iff_right hp]

theorem of_beforeClosing?_eq_some {y : List Char} {n : Nat} (h : beforeClosing? y = some n) :
    ∃ text rest, y = text ++ rest ∧ text.length = n + 2 ∧ EndsComment text := by
  fun_induction beforeClosing? y generalizing n with
  | case1 => cases h
  | case2 rest =>
    cases h
    exact ⟨['*', '/'], rest, rfl, rfl, endsComment_star_slash.2 rfl⟩
  | case3 c y hne ih =>
    obtain ⟨m, hm, rfl⟩ := Option.map_eq_some_iff.1 h
    obtain ⟨text, rest, rfl, hl, he⟩ := ih hm
    refine ⟨c :: text, rest, rfl, by simp [hl], (endsComment_cons fun hp => ?_).2 he⟩
    obtain ⟨more, hmore⟩ := hp
    cases hmore
    exact hne _ rfl rfl

/-- Where every character is taken until the token is closed, a text is taken up to there, or the
whole of it if the token stays open. -/
theorem follow?_open_or_closed {IsOpen : Recognizer → Prop} {closed : Recognizer}
    (hnext : ∀ r c, IsOpen r → r.next? c = some closed ∨ ∃ r', r.next? c = some r' ∧ IsOpen r')
    {r : Recognizer} (hr : IsOpen r) (y : List Char) :
    (∃ r', IsOpen r' ∧ r.follow? y = some r') ∨
      ∃ text rest, y = text ++ rest ∧ r.follow? text = some closed := by
  induction y generalizing r with
  | nil => exact .inl ⟨r, hr, rfl⟩
  | cons c y ih =>
    rcases hnext r c hr with hclosed | ⟨r₁, hopen, hr₁⟩
    · exact .inr ⟨[c], y, rfl, by simp [hclosed]⟩
    · rcases ih hr₁ with ⟨r', hr', hf⟩ | ⟨text, rest, rfl, hf⟩
      · exact .inl ⟨r', hr', by simpa [hopen] using hf⟩
      · exact .inr ⟨c :: text, rest, rfl, by simpa [hopen] using hf⟩

theorem follow?_blockComment_cases (y : List Char) :
    (∃ r, (r = blockComment .body ∨ r = blockComment .star) ∧
      (blockComment .body).follow? y = some r) ∨
    ∃ text rest, y = text ++ rest ∧
      (blockComment .body).follow? text = some (blockComment .closed) := by
  refine follow?_open_or_closed ?_ (.inl rfl) y
  rintro r c (rfl | rfl)
  · by_cases hc : c = '*' <;> simp [next?, BlockComment.next?, hc]
  · by_cases hc : c = '*' <;> by_cases hc' : c = '/' <;>
      simp [next?, BlockComment.next?, hc, hc']

theorem isCutFrom_ofBlockComment (y : List Char) :
    (ofBlockComment y).IsCutFrom ('/' :: '*' :: y) := by
  have hs : survivors document ['/', '*'] = [.blockComment .body] := by decide
  unfold ofBlockComment
  split <;> rename_i h
  · obtain ⟨text, rest, rfl, hl, he⟩ := of_beforeClosing?_eq_some h
    have hf := (follow?_blockComment_eq_closed_iff text).1.2 he
    have hm : Munches document (['/', '*'] ++ text) rest (blockComment .closed) :=
      munches_of_survivors_eq_singleton _ _ hs hf fun _ _ => rfl
    exact isCutFrom_append hm (by simp [hl]) rfl rfl rfl
  · rcases follow?_blockComment_cases y with ⟨r, hr, hf⟩ | ⟨text, rest, rfl, hf⟩
    · have hm : Munches document (['/', '*'] ++ y) [] r :=
        munches_of_survivors_eq_singleton _ _ hs hf (by simp)
      have hcut : (⟨y.length + 2, .comment, .comment, false⟩ : Piece).IsCutFrom
          (['/', '*'] ++ y ++ []) := by
        rcases hr with rfl | rfl <;> exact isCutFrom_append hm (by simp) rfl rfl rfl
      rwa [List.append_nil] at hcut
    · obtain ⟨body, rfl, -⟩ := (follow?_blockComment_eq_closed_iff text).1.1 hf
      refine absurd ⟨body, rest, ?_⟩ ((beforeClosing?_eq_none_iff _).1 h)
      simp

theorem of_beforeQuotationMark?_eq_some {y : List Char} {n : Nat}
    (h : beforeQuotationMark? y = some n) :
    ∃ body rest, y = body ++ '"' :: rest ∧ body.length = n ∧ IsStringBody body := by
  fun_induction beforeQuotationMark? y generalizing n with
  | case1 => cases h
  | case2 rest =>
    cases h
    exact ⟨[], rest, rfl, rfl, .nil⟩
  | case3 c y ih =>
    obtain ⟨m, hm, rfl⟩ := Option.map_eq_some_iff.1 h
    obtain ⟨body, rest, rfl, hl, hb⟩ := ih hm
    exact ⟨'\\' :: c :: body, rest, rfl, by simp [hl], .escape c hb⟩
  | case4 c y hquote hbackslash ih =>
    obtain ⟨m, hm, rfl⟩ := Option.map_eq_some_iff.1 h
    obtain ⟨body, rest, rfl, hl, hb⟩ := ih hm
    refine ⟨c :: body, rest, rfl, by simp [hl], .plain hquote (fun hc => ?_) hb⟩
    cases body with
    | nil => exact hbackslash _ _ hc rfl
    | cons => exact hbackslash _ _ hc rfl

theorem beforeQuotationMark?_of_isStringBody {body : List Char} (h : IsStringBody body)
    (rest : List Char) : beforeQuotationMark? (body ++ '"' :: rest) = some body.length := by
  induction h with
  | nil => rfl
  | @plain c body hq hb _ ih =>
    rw [List.cons_append, beforeQuotationMark?, ih]
    · rfl
    · exact hq
    · intro _ _ hc _
      exact hb hc
  | escape c _ ih =>
    rw [List.cons_append, List.cons_append, beforeQuotationMark?, ih]
    rfl

theorem follow?_quotation_cases (y : List Char) :
    (∃ r, (r = quotation .body ∨ r = quotation .escape) ∧
      (quotation .body).follow? y = some r) ∨
    ∃ text rest, y = text ++ rest ∧
      (quotation .body).follow? text = some (quotation .closed) := by
  refine follow?_open_or_closed ?_ (.inl rfl) y
  rintro r c (rfl | rfl)
  · by_cases hc : c = '\\' <;> by_cases hc' : c = '"' <;>
      simp [next?, Quotation.next?, hc, hc']
  · simp [next?, Quotation.next?]

theorem isCutFrom_ofString (y : List Char) : (ofString y).IsCutFrom ('"' :: y) := by
  have hs : survivors document ['"'] = [.quotation .body] := by decide
  unfold ofString
  split <;> rename_i h
  · obtain ⟨body, rest, rfl, hl, hb⟩ := of_beforeQuotationMark?_eq_some h
    have hm : Munches document ('"' :: (body ++ ['"'])) rest (quotation .closed) :=
      munches_string ⟨body, rfl, hb⟩
    simpa using isCutFrom_append (p := ⟨_ + 2, .operand, .scalar .string, true⟩) hm
      (by simp [hl]) rfl rfl rfl
  · rcases follow?_quotation_cases y with ⟨r, hr, hf⟩ | ⟨text, rest, rfl, hf⟩
    · have hm : Munches document (['"'] ++ y) [] r :=
        munches_of_survivors_eq_singleton _ _ hs hf (by simp)
      have hcut : (⟨y.length + 1, .operand, .scalar .string, false⟩ : Piece).IsCutFrom
          (['"'] ++ y ++ []) := by
        rcases hr with rfl | rfl <;> exact isCutFrom_append hm (by simp) rfl rfl rfl
      rwa [List.append_nil] at hcut
    · obtain ⟨body, rfl, hb⟩ := (of_follow?_quotation_eq_closed text).1 hf
      have hsome := beforeQuotationMark?_of_isStringBody hb rest
      rw [List.append_assoc, List.singleton_append, hsome] at h
      cases h

theorem isCutFrom_ofSymbol {c : Char} {role : Role} (x : List Char)
    (h : survivors document [c] = [.symbol c role]) : (ofSymbol role).IsCutFrom (c :: x) :=
  isCutFrom_append (munches_symbol h) rfl rfl rfl rfl

/-- A slash that begins no comment is the beginning of one. -/
theorem isCutFrom_slash {x : List Char} (hslash : ∀ y, x ≠ '/' :: y) (hstar : ∀ y, x ≠ '*' :: y) :
    (⟨1, .comment, .comment, false⟩ : Piece).IsCutFrom ('/' :: x) := by
  have hs : survivors document ['/'] =
      [.lineComment .doubleSlash .opener, .blockComment .opener] := by decide
  have hm : Munches document ['/'] x (lineComment .doubleSlash .opener) := by
    refine ⟨by rw [hs]; rfl, fun c hc => ?_⟩
    obtain ⟨y, rfl⟩ := List.head?_eq_some_iff.1 hc
    have hcs : c ≠ '/' := fun he => hslash y (by rw [he])
    have hct : c ≠ '*' := fun he => hstar y (by rw [he])
    rw [survivors_append_singleton (by simp), hs]
    simp [narrow, next?, LineComment.next?, BlockComment.next?, hcs, hct]
  exact isCutFrom_append hm rfl rfl rfl rfl

end Piece

end LaxJson
