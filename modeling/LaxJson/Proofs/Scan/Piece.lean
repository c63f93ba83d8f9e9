import LaxJson.Proofs.Scan.Reach
import LaxJson.Proofs.Scan.Stages
import Mathlib.Data.Nat.Find
import Mathlib.Order.MinMax

/-!
# The piece at the front of a text

`Piece.cut?` says what stands at the front of a text without a machine, a stage or a candidate:
the first character tells the class, and only numbers, keywords and bare words are told apart
by how far each of them goes on. What goes on the longest is a number that the lemmas of the
last section compute: a recognizer reaches over the longest beginning that its class allows.
-/
namespace LaxJson
open Lexicon

/-- Texts of the form `-?digits(.digits)?([eE][+-]?digits)?`. -/
def IsNumber (text : List Char) : Prop := IsInteger text ∨ IsReal text

/-- The beginnings of numbers. -/
def BeginsNumber (text : List Char) : Prop := ∃ number, IsNumber number ∧ text <+: number

/-- The words with a meaning of their own. -/
def keywords : List (List Char) := ["true".toList, "false".toList, "null".toList]

/-- The beginnings of keywords. -/
def BeginsKeyword (text : List Char) : Prop := ∃ word ∈ keywords, text <+: word

instance : DecidablePred BeginsKeyword := fun text =>
  inferInstanceAs (Decidable (∃ word ∈ keywords, text <+: word))

namespace Recognizer

theorem exists_stage_of_read?_number {text : List Char} {r : Recognizer}
    (h : anyNumber.read? text = some r) : ∃ stage, r = number stage := by
  have hfresh := fresh_of_read? h
  cases r <;> cases hfresh
  exact ⟨_, rfl⟩

theorem exists_read?_of_isNumber {text : List Char} (h : IsNumber text) :
    ∃ stage, anyNumber.read? text = some (number stage) ∧ Number.isComplete stage = true := by
  rcases h with h | h
  · exact ⟨_, read?_number_integer h _, rfl⟩
  · rcases read?_number_real h .integer with h | h
    · exact ⟨_, h, rfl⟩
    · exact ⟨_, h, rfl⟩

theorem isNumber_of_spells {stage : Number.Stage} {text : List Char}
    (h : (Number.kind stage).Spells text) : IsNumber text := by
  cases stage with
  | sign | integer => exact .inl h
  | point | fraction | exponentMark | exponentSign | exponent => exact .inr h

/-- A number is whole where its machine has come to a stage at which it may stop. -/
theorem isNumber_iff_isComplete {text : List Char} {stage : Number.Stage}
    (h : anyNumber.read? text = some (number stage)) :
    IsNumber text ↔ Number.isComplete stage = true := by
  constructor
  · intro hn
    obtain ⟨stage', h', hc⟩ := exists_read?_of_isNumber hn
    cases h.symm.trans h'
    exact hc
  · intro hc
    exact isNumber_of_spells (spells_of_read?_number h hc)

/-- Whatever a number has read, it is whole with one more digit. -/
theorem beginsNumber_of_read? {text : List Char} {stage : Number.Stage}
    (h : anyNumber.read? text = some (number stage)) : BeginsNumber text := by
  have ht : text ≠ [] := by
    rintro rfl
    cases h
  have hmore : anyNumber.read? (text ++ ['0']) = some (number stage.digit) := by
    rw [read?_append ht, h]
    rfl
  have hc : Number.isComplete stage.digit = true := by cases stage <;> rfl
  exact ⟨text ++ ['0'], (isNumber_iff_isComplete hmore).2 hc, List.prefix_append ..⟩

theorem isSome_read?_number_iff {text : List Char} (ht : text ≠ []) :
    (anyNumber.read? text).isSome = true ↔ BeginsNumber text := by
  constructor
  · intro h
    obtain ⟨r, hr⟩ := Option.isSome_iff_exists.1 h
    obtain ⟨stage, rfl⟩ := exists_stage_of_read?_number hr
    exact beginsNumber_of_read? hr
  · rintro ⟨_, hn, more, rfl⟩
    obtain ⟨stage, h, -⟩ := exists_read?_of_isNumber hn
    rw [read?_append ht] at h
    obtain ⟨r, hr, -⟩ := Option.bind_eq_some_iff.1 h
    rw [hr, Option.isSome_some]

theorem isNumber_iff_any (text : List Char) :
    IsNumber text ↔ (anyNumber.read? text).any isComplete = true := by
  cases h : anyNumber.read? text with
  | none =>
    refine iff_of_false (fun hn => ?_) nofun
    obtain ⟨stage, hr, -⟩ := exists_read?_of_isNumber hn
    cases h.symm.trans hr
  | some r =>
    obtain ⟨stage, rfl⟩ := exists_stage_of_read?_number h
    exact isNumber_iff_isComplete h

theorem beginsNumber_iff (text : List Char) :
    BeginsNumber text ↔ text = [] ∨ (anyNumber.read? text).isSome = true := by
  by_cases ht : text = []
  · subst ht
    exact iff_of_true ⟨['0'], .inl ⟨[], ['0'], rfl, .inl rfl, isDigits_singleton rfl⟩,
      List.nil_prefix ..⟩ (.inl rfl)
  · rw [isSome_read?_number_iff ht, or_iff_right ht]

end Recognizer

instance : DecidablePred IsNumber := fun text =>
  decidable_of_iff _ (Recognizer.isNumber_iff_any text).symm

instance : DecidablePred BeginsNumber := fun text =>
  decidable_of_iff _ (Recognizer.beginsNumber_iff text).symm

/-- A token at the front of a text, or what there is of one where it is not whole. -/
structure Piece where
  length : Nat
  category : Category
  role : Role
  isWhole : Bool
deriving DecidableEq, Repr

namespace Piece

/-- The length of the longest beginning of a text that has a property. -/
def longest (P : List Char → Prop) [DecidablePred P] (x : List Char) : Nat :=
  Nat.findGreatest (fun n => P (x.take n)) x.length

/-- A comment through the first newline, or to the end of the text. -/
def ofLineComment (x : List Char) : Piece :=
  ⟨min ((x.takeWhile (· ≠ '\n')).length + 1) x.length, .comment, .comment, true⟩

/-- How many characters stand before the first `*/`. -/
def beforeClosing? : List Char → Option Nat
  | [] => none
  | '*' :: '/' :: _ => some 0
  | _ :: x => (beforeClosing? x).map (· + 1)

/-- A comment whose `/*` stands before `x`, through the first `*/` in `x`. -/
def ofBlockComment (x : List Char) : Piece :=
  match beforeClosing? x with
  | some n => ⟨n + 4, .comment, .comment, true⟩
  | none => ⟨x.length + 2, .comment, .comment, false⟩

/-- How many characters stand before the first quotation mark that no backslash takes. -/
def beforeQuotationMark? : List Char → Option Nat
  | [] => none
  | '"' :: _ => some 0
  | '\\' :: _ :: x => (beforeQuotationMark? x).map (· + 2)
  | _ :: x => (beforeQuotationMark? x).map (· + 1)

/-- A string whose first quotation mark stands before `x`. -/
def ofString (x : List Char) : Piece :=
  match beforeQuotationMark? x with
  | some n => ⟨n + 2, .operand, .scalar .string, true⟩
  | none => ⟨x.length + 1, .operand, .scalar .string, false⟩

/-- A number is a real from its point or its exponent on. -/
def numberKind (text : List Char) : ScalarKind :=
  if '.' ∈ text ∨ 'e' ∈ text ∨ 'E' ∈ text then .real else .integer

/-- Of the keywords only `null` begins with its letter. -/
def keywordKind (text : List Char) : ScalarKind :=
  if text <+: "null".toList then .null else .boolean

/-- A number, a keyword or a bare word, whichever goes on the longest; numbers are preferred
to keywords, and keywords to bare words. -/
def ofWord (x : List Char) : Piece :=
  let number := longest BeginsNumber x
  let keyword := longest BeginsKeyword x
  let length := max number (max keyword (x.takeWhile Recognizer.isWordChar).length)
  let text := x.take length
  if number = length then
    ⟨length, .operand, .scalar (numberKind text), decide (IsNumber text)⟩
  else if keyword = length then
    ⟨length, .operand, .scalar (keywordKind text), decide (text ∈ keywords)⟩
  else ⟨length, .operand, .word, true⟩

/-- A piece of one character. -/
def ofSymbol (role : Role) : Piece := ⟨1, .operator, role, true⟩

/-- The piece at the front of a text, if any begins with its first character. -/
def cut? : List Char → Option Piece
  | '#' :: x => some (ofLineComment ('#' :: x))
  | '/' :: '/' :: x => some (ofLineComment ('/' :: '/' :: x))
  | '/' :: '*' :: x => some (ofBlockComment x)
  | '/' :: _ => some ⟨1, .comment, .comment, false⟩
  | '"' :: x => some (ofString x)
  | '{' :: _ => some (ofSymbol (.opening .object))
  | '}' :: _ => some (ofSymbol (.closing .object))
  | '[' :: _ => some (ofSymbol (.opening .array))
  | ']' :: _ => some (ofSymbol (.closing .array))
  | ',' :: _ => some (ofSymbol .separator)
  | ':' :: _ => some (ofSymbol .assignment)
  | c :: x => if c = '-' ∨ Recognizer.isWordChar c = true then some (ofWord (c :: x)) else none
  | [] => none

/-- What a scanner answers that has the piece before it in `x`, behind `done`. -/
def token (p : Piece) (done x : List Char) : Except ScanFault Token :=
  let text := x.take p.length
  if p.isWhole then .ok ⟨p.category, p.role, text, .of done text⟩
  else .error (.incomplete p.role text (.of done text))

end Piece

namespace Piece

/-- The longest beginning with a property has `m` characters where the beginnings with it are
those of `m` characters at the most. -/
theorem longest_eq {P : List Char → Prop} [DecidablePred P] {x : List Char} {m : Nat}
    (hm : m ≤ x.length) (h : ∀ n, 0 < n → n ≤ x.length → (P (x.take n) ↔ n ≤ m)) :
    longest P x = m := by
  rw [longest, Nat.findGreatest_eq_iff]
  refine ⟨hm, fun h0 => (h m (by omega) hm).2 le_rfl, ?_⟩
  intro n hlt hn hP
  have hle := (h n (by omega) hn).1 hP
  omega

end Piece

namespace Recognizer
open Descriptor Piece

theorem isSome_read?_take_iff (r : Recognizer) {x : List Char} {n : Nat} (hpos : 0 < n)
    (hn : n ≤ x.length) : (r.read? (x.take n)).isSome = true ↔ n ≤ reach r x := by
  rw [r.read?_take hpos hn]
  split <;> simp_all

theorem take_ne_nil {x : List Char} {n : Nat} (hpos : 0 < n) (hn : n ≤ x.length) :
    x.take n ≠ [] := by
  rw [← List.length_pos_iff, List.length_take]
  omega

theorem longest_beginsNumber (x : List Char) : longest BeginsNumber x = reach anyNumber x := by
  refine longest_eq (reach_le_length _ x) fun n hpos hn => ?_
  rw [← isSome_read?_number_iff (take_ne_nil hpos hn), isSome_read?_take_iff _ hpos hn]

theorem longest_beginsKeyword (x : List Char) :
    longest BeginsKeyword x = max (reach boolean x) (reach null x) := by
  refine longest_eq (max_le (reach_le_length _ x) (reach_le_length _ x)) fun n hpos hn => ?_
  have ht := take_ne_nil hpos hn
  rw [le_max_iff, ← isSome_read?_take_iff _ hpos hn, ← isSome_read?_take_iff _ hpos hn, boolean,
    null, anyOf, anyOf, isSome_read?_keyword_iff (by decide) ht,
    isSome_read?_keyword_iff (by decide) ht]
  simp [BeginsKeyword, keywords, or_assoc]

theorem further_identifier (x : List Char) :
    further identifier x = (x.takeWhile isWordChar).length := by
  induction x with
  | nil => rfl
  | cons c x ih =>
    by_cases hc : isWordChar c = true
    · simp [further, Descriptor.extend, Recognizer.extend, next?, hc, ih]
    · simp [further, Descriptor.extend, Recognizer.extend, next?, hc]

theorem reach_identifier (x : List Char) :
    reach identifier x = (x.takeWhile isWordChar).length := by
  cases x with
  | nil => rfl
  | cons c x =>
    by_cases hc : isWordChar c = true
    · simp [reach, Descriptor.start, Recognizer.start, begin?, hc, further_identifier]
    · simp [reach, Descriptor.start, Recognizer.start, begin?, hc]

end Recognizer

end LaxJson
