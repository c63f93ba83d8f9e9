import LaxJson.Proofs.Spelling
import LaxJson.Tree.Access
import Mathlib.Data.Nat.Digits.Defs

/-!
# Integers in documents

A text of the form `-?digits` denotes an integer by the places of its digits, whatever zeros it
begins with. Read as a document it is one scalar, which keeps the text; asked for its value, this
gives the integer if 64 bits can hold it, and refuses otherwise. The text may be of any length,
so that the value is compared with the bounds only when it is known.
-/
namespace LaxJson

namespace Decimal

/-- The last of the digits counts ones, each one before it ten times as much. -/
def positional (digits : List Char) : Nat :=
  Nat.ofDigits 10 (digits.reverse.map fun c => c.toNat - '0'.toNat)

/-- What a text of the form `-?digits` stands for. -/
inductive Denotes : List Char → Int → Prop
  | unsigned {digits} (hd : IsDigits digits) : Denotes digits (positional digits)
  | minus {digits} (hd : IsDigits digits) : Denotes ('-' :: digits) (-positional digits)

theorem positional_concat (digits : List Char) (c : Char) :
    positional (digits ++ [c]) = 10 * positional digits + (c.toNat - '0'.toNat) := by
  simp only [positional, List.reverse_append, List.reverse_singleton, List.singleton_append,
    List.map_cons, Nat.ofDigits_cons]
  omega

/-- Adding up the digits from the left gives each its place. -/
theorem ofDigits_eq_positional (digits : List Char) : ofDigits digits = positional digits := by
  induction digits using List.reverseRecOn with
  | nil => rfl
  | append_singleton digits c ih =>
    calc ofDigits (digits ++ [c])
        = 10 * ofDigits digits + (c.toNat - '0'.toNat) := extendDigits_append 0 digits [c]
      _ = 10 * positional digits + (c.toNat - '0'.toNat) := by rw [ih]
      _ = positional (digits ++ [c]) := (positional_concat digits c).symm

theorem natural?_of_isDigits {digits : List Char} (hd : IsDigits digits) :
    natural? digits = some (positional digits) := by
  have hall : digits.all Char.isDigit = true := List.all_eq_true.2 hd.2
  rw [natural?, if_pos ⟨hd.1, hall⟩, ofDigits_eq_positional]

/-- No sign is a digit. -/
theorem splitSign_of_isDigits {digits : List Char} (hd : IsDigits digits) :
    splitSign digits = (false, digits) := by
  unfold splitSign
  split
  · exact absurd (hd.2 '-' (List.mem_cons_self ..)) (by decide)
  · exact absurd (hd.2 '+' (List.mem_cons_self ..)) (by decide)
  · rfl

theorem Denotes.integer?_eq {text : List Char} {n : Int} (h : Denotes text n) :
    integer? text = some n := by
  cases h with
  | unsigned hd =>
    rw [integer?, splitSign_of_isDigits hd]
    simp [natural?_of_isDigits hd]
  | @minus digits hd =>
    have hsplit : splitSign ('-' :: digits) = (true, digits) := rfl
    rw [integer?, hsplit]
    simp [natural?_of_isDigits hd]

theorem Denotes.isInteger {text : List Char} {n : Int} (h : Denotes text n) : IsInteger text := by
  cases h with
  | unsigned hd => exact ⟨[], _, rfl, .inl rfl, hd⟩
  | minus hd => exact ⟨['-'], _, rfl, .inr rfl, hd⟩

end Decimal

open Decimal

/-- The value of an integer is given exactly when it is within the bounds. -/
theorem Scalar.asInt64_of_denotes {leaf : Scalar} {n : Int} (hk : leaf.kind = .integer)
    (h : Denotes leaf.raw n) :
    leaf.asInt64 = if -2 ^ 63 ≤ n ∧ n ≤ 2 ^ 63 - 1 then .ok n
      else .error (.notRepresentable leaf.raw "i64") := by
  have hexpect : leaf.expect .integer = .ok () := if_pos hk
  have hleast : Int64.minValue.toInt = -2 ^ 63 := rfl
  have hgreatest : Int64.maxValue.toInt = 2 ^ 63 - 1 := rfl
  rw [asInt64, hexpect, h.integer?_eq, hleast, hgreatest]
  rfl

namespace Parser

/-- Whatever digits an integer is written with, it is read as one scalar that keeps them and has
its value, as long as 64 bits with sign can hold it. -/
theorem parse_integer (options : Options) {text : List Char} {n : Int} (h : Denotes text n)
    (hlimit : ∀ limit ∈ options.maxChars, text.length ≤ limit) :
    ∃ leaf, ((ofOptions options).parse (.ofChars text)).1 = .ok (.scalar leaf) ∧
      leaf.kind = .integer ∧ leaf.raw = text ∧ (Tree.scalar leaf).text = text ∧
      leaf.asInt64 = if -2 ^ 63 ≤ n ∧ n ≤ 2 ^ 63 - 1 then .ok n
        else .error (.notRepresentable text "i64") := by
  have hs : ScalarKind.integer.Spells text := h.isInteger
  obtain ⟨leaf, hparse, hk, rfl⟩ := exists_parse_scalar hs hlimit
  exact ⟨leaf, hparse, hk, rfl, rfl, Scalar.asInt64_of_denotes hk h⟩

/-- The least value with zeros before it, and one more than the greatest. -/
theorem parse_integer_bounds :
    (Denotes "-009223372036854775808".toList (-2 ^ 63) ∧
      ∃ leaf, ((ofOptions {}).parse (.ofChars "-009223372036854775808".toList)).1 =
          .ok (.scalar leaf) ∧
        leaf.asInt64 = .ok (-2 ^ 63)) ∧
    Denotes "9223372036854775808".toList (2 ^ 63) ∧
      ∃ leaf, ((ofOptions {}).parse (.ofChars "9223372036854775808".toList)).1 =
          .ok (.scalar leaf) ∧
        leaf.asInt64 = .error (.notRepresentable "9223372036854775808".toList "i64") := by
  constructor
  · have hdigits : IsDigits "009223372036854775808".toList := ⟨by decide, List.all_eq_true.1 rfl⟩
    have hdenotes : Denotes "-009223372036854775808".toList (-2 ^ 63) := .minus hdigits
    obtain ⟨leaf, hparse, -, -, -, hvalue⟩ := parse_integer {} hdenotes (by decide)
    exact ⟨hdenotes, leaf, hparse, hvalue⟩
  · have hdigits : IsDigits "9223372036854775808".toList := ⟨by decide, List.all_eq_true.1 rfl⟩
    have hdenotes : Denotes "9223372036854775808".toList (2 ^ 63) := .unsigned hdigits
    obtain ⟨leaf, hparse, -, -, -, hvalue⟩ := parse_integer {} hdenotes (by decide)
    exact ⟨hdenotes, leaf, hparse, hvalue⟩

end Parser

end LaxJson
