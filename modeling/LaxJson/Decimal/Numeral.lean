/-!
# Decimal numerals

Reading integers and reals in decimal notation with ASCII digits. `integer?` takes an
optional sign and digits; `real?` also a point, with digits on either side of it, and an
exponent. Neither has a bound of its own.
-/
namespace LaxJson.Decimal

/-- The number that digits denote after digits that denote `n`. -/
def extendDigits (n : Nat) (digits : List Char) : Nat :=
  digits.foldl (fun n c => 10 * n + (c.toNat - '0'.toNat)) n

def ofDigits (digits : List Char) : Nat := extendDigits 0 digits

def natural? (text : List Char) : Option Nat :=
  if text ≠ [] ∧ text.all Char.isDigit then some (ofDigits text) else none

/-- Whether a text begins with a minus, and the text without its sign. -/
def splitSign : List Char → Bool × List Char
  | '-' :: rest => (true, rest)
  | '+' :: rest => (false, rest)
  | text => (false, text)

def integer? (text : List Char) : Option Int :=
  match splitSign text with
  | (negative, digits) => (natural? digits).map fun n => if negative then -n else n

/-- The number `coefficient * 10 ^ exponent` with a sign of its own, as zero has two. -/
structure Real where
  negative : Bool
  coefficient : Nat
  exponent : Int
deriving DecidableEq, Repr

/-- The digits of an exponent count up to the one that takes it past 65535. Only a numeral
that is longer than that could tell. -/
def exponentOfDigits (digits : List Char) : Nat :=
  digits.foldl (fun n c => if n < 65536 then extendDigits n [c] else n) 0

def exponent? : List Char → Option Int
  | [] => some 0
  | mark :: rest =>
    match splitSign rest with
    | (negative, digits) =>
      if (mark = 'e' ∨ mark = 'E') ∧ digits ≠ [] ∧ digits.all Char.isDigit then
        some (if negative then -exponentOfDigits digits else exponentOfDigits digits)
      else none

/-- The digits behind a point, if there is one, and the text behind them. -/
def splitFraction : List Char → List Char × List Char
  | '.' :: rest => (rest.takeWhile Char.isDigit, rest.dropWhile Char.isDigit)
  | text => ([], text)

/-- A real from digits, with a sign, a point and an exponent that are all optional; there
must be a digit on one side of the point at least. -/
def real? (text : List Char) : Option Real :=
  match splitSign text with
  | (negative, text) =>
    let whole := text.takeWhile Char.isDigit
    match splitFraction (text.dropWhile Char.isDigit) with
    | (fraction, text) =>
      if whole = [] ∧ fraction = [] then none
      else (exponent? text).map fun exponent =>
        ⟨negative, extendDigits (ofDigits whole) fraction, exponent - fraction.length⟩

@[simp] theorem extendDigits_nil (n : Nat) : extendDigits n [] = n := rfl

@[simp] theorem extendDigits_append (n : Nat) (ds es : List Char) :
    extendDigits n (ds ++ es) = extendDigits (extendDigits n ds) es := by
  simp [extendDigits]

end LaxJson.Decimal
