import LaxJson.Text.Unprintable
import LaxJson.Text.GraphemeExtend

/-!
# Quoted text in messages

A message shows a character or a text of the input between quotation marks, so that
every character of it can be told apart: the usual controls, the backslash and the
quotation mark itself are escaped by a backslash, and what cannot be shown, or would
be drawn onto the character before it, is written as its code point.
-/
namespace LaxJson.Text.Quoted
open Unprintable GraphemeExtend

/-- The code point in lower-case hexadecimal, without leading zeros, in braces. -/
def codePoint (c : Char) : List Char :=
  ['\\', 'u', '{'] ++ Nat.toDigits 16 c.toNat ++ ['}']

/-- One character as it is written between quotation marks `mark`. -/
def escape (mark c : Char) : List Char :=
  match c with
  | '\x00' => ['\\', '0']
  | '\t' => ['\\', 't']
  | '\r' => ['\\', 'r']
  | '\n' => ['\\', 'n']
  | '\\' => ['\\', '\\']
  | c =>
    if c = mark then ['\\', c]
    else if !isOverlaid c && isPrintable c then [c]
    else codePoint c

/-- A text between quotation marks `mark`. -/
def enclose (mark : Char) (text : List Char) : String :=
  String.ofList (mark :: text.flatMap (escape mark) ++ [mark])

def character (c : Char) : String := enclose '\'' [c]

def text (cs : List Char) : String := enclose '"' cs

@[simp] theorem escape_backslash (mark : Char) : escape mark '\\' = ['\\', '\\'] := rfl

@[simp] theorem escape_quotationMark : escape '"' '"' = ['\\', '"'] := by decide

end LaxJson.Text.Quoted
