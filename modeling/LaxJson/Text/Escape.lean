/-!
# Escapes in string tokens

A string token keeps its quotation marks and its escapes as they were read. `unquote`
takes one pair of marks off; `decode` replaces the eight simple escapes by what they
stand for and leaves every other pair, such as a `\u` with its digits, as it is.
-/
namespace LaxJson.Text.Escape

/-- What the character after a backslash stands for, if the pair is a simple escape. -/
def simple? : Char → Option Char
  | '"' => some '"'
  | '\\' => some '\\'
  | '/' => some '/'
  | 'b' => some '\x08'
  | 'f' => some '\x0c'
  | 'n' => some '\n'
  | 'r' => some '\r'
  | 't' => some '\t'
  | _ => none

/-- Reads from left to right; a backslash always takes the next character with it, and
one that has no next character is kept. -/
def decode : List Char → List Char
  | [] => []
  | '\\' :: c :: rest =>
    match simple? c with
    | some d => d :: decode rest
    | none => '\\' :: c :: decode rest
  | c :: rest => c :: decode rest

/-- A text without one pair of surrounding quotation marks; a text that has no such pair,
the lone mark among them, is left as it is. -/
def unquote (raw : List Char) : List Char :=
  match raw with
  | '"' :: rest => if rest.getLast? = some '"' then rest.dropLast else raw
  | _ => raw

@[simp] theorem decode_nil : decode [] = [] := rfl

theorem decode_cons {c : Char} (h : c ≠ '\\') (rest : List Char) :
    decode (c :: rest) = c :: decode rest := by
  cases rest <;> simp [decode, h]

theorem decode_escape {c d : Char} (h : simple? c = some d) (rest : List Char) :
    decode ('\\' :: c :: rest) = d :: decode rest := by
  simp [decode, h]

/-- A text without a backslash stands for itself. -/
theorem decode_eq_self {cs : List Char} (h : '\\' ∉ cs) : decode cs = cs := by
  induction cs with
  | nil => rfl
  | cons c cs ih =>
    rw [decode_cons (fun e => h (e ▸ List.mem_cons_self ..)),
      ih fun m => h (List.mem_cons_of_mem _ m)]

@[simp] theorem unquote_quoted (cs : List Char) : unquote ('"' :: cs ++ ['"']) = cs := by
  simp [unquote]

end LaxJson.Text.Escape
