import LaxJson.Text.Ranges

/-!
# White space

The Unicode property White_Space: the characters that separate tokens.
-/
namespace LaxJson.Text.WhiteSpace

/-- The code points with the property White_Space. -/
def ranges : Ranges :=
  [(0x9, 0xD), (0x20, 0x20), (0x85, 0x85), (0xA0, 0xA0), (0x1680, 0x1680), (0x2000, 0x200A),
   (0x2028, 0x2029), (0x202F, 0x202F), (0x205F, 0x205F), (0x3000, 0x3000)]

/-- A blank separates tokens and belongs to none. -/
def isBlank (c : Char) : Bool := ranges.contains c.toNat

@[simp] theorem isBlank_space : isBlank ' ' = true := by decide

@[simp] theorem isBlank_newline : isBlank '\n' = true := by decide

end LaxJson.Text.WhiteSpace
