import LaxJson.Tree.Basic

/-!
# Writing trees

A tree is written with the texts of its scalars and names as they were read; between
them a layout says where lines begin and what follows a name. Both layouts of this
module are documents that read back as the same tree.
-/
namespace LaxJson

/-- What a written tree leaves open: what comes before an entry, or the end of a container that
has entries, by the number of containers around it, and what comes behind a name. -/
structure Layout where
  newline : Nat → List Char
  colon : List Char

/-- Nothing but the tokens of the document. -/
def Layout.compact : Layout := ⟨fun _ => [], [':']⟩

/-- Each entry has a line, indented by two spaces for every container around it. -/
def Layout.indented : Layout :=
  ⟨fun depth => '\n' :: List.replicate (2 * depth) ' ', [':', ' ']⟩

namespace Tree

mutual

/-- A tree with `depth` containers around it. -/
def render (layout : Layout) (depth : Nat) : Tree → List Char
  | .scalar leaf => leaf.raw
  | .object fields => '{' :: (renderFields layout depth fields ++ ['}'])
  | .array elements => '[' :: (renderElements layout depth elements ++ [']'])

def renderFields (layout : Layout) (depth : Nat) : List (Field Tree) → List Char
  | [] => []
  | ⟨name, value⟩ :: fields =>
    layout.newline (depth + 1) ++ (name ++ (layout.colon ++
      (render layout (depth + 1) value ++ renderMoreFields layout depth fields)))

def renderMoreFields (layout : Layout) (depth : Nat) : List (Field Tree) → List Char
  | [] => layout.newline depth
  | ⟨name, value⟩ :: fields =>
    ',' :: (layout.newline (depth + 1) ++ (name ++ (layout.colon ++
      (render layout (depth + 1) value ++ renderMoreFields layout depth fields))))

def renderElements (layout : Layout) (depth : Nat) : List Tree → List Char
  | [] => []
  | value :: elements =>
    layout.newline (depth + 1) ++
      (render layout (depth + 1) value ++ renderMoreElements layout depth elements)

def renderMoreElements (layout : Layout) (depth : Nat) : List Tree → List Char
  | [] => layout.newline depth
  | value :: elements =>
    ',' :: (layout.newline (depth + 1) ++
      (render layout (depth + 1) value ++ renderMoreElements layout depth elements))

end

def text (t : Tree) : List Char := t.render .compact 0

def indentedText (t : Tree) : List Char := t.render .indented 0

end Tree

end LaxJson
