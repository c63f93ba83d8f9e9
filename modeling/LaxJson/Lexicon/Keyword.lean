/-!
# Keywords

A keyword is one of a list of words that differ in their first characters, so the first
character chooses the word. The machine remembers how far the word has been matched as
an offset into its UTF-8 form; `dropBytes?` finds the rest of the word from there.
-/
namespace LaxJson.Lexicon.Keyword

def byteSize : List Char → Nat
  | [] => 0
  | c :: text => c.utf8Size + byteSize text

/-- The characters of a text from an offset into its UTF-8 form, if a character begins or
the text ends there. -/
def dropBytes? : List Char → Nat → Option (List Char)
  | text, 0 => some text
  | [], _ + 1 => none
  | c :: text, n + 1 =>
    if c.utf8Size ≤ n + 1 then dropBytes? text (n + 1 - c.utf8Size) else none

/-- At work on a word, the machine has matched so many bytes of it. -/
inductive Stage
  | idle
  | matching (word : List Char) (matched : Nat)
deriving DecidableEq, Repr

/-- The stage after the first character: at work on the first word that begins with it. -/
def first? (words : List (List Char)) (c : Char) : Option Stage :=
  (words.find? fun word => word.head? == some c).map fun word => .matching word c.utf8Size

def next? : Stage → Char → Option Stage
  | .idle, _ => none
  | .matching word matched, c =>
    if ((dropBytes? word matched).bind List.head?) = some c then
      some (.matching word (matched + c.utf8Size))
    else none

def isComplete : Stage → Bool
  | .idle => false
  | .matching word matched => matched == byteSize word

@[simp] theorem byteSize_nil : byteSize [] = 0 := rfl

@[simp] theorem byteSize_cons (c : Char) (text : List Char) :
    byteSize (c :: text) = c.utf8Size + byteSize text := rfl

@[simp] theorem dropBytes?_zero (text : List Char) : dropBytes? text 0 = some text := by
  cases text <;> rfl

/-- The offset behind a prefix is where the rest begins. -/
@[simp] theorem dropBytes?_append (done rest : List Char) :
    dropBytes? (done ++ rest) (byteSize done) = some rest := by
  induction done with
  | nil => simp
  | cons c done ih =>
    have hc := c.utf8Size_pos
    rw [byteSize_cons, List.cons_append]
    obtain ⟨n, hn⟩ : ∃ n, c.utf8Size + byteSize done = n + 1 :=
      ⟨_, (Nat.succ_pred (by omega)).symm⟩
    rw [hn, dropBytes?, if_pos (by omega), show n + 1 - c.utf8Size = byteSize done by omega, ih]

end LaxJson.Lexicon.Keyword
