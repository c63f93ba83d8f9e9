import LaxJson.Fault
import LaxJson.Lexicon.Recognizer
import LaxJson.Options

/-!
# The scanner

The scanner cuts an input into tokens with the descriptors of a lexicon. Every
descriptor that can begin with the first character is a candidate; each further
character stays with the token while some candidate goes on with it, and drops the
candidates that do not. So the longest possible token is taken, and among the classes
that reach that far the first of the lexicon owns it.

The character that ends a token is the first of the next one and is held until then.
`weight` counts what a scanner can still see of an input, and `weight_next_lt` says that
every call of `next` that is not at the end uses some of it up, faults included.
-/
namespace LaxJson

/-- How far an input has been read: where the next character stands, and how many have been
read before it. -/
structure Cursor where
  position : Position := .start
  consumed : Nat := 0
deriving DecidableEq, Repr

namespace Cursor

/-- The limit that one more character would break, if any. -/
def limit? (maxChars : Option Nat) (k : Cursor) : Option Nat := maxChars.filter (· ≤ k.consumed)

def pass (k : Cursor) (c : Char) : Cursor := ⟨k.position.next c, k.consumed + 1⟩

/-- The cursor after reading a character beyond the limit: it is counted, but the cursor
stays where it was. -/
def overrun (k : Cursor) : Cursor := { k with consumed := k.consumed + 1 }

end Cursor

inductive Read
  | char (c : Char) (position : Position)
  | finish
  | fault (f : ScanFault)
deriving DecidableEq, Repr

/-- Reads characters as long as `step` takes them, and tells what ended that: a character
that it does not take, the end of the input, or a fault. -/
def gather {σ : Type} (maxChars : Option Nat) (step : σ → Char → Position → Bool × σ) :
    σ → Cursor → Input → Read × σ × Cursor × Input
  | s, k, [] => (.finish, s, k, [])
  | s, k, .error f :: rest => (.fault (.unreadable f k.position), s, k, rest)
  | s, k, .ok c :: rest =>
    match k.limit? maxChars with
    | some limit => (.fault (.tooLong limit k.position), s, k.overrun, rest)
    | none =>
      match step s c k.position with
      | (true, s) => gather maxChars step s (k.pass c) rest
      | (false, s) => (.char c k.position, s, k.pass c, rest)

/-- Unless the end is reached, at least one answer of the input is used up. -/
theorem length_gather {σ : Type} (maxChars : Option Nat)
    (step : σ → Char → Position → Bool × σ) (s : σ) (k : Cursor) (input : Input) :
    (gather maxChars step s k input).1 = .finish ∧
        (gather maxChars step s k input).2.2.2 = [] ∨
      (gather maxChars step s k input).1 ≠ .finish ∧
        (gather maxChars step s k input).2.2.2.length < input.length := by
  fun_induction gather maxChars step s k input with
  | case1 => simp
  | case2 => simp
  | case3 => simp
  | case4 s k c rest _ t _ ih =>
    rcases ih with ih | ih
    · exact .inl ih
    · exact .inr ⟨ih.1, Nat.lt_succ_of_lt ih.2⟩
  | case5 => simp

/-- A descriptor at work on a token, alive while it has taken every character. -/
structure Candidate (R : Type) where
  descriptor : R
  alive : Bool
deriving DecidableEq, Repr

namespace Candidate
variable {R : Type} [Descriptor R]

def ask (c : Char) (r : R) : Candidate R :=
  match Descriptor.start r c with
  | (alive, descriptor) => { descriptor, alive }

/-- Asks whether the token goes on with the character, unless it has been given up. -/
def offer (c : Char) (a : Candidate R) : Candidate R :=
  if a.alive then
    match Descriptor.extend a.descriptor c with
    | (alive, descriptor) => { descriptor, alive }
  else a

end Candidate

/-- A token of which at least one character has been read, the last one first. The
descriptors stand in the order of the lexicon. -/
structure Draft (R : Type) where
  candidates : List (Candidate R)
  reversed : List Char
  span : Span
  claimed : candidates.any Candidate.alive = true
deriving DecidableEq, Repr

namespace Draft
variable {R : Type} [Descriptor R]

def begin? (asked : List (Candidate R)) (c : Char) (p : Position) : Option (Draft R) :=
  if claimed : asked.any Candidate.alive = true then
    some { candidates := asked, reversed := [c], span := ⟨p, p⟩, claimed }
  else none

/-- The token with one more character, if any descriptor goes on with it; if none does, the
token is as it was, and the descriptors are as they are after that question. -/
def extend (d : Draft R) (c : Char) (p : Position) : Bool × Draft R :=
  if claimed : (d.candidates.map (.offer c)).any Candidate.alive = true then
    (true, { candidates := d.candidates.map (.offer c), reversed := c :: d.reversed,
             span := { d.span with last := p }, claimed })
  else
    (false, { d with
      candidates := d.candidates.map fun a => { a.offer c with alive := a.alive }
      claimed := by simpa [Function.comp_def] using d.claimed })

def text (d : Draft R) : List Char := d.reversed.reverse

/-- The first descriptor that has taken every character. -/
def owner (d : Draft R) : R :=
  ((d.candidates.find? Candidate.alive).get
    (by simpa using d.claimed)).descriptor

def lexicon (d : Draft R) : List R := d.candidates.map Candidate.descriptor

/-- The token as its owner has it; it must be whole. -/
def token (d : Draft R) : Except ScanFault Token :=
  if Descriptor.isComplete d.owner then
    .ok ⟨Descriptor.category d.owner, Descriptor.role d.owner, d.text, d.span⟩
  else .error (.incomplete (Descriptor.role d.owner) d.text d.span)

end Draft

/-- What is known of the input behind the last token: nothing, the character that ended the
token, or that the input has ended, and then it is not read again. -/
inductive Lookahead
  | nothing
  | held (c : Char) (position : Position)
  | ended
deriving DecidableEq, Repr

def Read.lookahead : Read → Lookahead
  | char c p => .held c p
  | finish => .ended
  | fault _ => .nothing

structure Scanner (R : Type := Recognizer) where
  lexicon : List R
  skipWhiteSpace : Bool
  maxChars : Option Nat
  cursor : Cursor := {}
  lookahead : Lookahead := .nothing
deriving DecidableEq, Repr

namespace Scanner
variable {R : Type}

def moveTo (s : Scanner R) (lexicon : List R) (cursor : Cursor) (lookahead : Lookahead) :
    Scanner R :=
  { s with lexicon, cursor, lookahead }

@[simp] theorem lookahead_moveTo (s : Scanner R) (lexicon : List R) (cursor : Cursor)
    (lookahead : Lookahead) : (s.moveTo lexicon cursor lookahead).lookahead = lookahead := rfl

/-- Where the next character stands that belongs to no token yet, or where the input
ends. -/
def position (s : Scanner R) : Position :=
  match s.lookahead with
  | .held _ p => p
  | .nothing | .ended => s.cursor.position

/-- Whether a character is passed over between tokens. -/
def skips (s : Scanner R) (c : Char) : Bool := s.skipWhiteSpace && Text.WhiteSpace.isBlank c

def seek (s : Scanner R) (input : Input) : Read × Cursor × Input :=
  match gather s.maxChars (fun _ c _ => (s.skips c, ())) () s.cursor input with
  | (read, _, cursor, rest) => (read, cursor, rest)

/-- The first character that is not passed over, beginning with the one that is held. -/
def first (s : Scanner R) (input : Input) : Read × Cursor × Input :=
  match s.lookahead with
  | .ended => (.finish, s.cursor, input)
  | .nothing => s.seek input
  | .held c p => if s.skips c then s.seek input else (.char c p, s.cursor, input)

/-- The characters and failures that a scanner can still come upon in an input. -/
def weight (s : Scanner R) (input : Input) : Nat :=
  match s.lookahead with
  | .held _ _ => input.length + 1
  | .nothing | .ended => input.length

@[simp] theorem weight_moveTo_nothing (s : Scanner R) (lexicon : List R) (cursor : Cursor)
    (input : Input) : (s.moveTo lexicon cursor .nothing).weight input = input.length := rfl

@[simp] theorem weight_moveTo_ended (s : Scanner R) (lexicon : List R) (cursor : Cursor)
    (input : Input) : (s.moveTo lexicon cursor .ended).weight input = input.length := rfl

@[simp] theorem weight_moveTo_held (s : Scanner R) (lexicon : List R) (cursor : Cursor) (c : Char)
    (p : Position) (input : Input) :
    (s.moveTo lexicon cursor (.held c p)).weight input = input.length + 1 := rfl

theorem length_seek_lt (s : Scanner R) (input : Input) (h : (s.seek input).1 ≠ .finish) :
    (s.seek input).2.2.length < input.length := by
  have hg := length_gather s.maxChars
    (fun (_ : Unit) c _ => (s.skips c, ())) () s.cursor input
  rcases hg with hg | hg
  · exact absurd hg.1 h
  · exact hg.2

theorem length_first_lt (s : Scanner R) (input : Input) (h : (s.first input).1 ≠ .finish) :
    (s.first input).2.2.length < s.weight input := by
  cases hl : s.lookahead with
  | ended => simp [first, hl] at h
  | nothing =>
    simp only [first, weight, hl] at h ⊢
    exact length_seek_lt s input h
  | held c p =>
    simp only [first, weight, hl] at h ⊢
    split at h <;> rename_i hs
    · rw [if_pos hs]
      exact Nat.lt_succ_of_lt (length_seek_lt s input h)
    · rw [if_neg hs]
      exact Nat.lt_succ_self _

variable [Descriptor R]

def reset (s : Scanner R) : Scanner R :=
  s.moveTo (s.lexicon.map Descriptor.init) {} .nothing

def ofOptions (lexicon : List R) (options : Options) : Scanner R :=
  reset { lexicon, skipWhiteSpace := options.skipWhiteSpace, maxChars := options.maxChars }

/-- The next token, or `none` at the end of the input. After a fault the scanner goes on
behind what it has read; the characters of a token that came to nothing are lost. -/
def next (s : Scanner R) (input : Input) :
    Except ScanFault (Option Token) × Scanner R × Input :=
  match s.first input with
  | (.finish, cursor, rest) => (.ok none, s.moveTo s.lexicon cursor .ended, rest)
  | (.fault f, cursor, rest) => (.error f, s.moveTo s.lexicon cursor .nothing, rest)
  | (.char c p, cursor, rest) =>
    let asked := s.lexicon.map (.ask c)
    match Draft.begin? asked c p with
    | none =>
      (.error (.noMatch c p), s.moveTo (asked.map Candidate.descriptor) cursor .nothing, rest)
    | some d =>
      match gather s.maxChars Draft.extend d cursor rest with
      | (.fault f, d, cursor, rest) => (.error f, s.moveTo d.lexicon cursor .nothing, rest)
      | (read, d, cursor, rest) =>
        (d.token.map some, s.moveTo d.lexicon cursor read.lookahead, rest)

/-- Unless the input is at its end, `next` uses up some of it. -/
theorem weight_next_lt (s : Scanner R) (input : Input) (h : (s.next input).1 ≠ .ok none) :
    (s.next input).2.1.weight (s.next input).2.2 < s.weight input := by
  have hfirst := length_first_lt s input
  rcases hr : s.first input with ⟨read, cursor, rest⟩
  rw [hr] at hfirst
  rw [next, hr] at h ⊢
  cases read with
  | finish => exact absurd rfl h
  | fault f => exact hfirst nofun
  | char c p =>
    have hrest : rest.length < s.weight input := hfirst nofun
    cases hd : Draft.begin? (s.lexicon.map (.ask c)) c p with
    | none => simpa only [hd, weight_moveTo_nothing] using hrest
    | some d =>
      have hgather := length_gather s.maxChars Draft.extend d cursor rest
      rcases hr' : gather s.maxChars Draft.extend d cursor rest with ⟨read, d', cursor', rest'⟩
      rw [hr'] at hgather
      simp only [hd, hr']
      cases read with
      | finish =>
        have hend : rest' = [] := (hgather.resolve_right fun hne => hne.1 rfl).2
        rw [hend]
        exact Nat.zero_lt_of_lt hrest
      | fault f =>
        have hless : rest'.length < rest.length := (hgather.resolve_left nofun).2
        exact Nat.lt_trans hless hrest
      | char c p =>
        have hless : rest'.length < rest.length := (hgather.resolve_left nofun).2
        exact Nat.lt_of_le_of_lt hless hrest

end Scanner

end LaxJson
