import LaxJson.Input

/-!
# Reading UTF-8 from a buffered device

A device hands out its bytes in chunks and may fail between them. `nextChar` takes one
character off it, byte by byte, and `input` is the list of everything that `nextChar`
will answer. The first byte of a sequence tells its length; that many bytes are taken
before they are looked at, so a malformed sequence is reported once, as a whole.
-/
namespace LaxJson

/-- What one request to a device brings: at least one byte, or a failure. -/
inductive Fill
  | bytes (first : UInt8) (others : List UInt8)
  | failure (f : ReadFailure)
deriving DecidableEq, Repr

/-- A device as the list of what it hands out; after the list nothing comes any more. -/
abbrev ByteReader := List Fill

namespace ReadFailure

def leadByte : ReadFailure := ⟨.invalidData, "invalid UTF-8 lead byte"⟩

def truncated : ReadFailure := ⟨.invalidData, "truncated UTF-8 sequence"⟩

/-- A sequence of the announced length that encodes no character. -/
def sequence : ReadFailure := ⟨.invalidData, "invalid UTF-8 sequence"⟩

end ReadFailure

namespace ByteReader

def size : ByteReader → Nat
  | [] => 0
  | .bytes _ others :: rest => others.length + 1 + size rest
  | .failure _ :: rest => size rest

/-- The number of bytes and failures still to come. -/
def weight : ByteReader → Nat
  | [] => 0
  | .bytes _ others :: rest => others.length + 1 + weight rest
  | .failure _ :: rest => 1 + weight rest

def nextByte : ByteReader → Except ReadFailure (Option UInt8) × ByteReader
  | [] => (.ok none, [])
  | .failure f :: rest => (.error f, rest)
  | .bytes b [] :: rest => (.ok (some b), rest)
  | .bytes b (c :: cs) :: rest => (.ok (some b), .bytes c cs :: rest)

/-- The next `n` bytes; a failure on the way loses those before it. -/
def take : Nat → ByteReader → Except ReadFailure (List UInt8) × ByteReader
  | 0, r => (.ok [], r)
  | n + 1, r =>
    match r.nextByte with
    | (.error f, r) => (.error f, r)
    | (.ok none, r) => (.error .truncated, r)
    | (.ok (some b), r) =>
      match take n r with
      | (.ok bs, r) => (.ok (b :: bs), r)
      | (.error f, r) => (.error f, r)

/-- How many bytes follow `lead` in its sequence, if it can begin one. -/
def followers? (lead : UInt8) : Option Nat :=
  if lead ≤ 0x7F then some 0
  else if 0xC2 ≤ lead ∧ lead ≤ 0xDF then some 1
  else if 0xE0 ≤ lead ∧ lead ≤ 0xEF then some 2
  else if 0xF0 ≤ lead ∧ lead ≤ 0xF4 then some 3
  else none

def decode? (sequence : List UInt8) : Option Char :=
  sequence.toByteArray.utf8DecodeChar? 0

def nextChar (r : ByteReader) : Except ReadFailure (Option Char) × ByteReader :=
  match r.nextByte with
  | (.error f, r) => (.error f, r)
  | (.ok none, r) => (.ok none, r)
  | (.ok (some lead), r) =>
    match followers? lead with
    | none => (.error .leadByte, r)
    | some n =>
      match take n r with
      | (.error f, r) => (.error f, r)
      | (.ok others, r) =>
        match decode? (lead :: others) with
        | some c => (.ok (some c), r)
        | none => (.error .sequence, r)

/-- A byte or a failure that was brought has left the device. -/
theorem weight_nextByte (r : ByteReader) :
    r.nextByte = (.ok none, []) ∧ r = [] ∨ r.nextByte.2.weight + 1 = r.weight := by
  match r with
  | [] => exact .inl ⟨rfl, rfl⟩
  | .failure f :: rest => exact .inr (Nat.add_comm ..)
  | .bytes b [] :: rest =>
    right
    show weight rest + 1 = 0 + 1 + weight rest
    omega
  | .bytes b (c :: cs) :: rest =>
    right
    show cs.length + 1 + weight rest + 1 = cs.length + 1 + 1 + weight rest
    omega

theorem weight_take_le (n : Nat) (r : ByteReader) : (take n r).2.weight ≤ r.weight := by
  induction n generalizing r with
  | zero => exact Nat.le_refl _
  | succ n ih =>
    rw [take]
    rcases weight_nextByte r with ⟨-, rfl⟩ | hbyte
    · exact Nat.le_refl _
    · rcases hr : r.nextByte with ⟨answer, rest⟩
      rw [hr] at hbyte
      have hrest : rest.weight ≤ r.weight := Nat.le_of_succ_le (Nat.le_of_eq hbyte)
      rcases answer with f | _ | b
      · exact hrest
      · exact hrest
      · have hmore := Nat.le_trans (ih rest) hrest
        rcases ht : take n rest with ⟨others, rest'⟩
        rw [ht] at hmore
        cases others with
        | error f => simpa only [ht] using hmore
        | ok bs => simpa only [ht] using hmore

/-- Unless the device is at its end, `nextChar` takes something off it. -/
theorem weight_nextChar_lt (r : ByteReader) (h : r.nextChar.1 ≠ .ok none) :
    r.nextChar.2.weight < r.weight := by
  rcases weight_nextByte r with ⟨hend, -⟩ | hbyte
  · exact absurd (by rw [nextChar, hend]) h
  · rcases hr : r.nextByte with ⟨answer, rest⟩
    rw [hr] at hbyte
    have hrest : rest.weight < r.weight := Nat.lt_of_succ_le (Nat.le_of_eq hbyte)
    rw [nextChar, hr]
    rcases answer with f | _ | lead
    · exact hrest
    · exact hrest
    · cases hn : followers? lead with
      | none => simpa only [hn] using hrest
      | some n =>
        have hmore := Nat.lt_of_le_of_lt (weight_take_le n rest) hrest
        rcases ht : take n rest with ⟨others, rest'⟩
        rw [ht] at hmore
        cases others with
        | error f => simpa only [hn, ht] using hmore
        | ok others =>
          simp only [hn, ht]
          cases decode? (lead :: others) with
          | none => exact hmore
          | some c => exact hmore

/-- Everything that `nextChar` will answer, up to the end. -/
def input (r : ByteReader) : Input :=
  match h : r.nextChar with
  | (.ok none, _) => []
  | (.ok (some c), rest) =>
    have : rest.weight < r.weight := by
      have := weight_nextChar_lt r (by simp [h]); rwa [h] at this
    .ok c :: rest.input
  | (.error f, rest) =>
    have : rest.weight < r.weight := by
      have := weight_nextChar_lt r (by simp [h]); rwa [h] at this
    .error f :: rest.input
termination_by r.weight

/-- A device that hands out at most `size + 1` bytes at a time. -/
def ofBytes (size : Nat) (bytes : List UInt8) : ByteReader :=
  match bytes with
  | [] => []
  | b :: bs => .bytes b (bs.take size) :: ofBytes size (bs.drop size)
termination_by bytes.length
decreasing_by simp only [List.length_drop, List.length_cons]; omega

/-- The same device, but for a failure before the byte with the index `offset`. -/
def interrupt (f : ReadFailure) (offset : Nat) : ByteReader → ByteReader
  | [] => if offset = 0 then [.failure f] else []
  | .failure g :: rest =>
    if offset = 0 then .failure f :: .failure g :: rest
    else .failure g :: interrupt f offset rest
  | .bytes b bs :: rest =>
    if offset = 0 then .failure f :: .bytes b bs :: rest
    else match bs.drop (offset - 1) with
      | c :: cs => .bytes b (bs.take (offset - 1)) :: .failure f :: .bytes c cs :: rest
      | [] => .bytes b bs :: interrupt f (offset - 1 - bs.length) rest

end ByteReader

end LaxJson
