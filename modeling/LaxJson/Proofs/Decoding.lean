import LaxJson.Input.ByteReader
import LaxJson.Proofs.Scan.Tiling

/-!
# Bytes and characters

What a device hands out between two failures is a sequence of bytes, and how it is cut into
chunks does not matter. Where no request fails, the input is a text exactly when the bytes are
the UTF-8 encoding of that text (`ByteReader.input_eq_ofChars_iff`): each character is decoded
from its own bytes, and nothing but an encoding is decoded. Since a document is read to the end
of its input, bytes that encode no text are a fault wherever they stand
(`ByteReader.parse_input`).
-/
namespace LaxJson

namespace ByteReader

/-- The bytes still in the device. -/
def bytes : ByteReader → List UInt8
  | [] => []
  | .bytes b bs :: rest => b :: (bs ++ bytes rest)
  | .failure _ :: rest => bytes rest

/-- No request to the device fails. -/
def IsSteady (r : ByteReader) : Prop := ∀ f, Fill.failure f ∉ r

theorem followers?_ofNat {n : Nat} (h : n < 256) :
    followers? (.ofNat n) =
      if n ≤ 0x7F then some 0
      else if 0xC2 ≤ n ∧ n ≤ 0xDF then some 1
      else if 0xE0 ≤ n ∧ n ≤ 0xEF then some 2
      else if 0xF0 ≤ n ∧ n ≤ 0xF4 then some 3
      else none := by
  have hn : (UInt8.ofNat n).toNat = n := UInt8.toNat_ofNat_of_lt' h
  simp only [followers?, UInt8.le_iff_toNat_le, hn]
  rfl

/-- The first byte of an encoding announces its length. -/
theorem exists_followers?_eq (c : Char) :
    ∃ lead others, String.utf8EncodeChar c = lead :: others ∧
      followers? lead = some others.length := by
  have hv : c.val.toNat ≤ 0x10FFFF := by
    have hvalid := c.valid
    simp only [UInt32.isValidChar, Nat.isValidChar] at hvalid
    omega
  unfold String.utf8EncodeChar
  dsimp only
  split_ifs with h₁ h₂ h₃
  · refine ⟨_, _, rfl, ?_⟩
    rw [followers?_ofNat (by omega), if_pos h₁]
    rfl
  · refine ⟨_, _, rfl, ?_⟩
    rw [followers?_ofNat (by omega), if_neg (by omega), if_pos (by omega)]
    rfl
  · refine ⟨_, _, rfl, ?_⟩
    rw [followers?_ofNat (by omega), if_neg (by omega), if_neg (by omega), if_pos (by omega)]
    rfl
  · refine ⟨_, _, rfl, ?_⟩
    rw [followers?_ofNat (by omega), if_neg (by omega), if_neg (by omega), if_neg (by omega),
      if_pos (by omega)]
    rfl

/-- A sequence is decoded to the character whose encoding it begins with. -/
theorem decode?_eq_some_iff (sequence : List UInt8) (c : Char) :
    decode? sequence = some c ↔ String.utf8EncodeChar c <+: sequence := by
  constructor
  · intro h
    obtain ⟨b, hb⟩ := ByteArray.exists_of_utf8DecodeChar?_eq_some h
    refine ⟨b.data.toList, List.toByteArray_inj.1 ?_⟩
    rw [hb, List.toByteArray_append]
    exact congrArg _ (ByteArray.ext (Array.toList_inj.1 List.toList_data_toByteArray))
  · rintro ⟨tail, rfl⟩
    rw [decode?, List.toByteArray_append]
    exact ByteArray.utf8DecodeChar?_utf8EncodeChar_append

theorem utf8EncodeChar_append_inj {c d : Char} {x y : List UInt8} :
    String.utf8EncodeChar c ++ x = String.utf8EncodeChar d ++ y ↔ c = d ∧ x = y := by
  constructor
  · intro h
    have hc := (decode?_eq_some_iff _ c).2 ⟨x, h⟩
    have hd := (decode?_eq_some_iff _ d).2 ⟨y, rfl⟩
    obtain rfl := Option.some.inj (hc.symm.trans hd)
    exact ⟨rfl, List.append_cancel_left h⟩
  · rintro ⟨rfl, rfl⟩
    rfl

/-- The first byte of an encoding is the lead byte of its sequence. -/
theorem exists_of_utf8EncodeChar_prefix {c : Char} {lead : UInt8} {bs : List UInt8}
    (h : String.utf8EncodeChar c <+: lead :: bs) :
    ∃ others, String.utf8EncodeChar c = lead :: others ∧ followers? lead = some others.length ∧
      others <+: bs := by
  obtain ⟨lead', others, he, hf⟩ := exists_followers?_eq c
  rw [he, List.cons_prefix_cons] at h
  obtain ⟨rfl, hothers⟩ := h
  exact ⟨others, he, hf, hothers⟩

/-- In front of a sequence of the announced length stands no other encoding than the whole. -/
theorem utf8EncodeChar_prefix_iff {lead : UInt8} {others : List UInt8}
    (hf : followers? lead = some others.length) (bs : List UInt8) (c : Char) :
    String.utf8EncodeChar c <+: lead :: (others ++ bs) ↔
      String.utf8EncodeChar c = lead :: others := by
  constructor
  · intro h
    obtain ⟨others', he, hf', hothers⟩ := exists_of_utf8EncodeChar_prefix h
    have hlength : others'.length = others.length := Option.some.inj (hf'.symm.trans hf)
    have hprefix : others' <+: others :=
      List.prefix_of_prefix_length_le hothers (List.prefix_append others bs) hlength.le
    rw [he, hprefix.eq_of_length hlength]
  · intro h
    rw [h]
    exact ⟨bs, rfl⟩

theorem decode?_eq_some_iff_of_followers? {lead : UInt8} {others : List UInt8}
    (hf : followers? lead = some others.length) (c : Char) :
    decode? (lead :: others) = some c ↔ String.utf8EncodeChar c = lead :: others := by
  rw [decode?_eq_some_iff]
  simpa using utf8EncodeChar_prefix_iff hf [] c

/-- What is reported of bytes that no encoding stands in front of, and the bytes behind that. -/
inductive Malformed : List UInt8 → ReadFailure → List UInt8 → Prop
  | leadByte {lead bs} (hf : followers? lead = none) : Malformed (lead :: bs) .leadByte bs
  | truncated {lead bs n} (hf : followers? lead = some n) (hn : bs.length < n) :
      Malformed (lead :: bs) .truncated []
  | sequence {lead others bs} (hf : followers? lead = some others.length)
      (hc : ∀ c, String.utf8EncodeChar c ≠ lead :: others) :
      Malformed (lead :: (others ++ bs)) .sequence bs

theorem Malformed.ne_nil {bs rest : List UInt8} {f : ReadFailure} (h : Malformed bs f rest) :
    bs ≠ [] := by
  cases h <;> simp

theorem Malformed.not_prefix {bs rest : List UInt8} {f : ReadFailure} (h : Malformed bs f rest)
    (c : Char) : ¬ String.utf8EncodeChar c <+: bs := by
  intro hc
  cases h with
  | leadByte hf =>
    obtain ⟨others, -, hf', -⟩ := exists_of_utf8EncodeChar_prefix hc
    cases hf.symm.trans hf'
  | truncated hf hn =>
    obtain ⟨others, -, hf', hothers⟩ := exists_of_utf8EncodeChar_prefix hc
    have hannounced : others.length = _ := Option.some.inj (hf'.symm.trans hf)
    have hle := hothers.length_le
    omega
  | sequence hf hnot => exact hnot c ((utf8EncodeChar_prefix_iff hf _ c).1 hc)

section
variable {r : ByteReader}

/-- The first of the bytes, wherever the chunks end. -/
theorem IsSteady.nextByte_cases (h : r.IsSteady) :
    r.bytes = [] ∧ r.nextByte = (.ok none, []) ∨
      ∃ b r', r.nextByte = (.ok (some b), r') ∧ r.bytes = b :: r'.bytes ∧ r'.IsSteady := by
  match r with
  | [] => exact .inl ⟨rfl, rfl⟩
  | .failure f :: rest => exact absurd (List.mem_cons_self ..) (h f)
  | .bytes b [] :: rest =>
    exact .inr ⟨b, rest, rfl, rfl, fun f hf => h f (List.mem_cons_of_mem _ hf)⟩
  | .bytes b (c :: cs) :: rest =>
    refine .inr ⟨b, .bytes c cs :: rest, rfl, rfl, fun f hf => h f ?_⟩
    exact List.mem_cons_of_mem _ ((List.mem_cons.1 hf).resolve_left nofun)

/-- The first `n` of the bytes, unless there are fewer. -/
theorem IsSteady.take_cases (h : r.IsSteady) (n : Nat) :
    (∃ bs r', take n r = (.ok bs, r') ∧ bs.length = n ∧ r.bytes = bs ++ r'.bytes ∧ r'.IsSteady) ∨
      take n r = (.error .truncated, []) ∧ r.bytes.length < n := by
  induction n generalizing r with
  | zero => exact .inl ⟨[], r, rfl, rfl, rfl, h⟩
  | succ n ih =>
    rcases h.nextByte_cases with ⟨hb, hnext⟩ | ⟨b, r₁, hnext, hb, h₁⟩
    · exact .inr ⟨by rw [take, hnext], by simp [hb]⟩
    · rcases ih h₁ with ⟨bs, r', htake, hlength, hbs, h'⟩ | ⟨htake, hlength⟩
      · exact .inl ⟨b :: bs, r', by rw [take, hnext]; simp only [htake], by simp [hlength],
          by rw [hb, hbs, List.cons_append], h'⟩
      · exact .inr ⟨by rw [take, hnext]; simp only [htake], by simpa [hb] using hlength⟩

/-- What `nextChar` comes to where no request fails. -/
theorem IsSteady.nextChar_cases (h : r.IsSteady) :
    (r.bytes = [] ∧ r.nextChar = (.ok none, [])) ∨
      (∃ c r', r.nextChar = (.ok (some c), r') ∧ r.bytes = String.utf8EncodeChar c ++ r'.bytes ∧
        r'.IsSteady) ∨
      ∃ f r', r.nextChar = (.error f, r') ∧ Malformed r.bytes f r'.bytes := by
  rcases h.nextByte_cases with ⟨hb, hnext⟩ | ⟨lead, r₁, hnext, hb, h₁⟩
  · exact .inl ⟨hb, by rw [nextChar, hnext]⟩
  refine .inr ?_
  cases hf : followers? lead with
  | none =>
    refine .inr ⟨.leadByte, r₁, ?_, hb ▸ .leadByte hf⟩
    rw [nextChar, hnext]
    simp only [hf]
  | some n =>
    rcases h₁.take_cases n with ⟨others, r', htake, rfl, hbs, h'⟩ | ⟨htake, hlength⟩
    · cases hd : decode? (lead :: others) with
      | some c =>
        have he := (decode?_eq_some_iff_of_followers? hf c).1 hd
        refine .inl ⟨c, r', ?_, by rw [hb, hbs, he, List.cons_append], h'⟩
        rw [nextChar, hnext]
        simp only [hf, htake, hd]
      | none =>
        refine .inr ⟨.sequence, r', ?_, ?_⟩
        · rw [nextChar, hnext]
          simp only [hf, htake, hd]
        · rw [hb, hbs]
          refine .sequence hf fun c hc => ?_
          rw [← decode?_eq_some_iff_of_followers? hf, hd] at hc
          cases hc
    · refine .inr ⟨.truncated, [], ?_, hb ▸ .truncated hf hlength⟩
      rw [nextChar, hnext]
      simp only [hf, htake]

theorem input_eq (r : ByteReader) :
    r.input =
      match r.nextChar with
      | (.ok none, _) => []
      | (.ok (some c), rest) => .ok c :: rest.input
      | (.error f, rest) => .error f :: rest.input := by
  rw [input]
  split <;> rename_i h <;> simp only [h]

/-- What a steady device brings is a text exactly when its bytes are the encoding of that text. -/
theorem input_eq_ofChars_iff (h : r.IsSteady) (text : List Char) :
    r.input = .ofChars text ↔ r.bytes = text.flatMap String.utf8EncodeChar := by
  induction text generalizing r with
  | nil =>
    rw [input_eq, Input.ofChars_nil, List.flatMap_nil]
    rcases h.nextChar_cases with ⟨hb, hn⟩ | ⟨c, r', hn, hb, -⟩ | ⟨f, r', hn, hb⟩
    · simp [hn, hb]
    · simp [hn, hb]
    · simp [hn, hb.ne_nil]
  | cons c text ih =>
    rw [input_eq, Input.ofChars_cons, List.flatMap_cons]
    rcases h.nextChar_cases with ⟨hb, hn⟩ | ⟨d, r', hn, hb, h'⟩ | ⟨f, r', hn, hb⟩
    · simp [hn, hb]
    · rw [hn, hb, utf8EncodeChar_append_inj, ← ih h', List.cons.injEq, Except.ok.injEq]
    · rw [hn]
      exact iff_of_false nofun fun he => hb.not_prefix c ⟨_, he.symm⟩

end

end ByteReader

namespace Lexer
variable {V R : Type} [Checker V] [Descriptor R]

/-- What is delivered to its end is a text: no read on the way has failed. -/
theorem exists_ofChars_of_delivers {l l' : Lexer V R} {input rest : Input} {ts : List Token}
    (h : Delivers next l input ts (.ok ()) l' rest) {done : List Char}
    (hs : l.scanner.Stands done) : ∃ text, l.scanner.ahead input = .ofChars text := by
  generalize he : Except.ok () = e at h
  induction h generalizing done with
  | finish h =>
    obtain ⟨gap, ha, -⟩ := hs.exists_gap_of_next (scanner_next_of_finish h)
    exact ⟨gap, ha⟩
  | fault => cases he
  | @token l input t l₁ rest₁ ts e l' rest h _ ih =>
    obtain ⟨gap, ha, -, -, -, -, hs₁, -⟩ := hs.exists_of_next (scanner_next_of_token h)
    obtain ⟨text, htext⟩ := ih hs₁ he
    exact ⟨gap ++ t.text ++ text, by simp [ha, htext]⟩

end Lexer

namespace Parser
variable {V R : Type} [Checker V] [Descriptor R]

/-- A tree is found in texts only. -/
theorem exists_ofChars_of_parse_eq_ok {p : Parser V R} {input : Input} {tree : Tree}
    (h : (p.parse input).1 = .ok tree) : ∃ text, input = .ofChars text := by
  obtain ⟨ts, l, rest, hd, -⟩ := (parse_eq_ok_iff p input tree).1 h
  exact Lexer.exists_ofChars_of_delivers hd (Scanner.stands_reset p.lexer.scanner)

end Parser

namespace ByteReader

/-- However the encoding of a string is cut into chunks, it is read as the string itself: with
the same tree or the same fault, places included. Bytes that encode no string have no tree. -/
theorem parse_input {r : ByteReader} (h : r.IsSteady) (options : Options) :
    (∀ s : String, r.bytes.toByteArray = s.toUTF8 →
      parse r.input options = parse (.ofString s) options) ∧
    (¬ r.bytes.toByteArray.IsValidUTF8 → ∃ f, parse r.input options = .error f) := by
  constructor
  · intro s hs
    rw [String.toUTF8_eq_toByteArray, ← String.utf8Encode_toList] at hs
    have hinput := (input_eq_ofChars_iff h s.toList).2 (List.toByteArray_inj.1 hs)
    rw [hinput, Input.ofString]
  · intro hnot
    cases hp : parse r.input options with
    | error f => exact ⟨f, rfl⟩
    | ok tree =>
      obtain ⟨text, htext⟩ := Parser.exists_ofChars_of_parse_eq_ok hp
      have hbytes := (input_eq_ofChars_iff h text).1 htext
      exact absurd ⟨text, by rw [hbytes, List.utf8Encode]⟩ hnot

/-- A chunk may end inside a character, and what follows a whole document is not ignored. -/
theorem parse_input_split :
    parse (input [.bytes 0x22 [0xC3], .bytes 0xA9 [0x22]]) = parse (.ofString "\"é\"") ∧
      ∃ f, parse (input [.bytes 0x5B [0x5D, 0xFF]]) = .error f := by
  constructor
  · exact (parse_input (r := [.bytes 0x22 [0xC3], .bytes 0xA9 [0x22]]) (by simp [IsSteady]) {}).1
      "\"é\"" (by decide)
  · exact (parse_input (r := [.bytes 0x5B [0x5D, 0xFF]]) (by simp [IsSteady]) {}).2 (by decide)

end ByteReader

end LaxJson
