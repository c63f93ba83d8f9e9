import LaxJson.Proofs.Decoding

/-!
# How far bytes are a text

A steady device is read character by character as far as its bytes are UTF-8, and the first
answer that is no character tells why they go on no further: there are none left, or no encoding
begins there. Which of the two it is, and the words of the complaint, are told by the bytes alone
(`ByteReader.Ends`), so the chunks do not matter. Of a malformed sequence no more is taken than
its first byte announces. `exists_decodes_of_isSteady` puts this together.
-/
namespace LaxJson

namespace ByteReader

/-- Encodings that begin with `lead` have `n` more bytes. -/
def Announces (lead : UInt8) (n : Nat) : Prop :=
  ∃ c others, String.utf8EncodeChar c = lead :: others ∧ others.length = n

theorem toNat_le (c : Char) : c.val.toNat ≤ 0x10FFFF := by
  have hvalid := c.valid
  simp only [UInt32.isValidChar, Nat.isValidChar] at hvalid
  omega

/-- Every byte of the table is the first of some encoding. -/
theorem exists_head?_eq_of_followers? {lead : UInt8} {n : Nat} (h : followers? lead = some n) :
    ∃ c, (String.utf8EncodeChar c).head? = some lead := by
  have hval (v : Nat) (hv : v.isValidChar) : (Char.ofNat v).val.toNat = v := by
    rw [Char.ofNat, dif_pos hv]
    rfl
  have hlead : lead = UInt8.ofNat lead.toNat := by simp
  have hlt : lead.toNat < 256 := lead.toNat_lt
  rw [hlead, followers?_ofNat hlt] at h
  rw [hlead]
  generalize lead.toNat = b at h hlt ⊢
  simp only [String.utf8EncodeChar]
  split_ifs at h with h₁ h₂ h₃ h₄
  · refine ⟨Char.ofNat b, ?_⟩
    rw [hval b (by simp only [Nat.isValidChar]; omega), if_pos h₁, List.head?_cons]
  · refine ⟨Char.ofNat (b % 32 * 64), ?_⟩
    have hb : b % 32 * 64 / 64 % 32 + 192 = b := by omega
    rw [hval _ (by simp only [Nat.isValidChar]; omega), if_neg (by omega), if_pos (by omega), hb,
      List.head?_cons]
  · refine ⟨Char.ofNat (max (b % 16 * 4096) 0x800), ?_⟩
    have hb : max (b % 16 * 4096) 0x800 / 4096 % 16 + 224 = b := by omega
    rw [hval _ (by simp only [Nat.isValidChar]; omega), if_neg (by omega), if_neg (by omega),
      if_pos (by omega), hb, List.head?_cons]
  · refine ⟨Char.ofNat (max (b % 8 * 262144) 0x10000), ?_⟩
    have hb : max (b % 8 * 262144) 0x10000 / 262144 % 8 + 240 = b := by omega
    rw [hval _ (by simp only [Nat.isValidChar]; omega), if_neg (by omega), if_neg (by omega),
      if_neg (by omega), hb, List.head?_cons]

/-- The table tells of a byte how long the encodings are that begin with it. -/
theorem followers?_eq_some_iff (lead : UInt8) (n : Nat) :
    followers? lead = some n ↔ Announces lead n := by
  constructor
  · intro h
    obtain ⟨c, hc⟩ := exists_head?_eq_of_followers? h
    obtain ⟨lead', others, he, hf⟩ := exists_followers?_eq c
    rw [he, List.head?_cons] at hc
    cases hc
    exact ⟨c, others, he, Option.some.inj (hf.symm.trans h)⟩
  · rintro ⟨c, others, he, rfl⟩
    obtain ⟨lead', others', he', hf⟩ := exists_followers?_eq c
    rw [he] at he'
    cases he'
    exact hf

/-- The bytes that no encoding begins with. -/
theorem followers?_eq_none_iff (lead : UInt8) :
    followers? lead = none ↔ 0x80 ≤ lead ∧ lead ≤ 0xC1 ∨ 0xF5 ≤ lead := by
  have hlead : lead = UInt8.ofNat lead.toNat := by simp
  have hlt : lead.toNat < 256 := lead.toNat_lt
  simp only [UInt8.le_iff_toNat_le]
  conv_lhs => rw [hlead, followers?_ofNat hlt]
  generalize lead.toNat = b at hlt
  change _ ↔ 128 ≤ b ∧ b ≤ 193 ∨ 245 ≤ b
  split_ifs <;> simp <;> omega

/-- The number that the bits of a sequence of more than one byte spell, whether or not it stands
for a character. Six bits are from each of the others, and the more there are of them the fewer are
from the first. -/
def spelled (lead : UInt8) (others : List UInt8) : Nat :=
  others.foldl (fun v b => v * 64 + b.toNat % 64) (lead.toNat % (64 >>> others.length))

/-- The least number that takes `n` bytes behind the first one. -/
def leastSpelled : Nat → Nat
  | 0 => 0
  | 1 => 0x80
  | 2 => 0x800
  | _ => 0x10000

/-- The sequence spells a number that has a shorter encoding, a surrogate, or a number beyond the
last code point. -/
def IsForbidden (lead : UInt8) (others : List UInt8) : Prop :=
  others ≠ [] ∧
    (spelled lead others < leastSpelled others.length ∨
      0xD800 ≤ spelled lead others ∧ spelled lead others ≤ 0xDFFF ∨
      0x10FFFF < spelled lead others)

/-- An encoding spells the number of its character, and no other could do so with fewer bytes. -/
theorem spelled_eq {c : Char} {lead : UInt8} {others : List UInt8}
    (he : String.utf8EncodeChar c = lead :: others) (hn : others ≠ []) :
    spelled lead others = c.val.toNat ∧ leastSpelled others.length ≤ c.val.toNat := by
  have hv := toNat_le c
  unfold String.utf8EncodeChar at he
  dsimp only at he
  generalize c.val.toNat = v at he hv
  split_ifs at he with h₁ h₂ h₃ <;> cases he
  · exact absurd rfl hn
  · simp [spelled, leastSpelled]
    omega
  · simp [spelled, leastSpelled]
    omega
  · simp [spelled, leastSpelled]
    omega

theorem IsForbidden.utf8EncodeChar_ne {lead : UInt8} {others : List UInt8}
    (h : IsForbidden lead others) (c : Char) : String.utf8EncodeChar c ≠ lead :: others := by
  intro he
  obtain ⟨hn, hforbidden⟩ := h
  obtain ⟨hspelled, hleast⟩ := spelled_eq he hn
  have hvalid := c.valid
  simp only [UInt32.isValidChar, Nat.isValidChar] at hvalid
  omega

section
variable {text m : List Char} {left : List UInt8}

/-- Where no encoding stands behind a text, every text in front of the bytes begins it. -/
theorem prefix_of_flatMap_prefix (hleft : ∀ c, ¬ String.utf8EncodeChar c <+: left)
    (h : m.flatMap String.utf8EncodeChar <+: text.flatMap String.utf8EncodeChar ++ left) :
    m <+: text := by
  induction m generalizing text with
  | nil => exact List.nil_prefix
  | cons d m ih =>
    rw [List.flatMap_cons] at h
    cases text with
    | nil => exact absurd ((List.prefix_append ..).trans h) (hleft d)
    | cons c text =>
      obtain ⟨more, hmore⟩ := h
      rw [List.flatMap_cons, List.append_assoc, List.append_assoc,
        utf8EncodeChar_append_inj] at hmore
      obtain ⟨rfl, hmore⟩ := hmore
      exact List.cons_prefix_cons.2 ⟨rfl, ih ⟨more, hmore⟩⟩

theorem exists_flatMap_eq_of_isValidUTF8 {bs : List UInt8} (h : bs.toByteArray.IsValidUTF8) :
    ∃ m : List Char, bs = m.flatMap String.utf8EncodeChar := by
  obtain ⟨m, hm⟩ := h
  exact ⟨m, List.toByteArray_inj.1 hm⟩

/-- Of what stands in front of the bytes and is valid, the text is the longest. -/
theorem prefix_of_isValidUTF8 (hleft : ∀ c, ¬ String.utf8EncodeChar c <+: left) {bs : List UInt8}
    (h : bs <+: text.flatMap String.utf8EncodeChar ++ left) (hbs : bs.toByteArray.IsValidUTF8) :
    bs <+: text.flatMap String.utf8EncodeChar := by
  obtain ⟨m, rfl⟩ := exists_flatMap_eq_of_isValidUTF8 hbs
  obtain ⟨more, rfl⟩ := prefix_of_flatMap_prefix hleft h
  exact ⟨_, List.flatMap_append.symm⟩

/-- With the text and something more the bytes are not valid. -/
theorem isValidUTF8_append_iff (hleft : ∀ c, ¬ String.utf8EncodeChar c <+: left) :
    (text.flatMap String.utf8EncodeChar ++ left).toByteArray.IsValidUTF8 ↔ left = [] := by
  constructor
  · intro h
    have hprefix := prefix_of_isValidUTF8 hleft List.prefix_rfl h
    have hle := hprefix.length_le
    rw [List.length_append] at hle
    exact List.eq_nil_of_length_eq_zero (by omega)
  · rintro rfl
    exact ⟨text, by rw [List.append_nil, List.utf8Encode]⟩

end

/-- The device after some characters have been asked for. -/
def after (r : ByteReader) (n : Nat) : ByteReader := (fun d => d.nextChar.2)^[n] r

/-- The answer of `nextChar` behind `n` others. -/
def answer (r : ByteReader) (n : Nat) : Except ReadFailure (Option Char) := (r.after n).nextChar.1

/-- How reading comes to an end that has got as far as `left`, and what it leaves. -/
inductive Ends : List UInt8 → Except ReadFailure (Option Char) → List UInt8 → Prop
  | finish : Ends [] (.ok none) []
  | leadByte {lead bs} (h : 0x80 ≤ lead ∧ lead ≤ 0xC1 ∨ 0xF5 ≤ lead) :
      Ends (lead :: bs) (.error ⟨.invalidData, "invalid UTF-8 lead byte"⟩) bs
  | truncated {lead bs n} (ha : Announces lead n) (hn : bs.length < n) :
      Ends (lead :: bs) (.error ⟨.invalidData, "truncated UTF-8 sequence"⟩) []
  | sequence {lead others bs} (ha : Announces lead others.length)
      (hc : ∀ c, String.utf8EncodeChar c ≠ lead :: others) :
      Ends (lead :: (others ++ bs)) (.error ⟨.invalidData, "invalid UTF-8 sequence"⟩) bs

/-- Reading brings `text`, character by character, each off its own bytes, and then comes to an
end in front of `left`. -/
structure Decodes (r : ByteReader) (text : List Char) (left : List UInt8) : Prop where
  answer_eq : ∀ n (hn : n < text.length), r.answer n = .ok (some text[n])
  bytes_after : ∀ n ≤ text.length,
    (r.after n).bytes = (text.drop n).flatMap String.utf8EncodeChar ++ left
  ends : Ends left (r.answer text.length) (r.after (text.length + 1)).bytes

theorem Malformed.ends {bs rest : List UInt8} {f : ReadFailure} (h : Malformed bs f rest) :
    Ends bs (.error f) rest := by
  cases h with
  | leadByte hf => exact .leadByte ((followers?_eq_none_iff _).1 hf)
  | truncated hf hn => exact .truncated ((followers?_eq_some_iff _ _).1 hf) hn
  | sequence hf hc => exact .sequence ((followers?_eq_some_iff _ _).1 hf) hc

theorem Decodes.cons {r r' : ByteReader} {c : Char} {text : List Char} {left : List UInt8}
    (h : r'.Decodes text left) (hn : r.nextChar = (.ok (some c), r'))
    (hb : r.bytes = String.utf8EncodeChar c ++ r'.bytes) : r.Decodes (c :: text) left := by
  have hafter (n : Nat) : r.after (n + 1) = r'.after n := by
    rw [after, Function.iterate_succ_apply, hn, after]
  have hanswer (n : Nat) : r.answer (n + 1) = r'.answer n := by
    rw [answer, hafter, answer]
  refine ⟨fun n hlt => ?_, fun n hle => ?_, ?_⟩
  · cases n with
    | zero => exact congrArg Prod.fst hn
    | succ n => exact (hanswer n).trans (h.answer_eq n (Nat.lt_of_succ_lt_succ hlt))
  · cases n with
    | zero =>
      have hrest := h.bytes_after 0 (Nat.zero_le _)
      rw [after, Function.iterate_zero_apply, List.drop_zero] at hrest
      rw [after, Function.iterate_zero_apply, hb, hrest, List.drop_zero, List.flatMap_cons,
        List.append_assoc]
    | succ n =>
      rw [hafter, List.drop_succ_cons]
      exact h.bytes_after n (Nat.le_of_succ_le_succ hle)
  · rw [List.length_cons, hanswer, hafter]
    exact h.ends

/-- Some text is read, and no encoding stands in front of what is left. -/
theorem IsSteady.exists_decodes {r : ByteReader} (h : r.IsSteady) :
    ∃ text left, r.Decodes text left ∧ ∀ c, ¬ String.utf8EncodeChar c <+: left := by
  induction hsize : r.weight using Nat.strong_induction_on generalizing r with
  | h size ih =>
    have hzero (n : Nat) (hle : n ≤ ([] : List Char).length) :
        (r.after n).bytes = (([] : List Char).drop n).flatMap String.utf8EncodeChar ++ r.bytes := by
      obtain rfl : n = 0 := Nat.le_zero.1 hle
      rfl
    rcases h.nextChar_cases with ⟨hb, hn⟩ | ⟨c, r', hn, hb, h'⟩ | ⟨f, r', hn, hb⟩
    · refine ⟨[], r.bytes, ⟨nofun, hzero, ?_⟩, fun c hc => ?_⟩
      · have hanswer : r.answer 0 = .ok none := congrArg Prod.fst hn
        have hafter : r.after 1 = [] := congrArg Prod.snd hn
        rw [List.length_nil, hanswer, hafter, hb]
        exact .finish
      · obtain ⟨_, _, he, -⟩ := exists_followers?_eq c
        rw [he, hb] at hc
        cases List.prefix_nil.1 hc
    · have hlt : r'.weight < r.weight := by
        have hless := weight_nextChar_lt r (by simp [hn])
        rwa [hn] at hless
      obtain ⟨text, left, hd, hleft⟩ := ih _ (hsize ▸ hlt) h' rfl
      exact ⟨c :: text, left, hd.cons hn hb, hleft⟩
    · refine ⟨[], r.bytes, ⟨nofun, hzero, ?_⟩, hb.not_prefix⟩
      have hanswer : r.answer 0 = .error f := congrArg Prod.fst hn
      have hafter : r.after 1 = r' := congrArg Prod.snd hn
      rw [List.length_nil, hanswer, hafter]
      exact hb.ends

theorem Decodes.bytes_eq {r : ByteReader} {text : List Char} {left : List UInt8}
    (h : r.Decodes text left) : r.bytes = text.flatMap String.utf8EncodeChar ++ left :=
  h.bytes_after 0 (Nat.zero_le _)

theorem Ends.eq_none_iff {left rest : List UInt8} {a : Except ReadFailure (Option Char)}
    (h : Ends left a rest) : a = .ok none ↔ left = [] := by
  cases h <;> simp

/-- An announced sequence that no encoding is equal to is reported as a whole. -/
theorem Ends.eq_sequence {lead : UInt8} {others bs rest : List UInt8}
    {a : Except ReadFailure (Option Char)} (h : Ends (lead :: (others ++ bs)) a rest)
    (ha : Announces lead others.length) :
    a = .error ⟨.invalidData, "invalid UTF-8 sequence"⟩ := by
  have hf := (followers?_eq_some_iff _ _).2 ha
  generalize hleft : lead :: (others ++ bs) = left at h
  cases h with
  | finish => cases hleft
  | leadByte hrange =>
    cases hleft
    cases hf.symm.trans ((followers?_eq_none_iff _).2 hrange)
  | truncated ha' hn =>
    cases hleft
    have hsame := Option.some.inj (hf.symm.trans ((followers?_eq_some_iff _ _).2 ha'))
    rw [List.length_append] at hn
    omega
  | sequence => rfl

/-- Where a forbidden sequence stands behind a text, no more than the text is read. -/
theorem Decodes.eq_of_isForbidden {r : ByteReader} {text done : List Char} {left : List UInt8}
    {lead : UInt8} {others rest : List UInt8} (h : r.Decodes text left)
    (hleft : ∀ c, ¬ String.utf8EncodeChar c <+: left)
    (hb : r.bytes = done.flatMap String.utf8EncodeChar ++ lead :: (others ++ rest))
    (ha : Announces lead others.length) (hforbidden : IsForbidden lead others) :
    text = done ∧ left = lead :: (others ++ rest) := by
  rw [h.bytes_eq] at hb
  obtain ⟨more, rfl⟩ := prefix_of_flatMap_prefix hleft ⟨_, hb.symm⟩
  rw [List.flatMap_append, List.append_assoc, List.append_cancel_left_eq] at hb
  cases more with
  | nil => exact ⟨List.append_nil done, hb⟩
  | cons c more =>
    have hprefix : String.utf8EncodeChar c <+: lead :: (others ++ rest) := by
      rw [← hb, List.flatMap_cons, List.append_assoc]
      exact List.prefix_append ..
    have hf := (followers?_eq_some_iff _ _).2 ha
    exact absurd ((utf8EncodeChar_prefix_iff hf rest c).1 hprefix) (hforbidden.utf8EncodeChar_ne c)

/-- However the bytes of a steady device are cut into chunks, `nextChar` brings, one after another,
the characters of the longest valid text in front of them. Its next answer is the end exactly if
this is all of the bytes, and else it says what is wrong with the sequence that stands there, of
which no more is taken than is announced. Sequences that spell a number with too many bytes, a
surrogate, or a number that is too great are never read. -/
theorem exists_decodes_of_isSteady {r : ByteReader} (h : r.IsSteady) :
    ∃ text left, r.Decodes text left ∧
      (∀ bs, bs <+: r.bytes → bs.toByteArray.IsValidUTF8 →
        bs <+: text.flatMap String.utf8EncodeChar) ∧
      (r.answer text.length = .ok none ↔ r.bytes.toByteArray.IsValidUTF8) ∧
      ∀ done lead others rest,
        r.bytes = done.flatMap String.utf8EncodeChar ++ lead :: (others ++ rest) →
        Announces lead others.length → IsForbidden lead others →
          text = done ∧
            r.answer done.length = .error ⟨.invalidData, "invalid UTF-8 sequence"⟩ := by
  obtain ⟨text, left, hd, hleft⟩ := h.exists_decodes
  refine ⟨text, left, hd, fun bs hbs hvalid => ?_, ?_, ?_⟩
  · rw [hd.bytes_eq] at hbs
    exact prefix_of_isValidUTF8 hleft hbs hvalid
  · rw [hd.ends.eq_none_iff, hd.bytes_eq, isValidUTF8_append_iff hleft]
  · intro done lead others rest hb ha hforbidden
    obtain ⟨rfl, rfl⟩ := hd.eq_of_isForbidden hleft hb ha hforbidden
    exact ⟨rfl, hd.ends.eq_sequence ha⟩

/-- An arrow is read off two chunks, and then a surrogate is met that is spread over two more; the
letter behind it is not touched. -/
theorem exists_decodes_of_isSteady_surrogate :
    let r : ByteReader := [.bytes 0x61 [0xE2], .bytes 0x86 [0x92, 0xED], .bytes 0xA0 [0x80, 0x62]]
    r.IsSteady ∧ r.answer 0 = .ok (some 'a') ∧ r.answer 1 = .ok (some '→') ∧
      r.answer 2 = .error ⟨.invalidData, "invalid UTF-8 sequence"⟩ ∧
      (r.after 3).bytes = [0x62] := by
  intro r
  have hsteady : r.IsSteady := by simp [r, IsSteady]
  obtain ⟨text, left, hd, -, -, hforbidden⟩ := exists_decodes_of_isSteady hsteady
  have hannounces : Announces 0xED [0xA0, 0x80].length := (followers?_eq_some_iff ..).1 (by decide)
  obtain ⟨rfl, hanswer⟩ := hforbidden ['a', '→'] 0xED [0xA0, 0x80] [0x62] (by decide) hannounces
    ⟨by decide, by decide⟩
  exact ⟨hsteady, hd.answer_eq 0 (by decide), hd.answer_eq 1 (by decide), hanswer, by decide⟩

end ByteReader

end LaxJson
