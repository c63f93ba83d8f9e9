import LaxJson.Proofs.Scan.Reach
import LaxJson.Proofs.Scan.Stages

/-!
# The words that a keyword reads

A keyword looks for its next character behind an offset into the UTF-8 form of a word, and moves the
offset on by the size of each character that it takes. An offset cuts a text in two where a
character begins or the text ends, and nowhere else (`Keyword.isSome_dropBytes?_iff`). A character
that is refused leaves the offset where it is, so it is always the size of what has been taken
(`Recognizer.read?_taken`), which is a beginning of the word. The first character has chosen the
word; where no two words begin with the same, a keyword reads the words, their beginnings, and
nothing else (`Recognizer.keyword_reads_words`).
-/
namespace LaxJson
open Lexicon

namespace Lexicon.Keyword

theorem byteSize_eq_utf8ByteSize (text : List Char) :
    byteSize text = (String.ofList text).utf8ByteSize := by
  induction text with
  | nil => rfl
  | cons c text ih =>
    rw [← List.singleton_append, String.ofList_append, String.utf8ByteSize_append, ← ih]
    simp

theorem dropBytes?_eq_some_iff {text rest : List Char} {n : Nat} :
    dropBytes? text n = some rest ↔ ∃ done, text = done ++ rest ∧ byteSize done = n := by
  constructor
  · intro h
    fun_induction dropBytes? text n with
    | case1 text =>
      cases h
      exact ⟨[], rfl, rfl⟩
    | case2 => cases h
    | case3 c text n hc ih =>
      obtain ⟨done, rfl, hn⟩ := ih h
      refine ⟨c :: done, rfl, ?_⟩
      rw [byteSize_cons]
      omega
    | case4 => cases h
  · rintro ⟨done, rfl, rfl⟩
    exact dropBytes?_append done rest

/-- A text can be cut where a character begins, or where the text ends. -/
theorem isSome_dropBytes?_iff {text : List Char} {n : Nat} :
    (dropBytes? text n).isSome = true ↔ String.Pos.Raw.IsValid (String.ofList text) ⟨n⟩ := by
  rw [String.Pos.Raw.isValid_ofList, Option.isSome_iff_exists]
  simp only [dropBytes?_eq_some_iff, ← byteSize_eq_utf8ByteSize]
  constructor
  · rintro ⟨rest, done, rfl, rfl⟩
    exact ⟨done.length, by rw [List.take_left]⟩
  · rintro ⟨i, rfl⟩
    exact ⟨text.drop i, text.take i, (List.take_append_drop i text).symm, rfl⟩

end Lexicon.Keyword

namespace Descriptor
variable {R : Type} [Descriptor R]

/-- Those characters of a text that a descriptor at work on a token goes on with, when it is asked
about each of them in turn, whether it has refused others before or not. -/
def taken : R → List Char → List Char
  | _, [] => []
  | r, c :: text =>
    match extend r c with
    | (true, r) => c :: taken r text
    | (false, r) => taken r text

end Descriptor

namespace Recognizer
open Descriptor

/-- The characters that a recognizer refuses make no difference to where the others lead it. -/
theorem follow?_taken (r : Recognizer) (text : List Char) :
    r.follow? (taken r text) = some (onward r text) := by
  induction text generalizing r with
  | nil => rfl
  | cons c text ih =>
    rw [taken, onward]
    cases h : r.next? c with
    | none => simpa [Descriptor.extend, extend, h] using ih r
    | some r' => simpa [Descriptor.extend, extend, h] using ih r'

theorem taken_eq_self {r r' : Recognizer} {text : List Char} (h : r.follow? text = some r') :
    taken r text = text := by
  induction text generalizing r with
  | nil => rfl
  | cons c text ih =>
    rw [follow?_cons] at h
    obtain ⟨s, hs, hf⟩ := Option.bind_eq_some_iff.1 h
    simp [taken, Descriptor.extend, extend, hs, ih hf]

section
variable {r : Recognizer} {c : Char} {text : List Char}

/-- A recognizer has read what it takes of a text that begins one of its tokens. -/
theorem read?_taken (h : (r.start c).1 = true) :
    r.read? (c :: taken (r.start c).2 text) = some (shown r (c :: text)) := by
  rw [start_fst] at h
  obtain ⟨s, hs⟩ := Option.isSome_iff_exists.1 h
  have hstart : r.start c = (true, s) := by rw [start, hs]
  rw [hstart, read?_cons, hs, Option.bind_some, follow?_taken, shown]
  show some (onward s text) = some (onward (r.start c).2 text)
  rw [hstart]

theorem start_of_read? {s : Recognizer} (h : r.read? (c :: text) = some s) :
    (r.start c).1 = true ∧ taken (r.start c).2 text = text := by
  obtain ⟨r', hb, hf⟩ := Option.bind_eq_some_iff.1 h
  rw [start, hb]
  exact ⟨rfl, taken_eq_self hf⟩

end

/-- A keyword goes on with a character that prolongs what it has read to a beginning of its word. -/
theorem extend_keyword_iff {words : List (List Char)} {role : Role} {word done left : List Char}
    (hw : word = done ++ left) (d : Char) :
    ((keyword words role (.matching word (Keyword.byteSize done))).extend d).1 = true ↔
      done ++ [d] <+: word := by
  rw [extend_fst, next?_keyword hw, hw, List.prefix_append_right_inj,
    List.singleton_prefix_iff_head?_eq_some]
  split <;> simp_all

/-- A keyword may be asked anything before, and its words may be any whose first characters differ.
When it is shown `c` and then the characters of `text`, it takes all of them if and only if they
begin one of the words. Whichever of them it takes, they begin a word of the list; the offset into
this word is the size of their UTF-8 form, so that a character begins or the word ends there; and
the keyword is whole if and only if they are the word, and goes on with the next of its characters
alone if they are not. -/
theorem keyword_reads_words (words : List (List Char)) (hd : (words.map List.head?).Nodup)
    (role : Role) (stage : Keyword.Stage) (c : Char) (text : List Char) :
    let r := keyword words role stage
    let done := c :: taken (r.start c).2 text
    let size := (String.ofList done).utf8ByteSize
    ((r.start c).1 = true ∧ done = c :: text ↔ ∃ word ∈ words, c :: text <+: word) ∧
    ((r.start c).1 = true → ∃ word ∈ words, done <+: word) ∧
    ∀ word ∈ words, done <+: word →
      shown r (c :: text) = keyword words role (.matching word size) ∧
      String.Pos.Raw.IsValid (String.ofList word) ⟨size⟩ ∧
      (∃ left, word = done ++ left ∧ Keyword.dropBytes? word size = some left) ∧
      ((shown r (c :: text)).isComplete = true ↔ done = word) ∧
      ∀ d, ((shown r (c :: text)).extend d).1 = true ↔ done ++ [d] <+: word := by
  intro r done size
  have hbegins (h : (r.start c).1 = true) : ∃ word ∈ words, done <+: word := by
    obtain ⟨left, hmem, -⟩ := exists_word_of_read?_keyword (read?_taken h)
    exact ⟨done ++ left, hmem, List.prefix_append ..⟩
  refine ⟨⟨?_, ?_⟩, hbegins, ?_⟩
  · rintro ⟨hstart, hall⟩
    rw [← hall]
    exact hbegins hstart
  · rintro ⟨word, hmem, hp⟩
    obtain ⟨hstart, hall⟩ := start_of_read? (read?_keyword hd hmem (by simp) hp role stage)
    exact ⟨hstart, congrArg (c :: ·) hall⟩
  · intro word hmem hp
    have hread := read?_keyword hd hmem (by simp [done]) hp role stage
    have hshown := Option.some.inj ((read?_taken (start_of_read? hread).1).symm.trans hread)
    obtain ⟨left, rfl⟩ := hp
    have hdrop : Keyword.dropBytes? (done ++ left) (Keyword.byteSize done) = some left :=
      Keyword.dropBytes?_append done left
    have hvalid := Keyword.isSome_dropBytes?_iff.1 (Option.isSome_of_eq_some hdrop)
    have hcomplete : (shown r (c :: text)).isComplete = true ↔ left = [] := by
      rw [hshown]
      exact Keyword.isComplete_matching_iff
    have hnext (d : Char) :
        ((shown r (c :: text)).extend d).1 = true ↔ done ++ [d] <+: done ++ left := by
      rw [hshown]
      exact extend_keyword_iff rfl d
    rw [Keyword.byteSize_eq_utf8ByteSize] at hshown hdrop hvalid
    exact ⟨hshown, hvalid, ⟨left, rfl, hdrop⟩, hcomplete.trans List.self_eq_append_right.symm,
      hnext⟩

/-- The first two characters of a word are three bytes long, and the one between them and the one
behind them are no matter. -/
theorem keyword_reads_words_accent :
    let words := ["été".toList, "über".toList]
    let r := keyword words .word .idle
    (words.map List.head?).Nodup ∧ (r.start 'é').1 = true ∧ "ét".toList <+: "été".toList ∧
      shown r "éxtü".toList = keyword words .word (.matching "été".toList 3) ∧
      String.Pos.Raw.IsValid "été" ⟨3⟩ ∧ (shown r "éxtü".toList).isComplete = false ∧
      ((shown r "éxtü".toList).extend 'é').1 = true := by
  intro words r
  have hd : (words.map List.head?).Nodup := by decide
  have hstart : (r.start 'é').1 = true := by decide
  have hp : "ét".toList <+: "été".toList := by decide
  obtain ⟨-, -, hword⟩ := keyword_reads_words words hd .word .idle 'é' "xtü".toList
  obtain ⟨hshown, hvalid, -, hcomplete, hnext⟩ := hword "été".toList (by decide) hp
  refine ⟨hd, hstart, hp, hshown, hvalid, ?_, (hnext 'é').2 (by decide)⟩
  rw [Bool.eq_false_iff]
  exact fun h => absurd (hcomplete.1 h) (by decide)

end Recognizer

end LaxJson
