import LaxJson.Proofs.Scan.Gather

/-!
# How a scanner cuts

Where a scanner stands in its input is known whatever descriptors it has and however the
input fails: `Stands s done` says that its positions are those behind `done`, and
`s.ahead input` is what it can still come upon. `cuts_next` lists everything that one call of
`next` can come to, in the terms of the reads it makes, so that no later proof opens `next`.
-/
namespace LaxJson

namespace Draft
variable {R : Type}

/-- The draft is of `text`, which stands behind `done`. -/
def Shows (d : Draft R) (done text : List Char) : Prop := d.text = text ∧ d.span = .of done text

theorem shows_of_begin? {candidates : List (Candidate R)} {c : Char} {done : List Char}
    {d : Draft R} (h : begin? candidates c (.after done) = some d) : d.Shows done [c] := by
  unfold begin? at h
  split at h
  · cases h
    exact ⟨rfl, by simp [Span.of]⟩
  · cases h

variable [Descriptor R]

theorem Shows.extend {d d' : Draft R} {done text : List Char} {c : Char} {b : Bool}
    (h : d.Shows done text) (hx : d.extend c (.after (done ++ text)) = (b, d')) :
    d'.Shows done (if b then text ++ [c] else text) := by
  obtain ⟨htext, hspan⟩ := h
  unfold Draft.extend at hx
  split at hx <;> cases hx
  · refine ⟨by simpa [Draft.text] using htext, ?_⟩
    simp [hspan, Span.of]
  · exact ⟨htext, hspan⟩

theorem Shows.takes {d d' : Draft R} {done text more : List Char} {k k' : Cursor}
    (h : d.Shows done text) (hk : k.position = .after (done ++ text))
    (ht : Takes Draft.extend d k more d' k') : d'.Shows done (text ++ more) := by
  induction ht generalizing text with
  | nil => rwa [List.append_nil]
  | @cons d k c _ _ _ _ hs _ ih =>
    rw [hk] at hs
    have hpass : (k.pass c).position = .after (done ++ (text ++ [c])) := by
      rw [Cursor.pass, hk, ← Position.after_append_singleton, List.append_assoc]
    simpa using ih (h.extend hs) hpass

/-- What ends a draft leaves its text as it is. -/
theorem Shows.halts {maxChars : Option Nat} {d d' : Draft R} {done text : List Char}
    {k k' : Cursor} {tail rest : Input} {read : Read} (h : d.Shows done text)
    (hk : k.position = .after (done ++ text))
    (hh : Halts maxChars Draft.extend d k tail (read, d', k', rest)) : d'.Shows done text := by
  cases hh with
  | finish | unreadable | tooLong => exact h
  | char hl hs =>
    rw [hk] at hs
    exact h.extend hs

/-- The draft that a whole run of reads has made is of the characters that were taken. -/
theorem shows_of_run {candidates : List (Candidate R)} {maxChars : Option Nat}
    {done more : List Char} {c : Char} {d d₁ d' : Draft R} {k k₁ k' : Cursor} {tail rest : Input}
    {read : Read}
    (hb : begin? candidates c (.after done) = some d) (hk : k.position = .after (done ++ [c]))
    (ht : Takes Draft.extend d k more d₁ k₁)
    (hh : Halts maxChars Draft.extend d₁ k₁ tail (read, d', k', rest)) :
    k₁.position = .after (done ++ c :: more) ∧ d'.Shows done (c :: more) := by
  have hk₁ := ht.position_eq hk
  rw [List.append_assoc, List.singleton_append] at hk₁
  exact ⟨hk₁, ((shows_of_begin? hb).takes hk ht).halts hk₁ hh⟩

end Draft

namespace Scanner
variable {R : Type}

/-- What a scanner can still come upon, the character that is held included. -/
def ahead (s : Scanner R) (input : Input) : Input :=
  match s.lookahead with
  | .held c _ => .ok c :: input
  | .nothing => input
  | .ended => []

/-- The next character that belongs to no token yet stands behind `done`. -/
def Stands (s : Scanner R) (done : List Char) : Prop :=
  match s.lookahead with
  | .held c p => p = .after done ∧ s.cursor.position = .after (done ++ [c])
  | .nothing | .ended => s.cursor.position = .after done

theorem Stands.position_eq {s : Scanner R} {done : List Char} (h : s.Stands done) :
    s.position = .after done := by
  unfold Stands at h
  unfold position
  cases hl : s.lookahead with
  | held c p =>
    rw [hl] at h
    exact h.1
  | nothing | ended =>
    rw [hl] at h
    exact h

/-- What the search for the first character of a token comes to, behind a gap of characters
that are passed over. -/
inductive Finds (s : Scanner R) (done : List Char) (ahead : Input) : Read × Cursor × Input → Prop
  | finish {gap k rest} (ha : ahead = .ofChars gap) (hg : ∀ b ∈ gap, s.skips b = true)
      (hk : k.position = .after (done ++ gap)) : Finds s done ahead (.finish, k, rest)
  | fault {f gap k rest} (hf : f.isReadFault = true) (hk : k.position = .after (done ++ gap)) :
      Finds s done ahead (.fault f, k, rest)
  | char {gap c k rest} (ha : ahead = Input.ofChars gap ++ .ok c :: rest)
      (hg : ∀ b ∈ gap, s.skips b = true) (hc : s.skips c = false)
      (hk : k.position = .after (done ++ gap ++ [c])) :
      Finds s done ahead (.char c (.after (done ++ gap)), k, rest)

/-- A character that is passed over belongs to the gap. -/
theorem Finds.of_skips {s : Scanner R} {done : List Char} {c : Char} {ahead : Input}
    {found : Read × Cursor × Input} (hc : s.skips c = true) (h : s.Finds (done ++ [c]) ahead found) :
    s.Finds done (.ok c :: ahead) found := by
  cases h with
  | finish ha hg hk =>
    rw [List.append_assoc] at hk
    exact .finish (by rw [ha]; rfl) (List.forall_mem_cons.2 ⟨hc, hg⟩) hk
  | fault hf hk =>
    rw [List.append_assoc] at hk
    exact .fault hf hk
  | char ha hg hd hk =>
    rw [List.append_assoc done] at hk ⊢
    exact .char (by rw [ha]; rfl) (List.forall_mem_cons.2 ⟨hc, hg⟩) hd hk

theorem forall_skips_of_takes {s : Scanner R} {u u' : Unit} {k k' : Cursor} {gap : List Char}
    (h : Takes (fun _ c _ => (s.skips c, ())) u k gap u' k') : ∀ b ∈ gap, s.skips b = true := by
  induction h with
  | nil => simp
  | cons hs _ ih => exact List.forall_mem_cons.2 ⟨(Prod.mk.inj hs).1, ih⟩

theorem finds_seek {s : Scanner R} {done : List Char} (h : s.cursor.position = .after done)
    (input : Input) : s.Finds done input (s.seek input) := by
  unfold seek
  generalize hf : gather s.maxChars (fun (_ : Unit) c _ => (s.skips c, ())) () s.cursor input = found
  obtain ⟨gap, tail, u, k, rfl, ht, hh⟩ :=
    exists_takes_halts s.maxChars (fun (_ : Unit) c _ => (s.skips c, ())) () s.cursor input
  rw [hf] at hh
  have hg := forall_skips_of_takes ht
  have hk := ht.position_eq h
  cases hh with
  | finish => exact .finish (by simp) hg hk
  | unreadable => exact .fault rfl hk
  | tooLong hl => exact .fault rfl hk
  | char hl hs =>
    rw [hk]
    refine .char rfl hg (Prod.mk.inj hs).1 ?_
    rw [Cursor.pass, hk, Position.after_append_singleton]

/-- Where the first character is not passed over, there is no gap. -/
theorem finds_char {s : Scanner R} {done : List Char} {c : Char} {k : Cursor} (input : Input)
    (hc : s.skips c = false) (hk : k.position = .after (done ++ [c])) :
    s.Finds done (.ok c :: input) (.char c (.after done), k, input) := by
  have hfinds : s.Finds done (.ofChars [] ++ .ok c :: input)
      (.char c (.after (done ++ [])), k, input) :=
    .char rfl (by simp) hc (by rwa [List.append_nil])
  rwa [List.append_nil] at hfinds

theorem finds_first {s : Scanner R} {done : List Char} (h : s.Stands done) (input : Input) :
    s.Finds done (s.ahead input) (s.first input) := by
  unfold Stands at h
  cases hl : s.lookahead with
  | nothing =>
    simp only [hl] at h
    simpa only [first, ahead, hl] using finds_seek h input
  | ended =>
    simp only [hl] at h
    simp only [first, ahead, hl]
    have hk : s.cursor.position = .after (done ++ []) := by rwa [List.append_nil]
    exact .finish rfl (by simp) hk
  | held c p =>
    simp only [hl] at h
    obtain ⟨rfl, hk⟩ := h
    simp only [first, ahead, hl]
    split <;> rename_i hs
    · exact .of_skips hs (finds_seek hk input)
    · exact finds_char input (by simpa using hs) hk

variable [Descriptor R]

/-- A call keeps what a scanner is set up with, its recognizers aside. -/
theorem exists_next_eq_moveTo (s : Scanner R) (input : Input) :
    ∃ lexicon cursor lookahead, (s.next input).2.1 = s.moveTo lexicon cursor lookahead := by
  unfold next
  split
  · exact ⟨_, _, _, rfl⟩
  · exact ⟨_, _, _, rfl⟩
  · dsimp only
    split
    · exact ⟨_, _, _, rfl⟩
    · split <;> exact ⟨_, _, _, rfl⟩

/-- What one call of `next` comes to. -/
inductive Cuts (s : Scanner R) (done : List Char) (ahead : Input) :
    Except ScanFault (Option Token) × Scanner R × Input → Prop
  | finish {gap k rest} (ha : ahead = .ofChars gap) (hg : ∀ b ∈ gap, s.skips b = true)
      (hk : k.position = .after (done ++ gap)) :
      Cuts s done ahead (.ok none, s.moveTo s.lexicon k .ended, rest)
  | fault {f gap k rest} (hf : f.isReadFault = true) (hk : k.position = .after (done ++ gap)) :
      Cuts s done ahead (.error f, s.moveTo s.lexicon k .nothing, rest)
  | noMatch {gap c k rest} (ha : ahead = Input.ofChars gap ++ .ok c :: rest)
      (hg : ∀ b ∈ gap, s.skips b = true) (hc : s.skips c = false)
      (hb : Draft.begin? (s.lexicon.map (.ask c)) c (.after (done ++ gap)) = none)
      (hk : k.position = .after (done ++ gap ++ [c])) :
      Cuts s done ahead (.error (.noMatch c (.after (done ++ gap))),
        s.moveTo ((s.lexicon.map (.ask c)).map Candidate.descriptor) k .nothing, rest)
  | broken {gap c more tail d k d₁ k₁ f d' k' rest}
      (ha : ahead = Input.ofChars (gap ++ c :: more) ++ tail)
      (hb : Draft.begin? (s.lexicon.map (.ask c)) c (.after (done ++ gap)) = some d)
      (hk : k.position = .after (done ++ gap ++ [c])) (ht : Takes Draft.extend d k more d₁ k₁)
      (hh : Halts s.maxChars Draft.extend d₁ k₁ tail (.fault f, d', k', rest)) :
      Cuts s done ahead (.error f, s.moveTo d'.lexicon k' .nothing, rest)
  | token {gap c more tail d k d₁ k₁ read d' k' rest}
      (ha : ahead = Input.ofChars (gap ++ c :: more) ++ tail)
      (hg : ∀ b ∈ gap, s.skips b = true) (hc : s.skips c = false)
      (hb : Draft.begin? (s.lexicon.map (.ask c)) c (.after (done ++ gap)) = some d)
      (hk : k.position = .after (done ++ gap ++ [c])) (ht : Takes Draft.extend d k more d₁ k₁)
      (hh : Halts s.maxChars Draft.extend d₁ k₁ tail (read, d', k', rest))
      (hr : ∀ f, read ≠ .fault f) :
      Cuts s done ahead (d'.token.map some, s.moveTo d'.lexicon k' read.lookahead, rest)

theorem cuts_next {s : Scanner R} {done : List Char} (h : s.Stands done) (input : Input) :
    s.Cuts done (s.ahead input) (s.next input) := by
  have hfinds := finds_first h input
  unfold next
  generalize s.first input = found at hfinds ⊢
  cases hfinds with
  | finish ha hg hk => exact .finish ha hg hk
  | fault hf hk => exact .fault hf hk
  | @char gap c k rest ha hg hc hk =>
    dsimp only
    cases hb : Draft.begin? (s.lexicon.map (.ask c)) c (.after (done ++ gap)) with
    | none => exact .noMatch ha hg hc hb hk
    | some d =>
      obtain ⟨more, tail, d₁, k₁, hrest, ht, hh⟩ :=
        exists_takes_halts s.maxChars Draft.extend d k rest
      have hahead : s.ahead input = Input.ofChars (gap ++ c :: more) ++ tail := by
        rw [ha, hrest]
        simp
      dsimp only
      generalize gather s.maxChars Draft.extend d k rest = run at hh ⊢
      cases hh with
      | finish => exact .token hahead hg hc hb hk ht .finish nofun
      | unreadable => exact .broken hahead hb hk ht .unreadable
      | tooLong hl => exact .broken hahead hb hk ht (.tooLong hl)
      | char hl hs => exact .token hahead hg hc hb hk ht (.char hl hs) nofun

/-- Behind a read that has ended a token the scanner stands where the token ends, and what it
can come upon is what is left. -/
theorem stands_of_halts {s : Scanner R} {done : List Char} {d d₁ : Draft R} {k k₁ : Cursor}
    {tail rest : Input} {read : Read} (hk : k₁.position = .after done)
    (hh : Halts s.maxChars Draft.extend d₁ k₁ tail (read, d, k, rest))
    (hr : ∀ f, read ≠ .fault f) :
    (s.moveTo d.lexicon k read.lookahead).Stands done ∧
      (s.moveTo d.lexicon k read.lookahead).ahead rest = tail := by
  cases hh with
  | finish => exact ⟨hk, rfl⟩
  | char hl hs =>
    refine ⟨⟨hk, ?_⟩, rfl⟩
    rw [moveTo, Cursor.pass, hk, Position.after_append_singleton]
  | unreadable | tooLong => exact absurd rfl (hr _)

/-- The states that calls lead to, on whatever inputs they are made. -/
inductive Reached (lexicon : List R) (options : Options) : Scanner R → Prop
  | ofOptions : Reached lexicon options (.ofOptions lexicon options)
  | next {s} (h : Reached lexicon options s) (input : Input) :
      Reached lexicon options (s.next input).2.1
  | reset {s} (h : Reached lexicon options s) : Reached lexicon options s.reset

theorem stands_reset (s : Scanner R) : s.reset.Stands [] := rfl

/-- A call leads from a state that stands somewhere to one that stands somewhere. -/
theorem Stands.exists_next {s : Scanner R} {done : List Char} (h : s.Stands done) (input : Input) :
    ∃ done', (s.next input).2.1.Stands done' := by
  have hcuts := cuts_next h input
  generalize s.next input = answer at hcuts ⊢
  cases hcuts with
  | finish ha hg hk | fault hf hk | noMatch ha hg hc hb hk => exact ⟨_, hk⟩
  | broken ha hb hk ht hh =>
    obtain ⟨-, hk', -⟩ := hh.of_fault
    exact ⟨_, hk'.trans (ht.position_eq hk)⟩
  | token ha hg hc hb hk ht hh hr => exact ⟨_, (stands_of_halts (ht.position_eq hk) hh hr).1⟩

theorem Reached.exists_stands {lexicon : List R} {options : Options} {s : Scanner R}
    (h : s.Reached lexicon options) : ∃ done, s.Stands done := by
  induction h with
  | ofOptions => exact ⟨[], stands_reset _⟩
  | next h input ih =>
    obtain ⟨done, hs⟩ := ih
    exact hs.exists_next input
  | reset h => exact ⟨[], stands_reset _⟩

end Scanner

end LaxJson
