import LaxJson.Proofs.Scan.Gather

/-!
# The limit on the length of a text

A scanner counts what it reads of a text, wherever the characters go: into a gap, into a token,
or to the front of the next one. So in every state the cursor is behind all that has been read
(`Scanner.Counts`), and it is the first character beyond the limit that is one too many, however
the text is cut (`Scanner.Counts.next`).
-/
namespace LaxJson

/-- What reading on in `text` comes to where no more than `maxChars` may be read: either the first
character beyond the limit has been met and is lost, or the cursor is behind all that has been
read. -/
inductive Meters (maxChars : Option Nat) (text : List Char) : Read × Cursor × Input → Prop
  | tooLong {done c left} (hl : done.length ∈ maxChars) (ht : text = done ++ c :: left) :
      Meters maxChars text (.fault (.tooLong done.length (.after done)),
        (Cursor.behind done).overrun, .ofChars left)
  | within {read done left} (hr : ∀ f, read ≠ .fault f) (ht : text = done ++ left)
      (ha : Admits maxChars done.length) : Meters maxChars text (read, .behind done, .ofChars left)

theorem Admits.of_limit?_eq_none {maxChars : Option Nat} {done : List Char}
    (h : (Cursor.behind done).limit? maxChars = none) (c : Char) :
    Admits maxChars (done ++ [c]).length := by
  rw [Cursor.limit?, Option.filter_eq_none_iff] at h
  intro limit hl
  have hlt : ¬ limit ≤ done.length := fun hle => h limit hl (decide_eq_true hle)
  rw [List.length_append, List.length_singleton]
  omega

theorem Admits.eq_length_of_limit?_eq_some {maxChars : Option Nat} {done : List Char}
    (h : Admits maxChars done.length) {limit : Nat}
    (hl : (Cursor.behind done).limit? maxChars = some limit) : limit = done.length := by
  rw [Cursor.limit?, Option.filter_eq_some_iff] at hl
  exact Nat.le_antisymm (of_decide_eq_true hl.2) (h limit hl.1)

theorem meters_gather {σ : Type} {maxChars : Option Nat} (step : σ → Char → Position → Bool × σ)
    (s : σ) {done : List Char} (ha : Admits maxChars done.length) (left : List Char) :
    Meters maxChars (done ++ left)
      ((gather maxChars step s (.behind done) (.ofChars left)).1,
        (gather maxChars step s (.behind done) (.ofChars left)).2.2) := by
  induction left generalizing s done with
  | nil =>
    have hend : Meters maxChars (done ++ []) (.finish, .behind done, .ofChars []) :=
      .within (by simp) rfl ha
    exact hend
  | cons c left ih =>
    rw [Input.ofChars_cons, gather]
    cases hl : (Cursor.behind done).limit? maxChars with
    | some limit =>
      have hmem : limit ∈ maxChars := (Option.filter_eq_some_iff.1 hl).1
      obtain rfl := ha.eq_length_of_limit?_eq_some hl
      exact .tooLong hmem rfl
    | none =>
      have hadmits := Admits.of_limit?_eq_none hl c
      have htext : done ++ c :: left = done ++ [c] ++ left := by simp
      rw [Cursor.pass_behind, htext]
      rcases step s c (Cursor.behind done).position with ⟨_ | _, s'⟩
      · exact .within (by simp) rfl hadmits
      · exact ih s' hadmits

namespace Scanner
variable {R : Type} {s : Scanner R} {text : List Char} {input : Input}

/-- The scanner has read a beginning of `text`, within its limit, and the rest is its input. -/
inductive Counts (s : Scanner R) (text : List Char) : Input → Prop
  | intro {done left} (hk : s.cursor = .behind done) (ht : text = done ++ left)
      (ha : Admits s.maxChars done.length) : Counts s text (.ofChars left)

theorem Counts.seek (h : s.Counts text input) : Meters s.maxChars text (s.seek input) := by
  cases h with
  | intro hk ht ha =>
    rw [Scanner.seek, hk, ht]
    exact meters_gather _ () ha _

theorem Counts.first (h : s.Counts text input) : Meters s.maxChars text (s.first input) := by
  have hseek := h.seek
  unfold Scanner.first
  cases h with
  | intro hk ht ha =>
    split
    · rw [hk]
      exact .within nofun ht ha
    · exact hseek
    · split
      · exact hseek
      · rw [hk]
        exact .within nofun ht ha

variable [Descriptor R]

theorem counts_reset (s : Scanner R) (text : List Char) : s.reset.Counts text (.ofChars text) := by
  have hk : s.reset.cursor = .behind [] := rfl
  exact .intro hk rfl fun _ _ => Nat.zero_le _

theorem isReadFault_of_token_eq_error {d : Draft R} {f : ScanFault}
    (h : d.token.map some = .error f) : f.isReadFault = false := by
  unfold Draft.token at h
  split at h <;> cases h
  rfl

/-- A call meets the first character beyond the limit, or it goes on counting, and then no read
has failed. -/
theorem Counts.next (h : s.Counts text input) :
    (∃ done c left lexicon, text = done ++ c :: left ∧ done.length ∈ s.maxChars ∧
      s.next input = (.error (.tooLong done.length (.after done)),
        s.moveTo lexicon (Cursor.behind done).overrun .nothing, .ofChars left)) ∨
    (∀ f, (s.next input).1 = .error f → f.isReadFault = false) ∧
      (s.next input).2.1.Counts text (s.next input).2.2 := by
  have hfirst := h.first
  unfold Scanner.next
  generalize s.first input = found at hfirst ⊢
  cases hfirst with
  | tooLong hl ht => exact .inl ⟨_, _, _, _, ht, hl, rfl⟩
  | @within read done left hr ht ha =>
    cases read with
    | fault f => exact absurd rfl (hr f)
    | finish => exact .inr ⟨nofun, .intro rfl ht ha⟩
    | char c p =>
      dsimp only
      cases hb : Draft.begin? (s.lexicon.map (.ask c)) c p with
      | none =>
        refine .inr ⟨fun f hf => ?_, .intro rfl ht ha⟩
        cases hf
        rfl
      | some d =>
        have hrun := meters_gather Draft.extend d ha left
        rw [← ht] at hrun
        dsimp only
        generalize gather s.maxChars Draft.extend d (.behind done) (.ofChars left) = run at hrun ⊢
        obtain ⟨read, d', k, rest⟩ := run
        cases hrun with
        | tooLong hl' ht' => exact .inl ⟨_, _, _, _, ht', hl', rfl⟩
        | within hr' ht' ha' =>
          cases read with
          | fault f => exact absurd rfl (hr' f)
          | finish | char =>
            exact .inr ⟨fun f hf => isReadFault_of_token_eq_error hf, .intro rfl ht' ha'⟩

end Scanner

end LaxJson
