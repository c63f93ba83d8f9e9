import LaxJson.Proofs.Scan.Draft

/-!
# What reading on takes

`gather` reads characters as long as its step takes them. Every run of it is a text that is
taken character by character (`Takes`), and then one answer of the input that ends the run
(`Halts`): `exists_takes_halts` splits the run there, whatever the step does and however the
input fails. What a step keeps is so kept by a whole run, by induction on the text.
-/
namespace LaxJson

namespace Input

/-- The characters before the first failure. -/
def readable : Input → List Char
  | .ok c :: rest => c :: readable rest
  | .error _ :: _ | [] => []

@[simp] theorem readable_nil : readable [] = [] := rfl

@[simp] theorem readable_cons_ok (c : Char) (rest : Input) :
    readable (.ok c :: rest) = c :: readable rest := rfl

@[simp] theorem readable_ofChars_append (text : List Char) (tail : Input) :
    readable (ofChars text ++ tail) = text ++ readable tail := by
  induction text with
  | nil => rfl
  | cons c text ih => exact congrArg (c :: ·) ih

@[simp] theorem readable_ofChars (text : List Char) : readable (ofChars text) = text := by
  simpa using readable_ofChars_append text []

theorem ofChars_injective : Function.Injective ofChars :=
  List.map_injective_iff.2 fun _ _ => Except.ok.inj

/-- Where every read brings a character, what is left behind some of them are characters. -/
theorem eq_ofChars_of_append {text all : List Char} {tail : Input}
    (h : ofChars all = ofChars text ++ tail) : ∃ rest, all = text ++ rest ∧ tail = ofChars rest := by
  obtain ⟨text', rest, rfl, ht, hr⟩ := List.map_eq_append_iff.1 h
  exact ⟨rest, by rw [ofChars_injective ht], hr.symm⟩

end Input

/-- Whether reading itself came to nothing, not the making of a token. -/
def ScanFault.isReadFault : ScanFault → Bool
  | unreadable _ _ | tooLong _ _ => true
  | noMatch _ _ | incomplete _ _ _ => false

section
variable {σ : Type} (maxChars : Option Nat) (step : σ → Char → Position → Bool × σ)

/-- The step takes all of a text, one character after another. -/
inductive Takes : σ → Cursor → List Char → σ → Cursor → Prop
  | nil {s k} : Takes s k [] s k
  | cons {s k c text s₁ s' k'} (hs : step s c k.position = (true, s₁))
      (ht : Takes s₁ (k.pass c) text s' k') : Takes s k (c :: text) s' k'

/-- What ends a run of `gather` is the first answer of what is left of the input. -/
inductive Halts : σ → Cursor → Input → Read × σ × Cursor × Input → Prop
  | finish {s k} : Halts s k [] (.finish, s, k, [])
  | unreadable {s k f rest} :
      Halts s k (.error f :: rest) (.fault (.unreadable f k.position), s, k, rest)
  | tooLong {s k c limit rest} (hl : k.limit? maxChars = some limit) :
      Halts s k (.ok c :: rest) (.fault (.tooLong limit k.position), s, k.overrun, rest)
  | char {s k c s' rest} (hl : k.limit? maxChars = none)
      (hs : step s c k.position = (false, s')) :
      Halts s k (.ok c :: rest) (.char c k.position, s', k.pass c, rest)

theorem exists_takes_halts (s : σ) (k : Cursor) (input : Input) :
    ∃ text tail s₁ k₁, input = .ofChars text ++ tail ∧ Takes step s k text s₁ k₁ ∧
      Halts maxChars step s₁ k₁ tail (gather maxChars step s k input) := by
  fun_induction gather maxChars step s k input with
  | case1 s k => exact ⟨[], [], s, k, rfl, .nil, .finish⟩
  | case2 s k f rest => exact ⟨[], _, s, k, rfl, .nil, .unreadable⟩
  | case3 s k c rest limit hl => exact ⟨[], _, s, k, rfl, .nil, .tooLong hl⟩
  | case4 s k c rest hl s₁ hs ih =>
    obtain ⟨text, tail, s', k', rfl, ht, hh⟩ := ih
    exact ⟨c :: text, tail, s', k', rfl, .cons hs ht, hh⟩
  | case5 s k c rest hl s' hs => exact ⟨[], _, s, k, rfl, .nil, .char hl hs⟩

variable {maxChars step}

/-- Where reading comes to nothing, nothing has moved on, and it is the read that has failed. -/
theorem Halts.of_fault {s s' : σ} {k k' : Cursor} {tail rest : Input} {f : ScanFault}
    (h : Halts maxChars step s k tail (.fault f, s', k', rest)) :
    s' = s ∧ k'.position = k.position ∧ f.isReadFault = true := by
  cases h with
  | unreadable | tooLong => exact ⟨rfl, rfl, rfl⟩

/-- The cursor moves over the text that is taken. -/
theorem Takes.position_eq {s s' : σ} {k k' : Cursor} {text done : List Char}
    (h : Takes step s k text s' k') (hk : k.position = .after done) :
    k'.position = .after (done ++ text) := by
  induction h generalizing done with
  | nil => rwa [List.append_nil]
  | @cons s k c _ _ _ _ _ _ ih =>
    have hpass : (k.pass c).position = .after (done ++ [c]) := by
      rw [Cursor.pass, hk, Position.after_append_singleton]
    rw [ih hpass, List.append_assoc, List.singleton_append]

end

end LaxJson
