import LaxJson.Proofs.Grammar.Reading
import LaxJson.Tree.Assembly

/-!
# What an assembly still waits for

`Finishes a ts tree` says that the tokens `ts` complete the assembly `a` to `tree`: they are
what the grammar has left of the place that has been reached, followed by what it has left of
every container around that place. One token fits in exactly when it begins such a
completion and the limit on nesting has room for it (`Fits.finishes_iff`, `exists_fits`). By
induction on the tokens an assembly takes a sequence of them exactly when it begins a
document (`exists_addAll_iff`), and the tree it ends with is the one read off the tokens
(`addAll_finish_iff`).
-/
namespace LaxJson.Assembly
open Grammar

/-- Fits in tokens one after another, up to the first that cannot be. -/
def addAll (maxDepth : Nat) : Assembly → List Token → Except ParseFault Assembly
  | a, [] => .ok a
  | a, t :: ts =>
    match a.add maxDepth t with
    | .error f => .error f
    | .ok a => addAll maxDepth a ts

/-- The containers around a value, and where they were opened. -/
def openedAround : List Enclosure → List (Container × Position)
  | [] => []
  | .object opened _ _ :: outer => (.object, opened) :: openedAround outer
  | .array opened _ :: outer => (.array, opened) :: openedAround outer

/-- The containers that have not been closed, the innermost first, and where they were
opened. -/
def opened : Assembly → List (Container × Position)
  | document | complete _ => []
  | fieldName p _ outer | assignment p _ _ outer | fieldValue p _ _ outer
  | afterField p _ outer => (.object, p) :: openedAround outer
  | element p _ outer | afterElement p _ outer => (.array, p) :: openedAround outer

@[simp] theorem length_openedAround (outer : List Enclosure) :
    (openedAround outer).length = outer.length := by
  induction outer with
  | nil => rfl
  | cons e outer ih => cases e <;> simp [openedAround, ih]

/-- A placed value leaves open what was open around it. -/
@[simp] theorem opened_place (value : Tree) (outer : List Enclosure) :
    (place value outer).opened = openedAround outer := by
  rcases outer with _ | ⟨_ | _, outer⟩ <;> rfl

/-- The tokens `ts` close all of `outer` around `value`, which gives `tree`. -/
def Closes : List Enclosure → Tree → List Token → Tree → Prop
  | [], value, ts, tree => ts = [] ∧ tree = value
  | .object _ fields name :: outer, value, ts, tree =>
      ∃ more rest, Reads .tokens (.moreFields more) ts rest ∧
        Closes outer (.object (fields.reverse ++ ⟨name, value⟩ :: more)) rest tree
  | .array _ elements :: outer, value, ts, tree =>
      ∃ more rest, Reads .tokens (.moreElements more) ts rest ∧
        Closes outer (.array (elements.reverse ++ value :: more)) rest tree

/-- The tokens `ts` are a value and close all of `outer` around it. -/
def BeginsIn (outer : List Enclosure) (ts : List Token) (tree : Tree) : Prop :=
  ∃ value rest, Reads .tokens (.value value) ts rest ∧ Closes outer value rest tree

/-- The tokens `ts` complete the assembly to `tree`. -/
def Finishes : Assembly → List Token → Tree → Prop
  | document, ts, tree => BeginsIn [] ts tree
  | fieldName _ fields outer, ts, tree =>
      ∃ more rest, Reads .tokens (.fields more) ts rest ∧
        Closes outer (.object (fields.reverse ++ more)) rest tree
  | assignment p fields name outer, ts, tree =>
      ∃ t rest, ts = t :: rest ∧ t.role = .assignment ∧
        BeginsIn (.object p fields name :: outer) rest tree
  | fieldValue p fields name outer, ts, tree =>
      BeginsIn (.object p fields name :: outer) ts tree
  | afterField _ fields outer, ts, tree =>
      ∃ more rest, Reads .tokens (.moreFields more) ts rest ∧
        Closes outer (.object (fields.reverse ++ more)) rest tree
  | element _ elements outer, ts, tree =>
      ∃ more rest, Reads .tokens (.elements more) ts rest ∧
        Closes outer (.array (elements.reverse ++ more)) rest tree
  | afterElement _ elements outer, ts, tree =>
      ∃ more rest, Reads .tokens (.moreElements more) ts rest ∧
        Closes outer (.array (elements.reverse ++ more)) rest tree
  | complete value, ts, tree => ts = [] ∧ tree = value

theorem finishes_document (ts : List Token) (tree : Tree) :
    Finishes document ts tree ↔ Reads .tokens (.value tree) ts [] := by
  constructor
  · rintro ⟨_, _, h, rfl, rfl⟩
    exact h
  · exact fun h => ⟨tree, [], h, rfl, rfl⟩

/-- Once a value has been placed, what is left is to close the containers around it. -/
@[simp] theorem finishes_place (value : Tree) (outer : List Enclosure) (ts : List Token)
    (tree : Tree) : (place value outer).Finishes ts tree ↔ Closes outer value ts tree := by
  rcases outer with _ | ⟨_ | _, outer⟩ <;> simp [place, Finishes, Closes]

/-- The tree can be taken exactly when no token is waited for. -/
theorem finish_eq_ok_iff (p : Position) (a : Assembly) (tree : Tree) :
    a.finish p = .ok tree ↔ a.Finishes [] tree := by
  cases a <;> simp [finish, Finishes, BeginsIn, eq_comm]

/-- The containers around the value that is waited for, if a value is waited for. -/
def awaited? : Assembly → Option (List Enclosure)
  | document => some []
  | fieldValue p fields name outer => some (.object p fields name :: outer)
  | element p elements outer => some (.array p elements :: outer)
  | fieldName .. | assignment .. | afterField .. | afterElement .. | complete _ => none

/-- The steps from one assembly to the next that a token allows. -/
inductive Fits (maxDepth : Nat) (t : Token) : Assembly → Assembly → Prop
  | scalar {a outer kind} (ha : a.awaited? = some outer) (h : t.role = .scalar kind) :
      Fits maxDepth t a (place (.scalar ⟨t.text, kind, t.span⟩) outer)
  | openObject {a outer} (ha : a.awaited? = some outer) (h : t.role = .opening .object)
      (hd : outer.length < maxDepth) : Fits maxDepth t a (fieldName t.span.first [] outer)
  | openArray {a outer} (ha : a.awaited? = some outer) (h : t.role = .opening .array)
      (hd : outer.length < maxDepth) : Fits maxDepth t a (element t.span.first [] outer)
  | name {p fields outer} (h : t.role = .scalar .string) :
      Fits maxDepth t (fieldName p fields outer) (assignment p fields t.text outer)
  | colon {p fields name outer} (h : t.role = .assignment) :
      Fits maxDepth t (assignment p fields name outer) (fieldValue p fields name outer)
  | commaField {p fields outer} (h : t.role = .separator) :
      Fits maxDepth t (afterField p fields outer) (fieldName p fields outer)
  | commaElement {p elements outer} (h : t.role = .separator) :
      Fits maxDepth t (afterElement p elements outer) (element p elements outer)
  | noField {p fields outer} (h : t.role = .closing .object) :
      Fits maxDepth t (fieldName p fields outer) (place (.object fields.reverse) outer)
  | endFields {p fields outer} (h : t.role = .closing .object) :
      Fits maxDepth t (afterField p fields outer) (place (.object fields.reverse) outer)
  | noElement {p elements outer} (h : t.role = .closing .array) :
      Fits maxDepth t (element p elements outer) (place (.array elements.reverse) outer)
  | endElements {p elements outer} (h : t.role = .closing .array) :
      Fits maxDepth t (afterElement p elements outer) (place (.array elements.reverse) outer)

/-- A value that is begun where one is awaited fits in. -/
theorem fits_of_beginValue {maxDepth : Nat} {t : Token} {outer : List Enclosure} {a b : Assembly}
    (ha : a.awaited? = some outer) (h : beginValue maxDepth t outer = .ok b) :
    Fits maxDepth t a b := by
  unfold beginValue at h
  split at h
  · rename_i c hr
    split at h
    · cases h
    · rename_i hd
      cases c with
      | object =>
        cases h
        exact .openObject ha hr (by omega)
      | array =>
        cases h
        exact .openArray ha hr (by omega)
  · rename_i kind hr
    cases h
    exact .scalar ha hr
  · cases h

theorem fits_of_add {maxDepth : Nat} {t : Token} {a b : Assembly}
    (h : a.add maxDepth t = .ok b) : Fits maxDepth t a b := by
  cases a with
  | document => exact fits_of_beginValue rfl h
  | fieldName p fields outer =>
    simp only [add] at h
    split at h
    · rename_i hr
      cases h
      exact .noField hr
    · rename_i hr
      cases h
      exact .name hr
    · cases h
  | assignment p fields name outer =>
    simp only [add] at h
    split at h
    · rename_i hr
      cases h
      exact .colon hr
    · cases h
  | fieldValue p fields name outer => exact fits_of_beginValue rfl h
  | afterField p fields outer =>
    simp only [add] at h
    split at h
    · rename_i hr
      cases h
      exact .commaField hr
    · rename_i hr
      cases h
      exact .endFields hr
    · cases h
  | element p elements outer =>
    simp only [add] at h
    split at h
    · rename_i hr
      cases h
      exact .noElement hr
    · exact fits_of_beginValue rfl h
  | afterElement p elements outer =>
    simp only [add] at h
    split at h
    · rename_i hr
      cases h
      exact .commaElement hr
    · rename_i hr
      cases h
      exact .endElements hr
    · cases h
  | complete tree => cases h

/-- Where a value is awaited, `add` begins one, unless the token ends an array. -/
theorem add_of_awaited {a : Assembly} {outer : List Enclosure} (ha : a.awaited? = some outer)
    {t : Token} (ht : t.role ≠ .closing .array) (maxDepth : Nat) :
    a.add maxDepth t = beginValue maxDepth t outer := by
  cases a with
  | document | fieldValue p fields name outer =>
    cases ha
    rfl
  | element p elements outer =>
    cases ha
    simp only [add]
  | _ => cases ha

theorem add_of_fits {maxDepth : Nat} {t : Token} {a b : Assembly} (h : Fits maxDepth t a b) :
    a.add maxDepth t = .ok b := by
  cases h with
  | scalar ha h =>
    rw [add_of_awaited ha (by simp [h])]
    simp [beginValue, h]
  | openObject ha h hd =>
    rw [add_of_awaited ha (by simp [h])]
    simp [beginValue, h, hd]
  | openArray ha h hd =>
    rw [add_of_awaited ha (by simp [h])]
    simp [beginValue, h, hd]
  | name h | colon h | commaField h | commaElement h | noField h | endFields h | noElement h
  | endElements h => simp [add, h]

theorem add_eq_ok_iff (maxDepth : Nat) (t : Token) (a b : Assembly) :
    a.add maxDepth t = .ok b ↔ Fits maxDepth t a b := ⟨fits_of_add, add_of_fits⟩

theorem beginsIn_scalar {t : Token} {kind : ScalarKind} (h : t.role = .scalar kind)
    (outer : List Enclosure) (ts : List Token) (tree : Tree) :
    BeginsIn outer (t :: ts) tree ↔ Closes outer (.scalar ⟨t.text, kind, t.span⟩) ts tree := by
  simp [BeginsIn, reads_value_of_scalar h]

theorem beginsIn_object {t : Token} (h : t.role = .opening .object) (outer : List Enclosure)
    (ts : List Token) (tree : Tree) :
    BeginsIn outer (t :: ts) tree ↔
      ∃ fields rest, Reads .tokens (.fields fields) ts rest ∧
        Closes outer (.object fields) rest tree := by
  constructor
  · intro ⟨value, rest, hv, hc⟩
    obtain ⟨fields, rfl, hf⟩ := (reads_value_of_object h).1 hv
    exact ⟨fields, rest, hf, hc⟩
  · intro ⟨fields, rest, hf, hc⟩
    exact ⟨.object fields, rest, .object h hf, hc⟩

theorem beginsIn_array {t : Token} (h : t.role = .opening .array) (outer : List Enclosure)
    (ts : List Token) (tree : Tree) :
    BeginsIn outer (t :: ts) tree ↔
      ∃ elements rest, Reads .tokens (.elements elements) ts rest ∧
        Closes outer (.array elements) rest tree := by
  constructor
  · intro ⟨value, rest, hv, hc⟩
    obtain ⟨elements, rfl, he⟩ := (reads_value_of_array h).1 hv
    exact ⟨elements, rest, he, hc⟩
  · intro ⟨elements, rest, he, hc⟩
    exact ⟨.array elements, rest, .array h he, hc⟩

/-- Where a value is awaited, one has to begin, unless the token ends an array. -/
theorem finishes_of_awaited {a : Assembly} {outer : List Enclosure}
    (ha : a.awaited? = some outer) {t : Token} (ht : t.role ≠ .closing .array)
    (ts : List Token) (tree : Tree) :
    a.Finishes (t :: ts) tree ↔ BeginsIn outer (t :: ts) tree := by
  cases a with
  | document | fieldValue p fields name outer =>
    cases ha
    rfl
  | element p elements outer =>
    cases ha
    constructor
    · intro ⟨more, rest, he, hc⟩
      obtain ⟨value, more, us, rfl, hv, hm⟩ := (reads_elements_of_value ht).1 he
      exact ⟨value, us, hv, more, rest, hm, hc⟩
    · intro ⟨value, us, hv, more, rest, hm, hc⟩
      exact ⟨value :: more, rest, .element hv hm, hc⟩
  | _ => cases ha

/-- A token that fits in is the first of every completion of the assembly, and the
assembly with it is completed by what follows. -/
theorem Fits.finishes_iff {maxDepth : Nat} {t : Token} {a b : Assembly}
    (h : Fits maxDepth t a b) (ts : List Token) (tree : Tree) :
    a.Finishes (t :: ts) tree ↔ b.Finishes ts tree := by
  cases h with
  | scalar ha h =>
    rw [finishes_of_awaited ha (by simp [h]), beginsIn_scalar h, finishes_place]
  | openObject ha h hd =>
    rw [finishes_of_awaited ha (by simp [h]), beginsIn_object h]
    rfl
  | openArray ha h hd =>
    rw [finishes_of_awaited ha (by simp [h]), beginsIn_array h]
    rfl
  | @name p fields outer h =>
    constructor
    · intro ⟨_, rest, hf, hc⟩
      obtain ⟨value, more, b, us, vs, rfl, rfl, hb, hv, hm⟩ := (reads_fields_of_name h).1 hf
      exact ⟨b, us, rfl, hb, value, vs, hv, more, rest, hm, hc⟩
    · rintro ⟨b, us, rfl, hb, value, vs, hv, more, rest, hm, hc⟩
      exact ⟨_, rest, .field ⟨h, rfl⟩ hb hv hm, hc⟩
  | colon h =>
    constructor
    · intro ⟨_, _, he, _, hb⟩
      cases he
      exact hb
    · intro hb
      exact ⟨t, ts, rfl, h, hb⟩
  | commaField h => simp only [Finishes, reads_moreFields_of_separator h]
  | commaElement h => simp only [Finishes, reads_moreElements_of_separator h]
  | noField h =>
    rw [finishes_place]
    simp [Finishes, reads_fields_of_closing h]
  | endFields h =>
    rw [finishes_place]
    simp [Finishes, reads_moreFields_of_closing h]
  | noElement h =>
    rw [finishes_place]
    simp [Finishes, reads_elements_of_closing h]
  | endElements h =>
    rw [finishes_place]
    simp [Finishes, reads_moreElements_of_closing h]

theorem opened_of_awaited {a : Assembly} {outer : List Enclosure}
    (ha : a.awaited? = some outer) : a.opened = openedAround outer := by
  cases a <;> cases ha <;> rfl

theorem Fits.opened_eq {maxDepth : Nat} {t : Token} {a b : Assembly} (h : Fits maxDepth t a b) :
    b.opened = track a.opened t := by
  cases h with
  | scalar ha h => simp [track, h, opened_of_awaited ha]
  | openObject ha h hd | openArray ha h hd =>
    rw [opened_of_awaited ha]
    simp [track, h, opened]
  | name h | colon h | commaField h | commaElement h => simp [track, h, opened]
  | noField h | endFields h | noElement h | endElements h =>
    rw [opened_place]
    simp [track, h, opened]

/-- No token leads back to the beginning. -/
theorem Fits.ne_document {maxDepth : Nat} {t : Token} {a b : Assembly}
    (h : Fits maxDepth t a b) : b ≠ document := by
  have hp : ∀ value outer, place value outer ≠ document := by
    rintro value (_ | ⟨_ | _, outer⟩) <;> exact nofun
  cases h with
  | scalar | noField | endFields | noElement | endElements => exact hp _ _
  | _ => exact nofun

/-- A value that is awaited can be begun, if the limit has room for it. -/
theorem exists_fits_of_beginsIn {maxDepth : Nat} {t : Token} {a : Assembly}
    {outer : List Enclosure} (ha : a.awaited? = some outer) {ts : List Token} {tree : Tree}
    (h : BeginsIn outer (t :: ts) tree)
    (hroom : t.role.isOpening = true → a.opened.length < maxDepth) :
    ∃ b, Fits maxDepth t a b := by
  rw [opened_of_awaited ha, length_openedAround] at hroom
  obtain ⟨value, rest, hv, _⟩ := h
  rcases reads_value_cons.1 hv with ⟨_, _, hr, _⟩ | ⟨_, _, hr, _⟩ | ⟨_, _, hr, _⟩
  · exact ⟨_, .scalar ha hr.1⟩
  · have hr : t.role = .opening .object := hr
    exact ⟨_, .openObject ha hr (hroom (by rw [hr]; rfl))⟩
  · have hr : t.role = .opening .array := hr
    exact ⟨_, .openArray ha hr (hroom (by rw [hr]; rfl))⟩

/-- What begins a completion fits in, if the limit has room for it. -/
theorem exists_fits {maxDepth : Nat} {t : Token} {a : Assembly} {ts : List Token} {tree : Tree}
    (h : a.Finishes (t :: ts) tree)
    (hroom : t.role.isOpening = true → a.opened.length < maxDepth) :
    ∃ b, Fits maxDepth t a b := by
  cases a with
  | document | fieldValue p fields name outer => exact exists_fits_of_beginsIn rfl h hroom
  | fieldName p fields outer =>
    obtain ⟨_, _, hf, _⟩ := h
    rcases reads_fields_cons.1 hf with ⟨_, hr, _⟩ | ⟨_, _, _, _, _, _, _, hn, _⟩
    · exact ⟨_, .noField hr⟩
    · exact ⟨_, .name hn.1⟩
  | assignment p fields name outer =>
    obtain ⟨_, _, he, hr, _⟩ := h
    cases he
    exact ⟨_, .colon hr⟩
  | afterField p fields outer =>
    obtain ⟨_, _, hm, _⟩ := h
    rcases reads_moreFields_cons.1 hm with ⟨_, hr, _⟩ | ⟨hr, _⟩
    · exact ⟨_, .endFields hr⟩
    · exact ⟨_, .commaField hr⟩
  | element p elements outer =>
    by_cases ht : t.role = .closing .array
    · exact ⟨_, .noElement ht⟩
    · exact exists_fits_of_beginsIn rfl ((finishes_of_awaited rfl ht ts tree).1 h) hroom
  | afterElement p elements outer =>
    obtain ⟨_, _, hm, _⟩ := h
    rcases reads_moreElements_cons.1 hm with ⟨_, hr, _⟩ | ⟨hr, _⟩
    · exact ⟨_, .endElements hr⟩
    · exact ⟨_, .commaElement hr⟩
  | complete value => cases h.1

/-- The room that is left under a limit is used up and given back like the limit itself. -/
theorem Fits.nestsWithin_iff {maxDepth : Nat} {t : Token} {a b : Assembly}
    (h : Fits maxDepth t a b) (ha : a.opened.length ≤ maxDepth) :
    b.opened.length ≤ maxDepth ∧ ∀ w, NestsWithin (maxDepth - a.opened.length) (t.role :: w) ↔
      NestsWithin (maxDepth - b.opened.length) w := by
  cases h with
  | scalar ho h => simpa [h, opened_of_awaited ho] using ha
  | openObject ho h hd | openArray ho h hd =>
    rw [opened_of_awaited ho, length_openedAround]
    simp only [opened, List.length_cons, length_openedAround, h, nestsWithin_opening]
    refine ⟨hd, fun w => ?_⟩
    rw [Nat.sub_sub]
    exact and_iff_right (by omega)
  | name h | colon h | commaField h | commaElement h => simpa [opened, h] using ha
  | @noField _ _ outer h | @endFields _ _ outer h | @noElement _ _ outer h
  | @endElements _ _ outer h =>
    rw [opened_place, length_openedAround]
    simp only [opened, List.length_cons, length_openedAround, h, nestsWithin_closing] at ha ⊢
    have he : maxDepth - (outer.length + 1) + 1 = maxDepth - outer.length := by omega
    exact ⟨by omega, fun w => by rw [he]⟩

theorem addAll_cons_eq_ok_iff {maxDepth : Nat} {t : Token} {ts : List Token} {a b : Assembly} :
    a.addAll maxDepth (t :: ts) = .ok b ↔
      ∃ c, Fits maxDepth t a c ∧ c.addAll maxDepth ts = .ok b := by
  simp only [← add_eq_ok_iff, addAll]
  cases a.add maxDepth t <;> simp

theorem addAll_append_eq_ok_iff {maxDepth : Nat} {a b : Assembly} {ts us : List Token} :
    a.addAll maxDepth (ts ++ us) = .ok b ↔
      ∃ c, a.addAll maxDepth ts = .ok c ∧ c.addAll maxDepth us = .ok b := by
  induction ts generalizing a with
  | nil => simp [addAll]
  | cons t ts ih =>
    simp only [List.cons_append, addAll_cons_eq_ok_iff, ih]
    constructor
    · rintro ⟨d, hd, c, hc, hb⟩
      exact ⟨c, ⟨d, hd, hc⟩, hb⟩
    · rintro ⟨c, ⟨d, hd, hc⟩, hb⟩
      exact ⟨d, hd, c, hc, hb⟩

/-- Tokens behind one that does not fit in do not matter. -/
theorem addAll_append_cons_of_add_eq_error {maxDepth : Nat} {a b : Assembly} {ts : List Token}
    {t : Token} {f : ParseFault} (ha : a.addAll maxDepth ts = .ok b)
    (hb : b.add maxDepth t = .error f) (us : List Token) :
    a.addAll maxDepth (ts ++ t :: us) = .error f := by
  induction ts generalizing a with
  | nil =>
    cases ha
    rw [List.nil_append, addAll, hb]
  | cons u ts ih =>
    rw [addAll] at ha
    rw [List.cons_append, addAll]
    split at ha
    · cases ha
    · rename_i c hc
      simpa only [hc] using ih ha

/-- What completes an assembly goes on behind the tokens that have been fitted in. -/
theorem finishes_addAll {maxDepth : Nat} {a b : Assembly} {ts : List Token}
    (h : a.addAll maxDepth ts = .ok b) (us : List Token) (tree : Tree) :
    a.Finishes (ts ++ us) tree ↔ b.Finishes us tree := by
  induction ts generalizing a with
  | nil => cases h; rfl
  | cons t ts ih =>
    obtain ⟨c, hfits, hrest⟩ := addAll_cons_eq_ok_iff.1 h
    rw [List.cons_append, hfits.finishes_iff, ih hrest]

theorem opened_addAll {maxDepth : Nat} {a b : Assembly} {ts : List Token}
    (h : a.addAll maxDepth ts = .ok b) : b.opened = ts.foldl track a.opened := by
  induction ts generalizing a with
  | nil => cases h; rfl
  | cons t ts ih =>
    obtain ⟨c, hfits, hrest⟩ := addAll_cons_eq_ok_iff.1 h
    rw [List.foldl_cons, ← hfits.opened_eq, ih hrest]

theorem nestsWithin_addAll {maxDepth : Nat} {a b : Assembly} {ts : List Token}
    (h : a.addAll maxDepth ts = .ok b) (ha : a.opened.length ≤ maxDepth) :
    b.opened.length ≤ maxDepth ∧ ∀ w,
      NestsWithin (maxDepth - a.opened.length) (ts.map Token.role ++ w) ↔
        NestsWithin (maxDepth - b.opened.length) w := by
  induction ts generalizing a with
  | nil => cases h; exact ⟨ha, fun w => .rfl⟩
  | cons t ts ih =>
    obtain ⟨c, hfits, hrest⟩ := addAll_cons_eq_ok_iff.1 h
    obtain ⟨hle, hw⟩ := hfits.nestsWithin_iff ha
    obtain ⟨hle', hw'⟩ := ih hrest hle
    exact ⟨hle', fun w => (hw _).trans (hw' w)⟩

/-- Tokens that begin a completion and nest within the room that is left fit in. -/
theorem exists_addAll {maxDepth : Nat} {a : Assembly} {ts us : List Token} {tree : Tree}
    (h : a.Finishes (ts ++ us) tree) (ha : a.opened.length ≤ maxDepth)
    (hroom : NestsWithin (maxDepth - a.opened.length) (ts.map Token.role)) :
    ∃ b, a.addAll maxDepth ts = .ok b := by
  induction ts generalizing a with
  | nil => exact ⟨a, rfl⟩
  | cons t ts ih =>
    have hlt : t.role.isOpening = true → a.opened.length < maxDepth := by
      intro ht
      have hu := hroom [t.role] (List.prefix_append [t.role] _)
      have hc : t.role.isClosing = false := by
        cases hr : t.role <;> rw [hr] at ht <;> first | rfl | cases ht
      simp [ht, hc] at hu
      omega
    obtain ⟨b, hb⟩ := exists_fits h hlt
    obtain ⟨hle, hw⟩ := hb.nestsWithin_iff ha
    obtain ⟨c, hc⟩ := ih ((hb.finishes_iff _ _).1 h) hle ((hw _).1 hroom)
    exact ⟨c, addAll_cons_eq_ok_iff.2 ⟨b, hb, hc⟩⟩

/-- A document is begun by no tokens at all, and by none that follow. -/
theorem eq_nil_of_addAll_eq_document {maxDepth : Nat} {a : Assembly} {ts : List Token}
    (h : a.addAll maxDepth ts = .ok document) : ts = [] := by
  induction ts generalizing a with
  | nil => rfl
  | cons t ts ih =>
    obtain ⟨c, hfits, hrest⟩ := addAll_cons_eq_ok_iff.1 h
    cases ih hrest
    cases hrest
    exact absurd rfl hfits.ne_document

/-- Tokens are those of a tree within the limit exactly when they fit in one after another
and the tree can be taken behind the last. -/
theorem addAll_finish_iff (maxDepth : Nat) (ts : List Token) (p : Position) (tree : Tree) :
    (∃ a, document.addAll maxDepth ts = .ok a ∧ a.finish p = .ok tree) ↔
      Reads .tokens (.value tree) ts [] ∧ NestsWithin maxDepth (ts.map Token.role) := by
  constructor
  · rintro ⟨a, ha, hf⟩
    have hr := (finishes_addAll ha [] tree).2 ((finish_eq_ok_iff p a tree).1 hf)
    have hn := (nestsWithin_addAll ha (Nat.zero_le _)).2 []
    rw [List.append_nil, finishes_document] at hr
    rw [List.append_nil] at hn
    exact ⟨hr, hn.2 (nestsWithin_nil _)⟩
  · rintro ⟨hr, hn⟩
    rw [← finishes_document, ← List.append_nil ts] at hr
    obtain ⟨a, ha⟩ := exists_addAll hr (Nat.zero_le _) hn
    exact ⟨a, ha, (finish_eq_ok_iff p a tree).2 ((finishes_addAll ha [] tree).1 hr)⟩

theorem finishes_nil_iff (a : Assembly) (tree : Tree) :
    a.Finishes [] tree ↔ a = complete tree := by
  rw [← finish_eq_ok_iff .start]
  cases a <;> simp [finish]

theorem opened_eq_nil_iff (a : Assembly) :
    a.opened = [] ↔ a = document ∨ ∃ tree, a = complete tree := by
  cases a <;> simp [opened]

/-- Nothing is open behind tokens exactly where there are none or they are a document. -/
theorem opened_addAll_eq_nil_iff {maxDepth : Nat} {a : Assembly} {ts : List Token}
    (h : document.addAll maxDepth ts = .ok a) :
    a.opened = [] ↔ ts = [] ∨ IsDocument (ts.map Token.role) := by
  have hf (tree : Tree) : Reads .tokens (.value tree) ts [] ↔ a = complete tree := by
    rw [← finishes_document, ← finishes_nil_iff, ← finishes_addAll h, List.append_nil]
  rw [opened_eq_nil_iff, isDocument_iff_exists_reads, exists_congr hf]
  refine or_congr_left ⟨fun ha => eq_nil_of_addAll_eq_document (ha ▸ h), fun ht => ?_⟩
  subst ht
  cases h
  rfl

/-- A token of the role, without a text. -/
def bare (role : Role) : Token := ⟨.operand, role, [], {}⟩

theorem exists_closes (outer : List Enclosure) (value : Tree) :
    ∃ ts tree, Closes outer value ts tree ∧ ∀ t ∈ ts, t.role.isOpening = false := by
  induction outer generalizing value with
  | nil => exact ⟨[], value, ⟨rfl, rfl⟩, by simp⟩
  | cons e outer ih =>
    cases e with
    | object p fields name =>
      obtain ⟨ts, tree, hc, ho⟩ := ih (.object (fields.reverse ++ [⟨name, value⟩]))
      refine ⟨bare (.closing .object) :: ts, tree, ⟨[], ts, .endFields rfl, hc⟩, ?_⟩
      exact List.forall_mem_cons.2 ⟨rfl, ho⟩
    | array p elements =>
      obtain ⟨ts, tree, hc, ho⟩ := ih (.array (elements.reverse ++ [value]))
      refine ⟨bare (.closing .array) :: ts, tree, ⟨[], ts, .endElements rfl, hc⟩, ?_⟩
      exact List.forall_mem_cons.2 ⟨rfl, ho⟩

theorem exists_beginsIn (outer : List Enclosure) :
    ∃ ts tree, BeginsIn outer ts tree ∧ ∀ t ∈ ts, t.role.isOpening = false := by
  let t := bare (.scalar .null)
  obtain ⟨ts, tree, hc, ho⟩ := exists_closes outer (.scalar ⟨t.text, .null, t.span⟩)
  exact ⟨t :: ts, tree, (beginsIn_scalar rfl outer ts tree).2 hc,
    List.forall_mem_cons.2 ⟨rfl, ho⟩⟩

/-- No assembly is a dead end, and none needs more room than it has taken already. -/
theorem exists_finishes (a : Assembly) :
    ∃ ts tree, a.Finishes ts tree ∧ ∀ t ∈ ts, t.role.isOpening = false := by
  cases a with
  | document => exact exists_beginsIn []
  | fieldName p fields outer =>
    obtain ⟨ts, tree, hc, ho⟩ := exists_closes outer (.object fields.reverse)
    exact ⟨bare (.closing .object) :: ts, tree,
      ⟨[], ts, .noField rfl, by simpa using hc⟩, List.forall_mem_cons.2 ⟨rfl, ho⟩⟩
  | assignment p fields name outer =>
    obtain ⟨ts, tree, hb, ho⟩ := exists_beginsIn (.object p fields name :: outer)
    exact ⟨bare .assignment :: ts, tree, ⟨_, ts, rfl, rfl, hb⟩,
      List.forall_mem_cons.2 ⟨rfl, ho⟩⟩
  | fieldValue p fields name outer => exact exists_beginsIn (.object p fields name :: outer)
  | afterField p fields outer =>
    obtain ⟨ts, tree, hc, ho⟩ := exists_closes outer (.object fields.reverse)
    exact ⟨bare (.closing .object) :: ts, tree,
      ⟨[], ts, .endFields rfl, by simpa using hc⟩, List.forall_mem_cons.2 ⟨rfl, ho⟩⟩
  | element p elements outer =>
    obtain ⟨ts, tree, hc, ho⟩ := exists_closes outer (.array elements.reverse)
    exact ⟨bare (.closing .array) :: ts, tree,
      ⟨[], ts, .noElement rfl, by simpa using hc⟩, List.forall_mem_cons.2 ⟨rfl, ho⟩⟩
  | afterElement p elements outer =>
    obtain ⟨ts, tree, hc, ho⟩ := exists_closes outer (.array elements.reverse)
    exact ⟨bare (.closing .array) :: ts, tree,
      ⟨[], ts, .endElements rfl, by simpa using hc⟩, List.forall_mem_cons.2 ⟨rfl, ho⟩⟩
  | complete value => exact ⟨[], value, ⟨rfl, rfl⟩, by simp⟩

/-- Tokens fit in one after another exactly when they begin the tokens of some document
that nests within the limit. -/
theorem exists_addAll_iff (maxDepth : Nat) (ts : List Token) :
    (∃ a, document.addAll maxDepth ts = .ok a) ↔
      ∃ w, IsDocument (ts.map Token.role ++ w) ∧ NestsWithin maxDepth (ts.map Token.role ++ w) := by
  constructor
  · rintro ⟨a, ha⟩
    obtain ⟨us, tree, hf, ho⟩ := exists_finishes a
    refine ⟨us.map Token.role, ?_, ?_⟩
    · rw [← List.map_append, isDocument_iff_exists_reads]
      exact ⟨tree, (finishes_document _ _).1 ((finishes_addAll ha us tree).2 hf)⟩
    · rw [← Nat.sub_zero maxDepth]
      exact ((nestsWithin_addAll ha (Nat.zero_le _)).2 _).2
        (nestsWithin_of_forall_not_opening _ (by simpa using ho))
  · rintro ⟨w, hw, hn⟩
    have hb : w = (w.map bare).map Token.role := by simp [bare, Function.comp_def]
    rw [hb, ← List.map_append, isDocument_iff_exists_reads] at hw
    obtain ⟨tree, hr⟩ := hw
    exact exists_addAll ((finishes_document _ _).2 hr) (Nat.zero_le _)
      (hn.of_prefix (List.prefix_append ..))

end LaxJson.Assembly
