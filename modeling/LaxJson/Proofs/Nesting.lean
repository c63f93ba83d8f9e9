import LaxJson.Proofs.Checking

/-!
# Two limits on nesting

A parser of documents limits the nesting twice: its checker refuses a token that opens one
container too many, and so does the assembly. On a document the two limits act as the lower one of
them (`Parser.nestingLimit`): the document is read if it nests within that, and otherwise the first
token that opens a container where so many are open is refused, by whichever comes to it first.
-/
namespace LaxJson
open Grammar

/-- The first token to open a container where `depth` containers are open. -/
def Grammar.FirstBeyond (depth : Nat) (ts : List Token) (t : Token) : Prop :=
  ∃ before after, ts = before ++ t :: after ∧ t.role.isOpening = true ∧
    (stillOpen before).length = depth ∧
    ∀ us u vs, before = us ++ u :: vs → u.role.isOpening = true → (stillOpen us).length ≠ depth

namespace Assembly

/-- What fits in within a limit fits in within a higher one. -/
theorem Fits.mono {m n : Nat} {t : Token} {a b : Assembly} (h : Fits m t a b) (hmn : m ≤ n) :
    Fits n t a b := by
  cases h with
  | openObject ha h hd => exact .openObject ha h (Nat.lt_of_lt_of_le hd hmn)
  | openArray ha h hd => exact .openArray ha h (Nat.lt_of_lt_of_le hd hmn)
  | scalar ha h => exact .scalar ha h
  | name h => exact .name h
  | colon h => exact .colon h
  | commaField h => exact .commaField h
  | commaElement h => exact .commaElement h
  | noField h => exact .noField h
  | endFields h => exact .endFields h
  | noElement h => exact .noElement h
  | endElements h => exact .endElements h

theorem addAll_mono {m n : Nat} {a b : Assembly} {ts : List Token}
    (h : a.addAll m ts = .ok b) (hmn : m ≤ n) : a.addAll n ts = .ok b := by
  induction ts generalizing a with
  | nil => exact h
  | cons t ts ih =>
    obtain ⟨c, hfits, hrest⟩ := addAll_cons_eq_ok_iff.1 h
    exact addAll_cons_eq_ok_iff.2 ⟨c, hfits.mono hmn, ih hrest⟩

/-- A container is opened only where a value is awaited and the limit has room for it. -/
theorem Fits.exists_awaited {maxDepth : Nat} {t : Token} {a b : Assembly}
    (h : Fits maxDepth t a b) (ht : t.role.isOpening = true) :
    ∃ outer, a.awaited? = some outer ∧ outer.length < maxDepth := by
  cases h with
  | openObject ha _ hd | openArray ha _ hd => exact ⟨_, ha, hd⟩
  | scalar _ hr | name hr | colon hr | commaField hr | commaElement hr | noField hr | endFields hr
  | noElement hr | endElements hr =>
    rw [hr] at ht
    cases ht

/-- A token that goes on with a document, but for the limit, is refused for the limit. -/
theorem add_eq_tooDeep {maxDepth : Nat} {a : Assembly} {t : Token} {ts : List Token} {tree : Tree}
    (h : a.Finishes (t :: ts) tree) (ht : t.role.isOpening = true)
    (hd : maxDepth ≤ a.opened.length) :
    a.add maxDepth t = .error (.refused ⟨.tooDeep maxDepth, t.span⟩) := by
  obtain ⟨b, hfits⟩ := exists_fits h fun _ => Nat.lt_succ_self a.opened.length
  obtain ⟨outer, ha, -⟩ := hfits.exists_awaited ht
  rw [opened_of_awaited ha, length_openedAround] at hd
  cases hr : t.role with
  | opening c =>
    rw [add_of_awaited ha (by simp [hr])]
    simp [beginValue, hr, hd]
  | _ =>
    rw [hr] at ht
    cases ht

/-- Where the tokens of a document nest too deeply, they fit in up to the first that opens a
container too many. -/
theorem exists_addAll_of_not_nestsWithin {maxDepth : Nat} {a : Assembly} {ts : List Token}
    {tree : Tree} (h : a.Finishes ts tree) (ha : a.opened.length ≤ maxDepth)
    (hn : ¬ NestsWithin (maxDepth - a.opened.length) (ts.map Token.role)) :
    ∃ before t after b, ts = before ++ t :: after ∧ a.addAll maxDepth before = .ok b ∧
      t.role.isOpening = true ∧ b.opened.length = maxDepth ∧ b.Finishes (t :: after) tree := by
  induction ts generalizing a with
  | nil => exact absurd (nestsWithin_nil _) hn
  | cons t ts ih =>
    by_cases hroom : t.role.isOpening = true → a.opened.length < maxDepth
    · obtain ⟨b, hfits⟩ := exists_fits h hroom
      obtain ⟨hle, hw⟩ := hfits.nestsWithin_iff ha
      have hrest := (hfits.finishes_iff ts tree).1 h
      obtain ⟨before, u, after, c, rfl, hadd, hfirst⟩ := ih hrest hle (mt (hw _).2 hn)
      exact ⟨t :: before, u, after, c, rfl, addAll_cons_eq_ok_iff.2 ⟨b, hfits, hadd⟩, hfirst⟩
    · obtain ⟨ht, hfull⟩ := Classical.not_imp.1 hroom
      exact ⟨[], t, ts, a, rfl, rfl, ht, Nat.le_antisymm ha (Nat.not_lt.1 hfull), h⟩

/-- Where the first token too many is met, all before it have fitted in. -/
theorem firstBeyond_of_addAll {maxDepth : Nat} {before after : List Token} {t : Token}
    {a : Assembly} (h : document.addAll maxDepth before = .ok a) (ht : t.role.isOpening = true)
    (ha : a.opened.length = maxDepth) : FirstBeyond maxDepth (before ++ t :: after) t := by
  refine ⟨before, after, rfl, ht, ?_, fun us u vs hbefore hu => ?_⟩
  · rw [← ha, opened_addAll h]
    rfl
  · subst hbefore
    obtain ⟨b, hb, hrest⟩ := addAll_append_eq_ok_iff.1 h
    obtain ⟨c, hfits, _⟩ := addAll_cons_eq_ok_iff.1 hrest
    obtain ⟨outer, hawaited, hlt⟩ := hfits.exists_awaited hu
    rw [← length_openedAround, ← opened_of_awaited hawaited, opened_addAll hb] at hlt
    exact Nat.ne_of_lt hlt

end Assembly

namespace Parser

section
variable {R : Type} (p : Parser DocumentChecker R)

/-- The lower one of the limits of the checker, if any, and of the assembly. -/
def nestingLimit : Nat := p.lexer.checker.elim p.maxDepth fun v => min v.maxDepth p.maxDepth

/-- The lexer with its scanner at work and its checker, if any, where the assembly is. -/
def lexerAt (s : Scanner R) (a : Assembly) : Lexer DocumentChecker R :=
  ⟨s, p.lexer.checker.map fun v => { maxDepth := v.maxDepth, stack := a.frames }⟩

theorem nestingLimit_le : p.nestingLimit ≤ p.maxDepth := by
  unfold nestingLimit
  cases p.lexer.checker with
  | none => exact Nat.le_refl _
  | some v => exact Nat.min_le_right ..

theorem nestingLimit_le_of_mem {v : DocumentChecker} (hv : v ∈ p.lexer.checker) :
    p.nestingLimit ≤ v.maxDepth := by
  rw [nestingLimit, hv]
  exact Nat.min_le_left ..

/-- One of the two limits is the lower one. -/
theorem nestingLimit_eq_or :
    (∃ v ∈ p.lexer.checker, v.maxDepth = p.nestingLimit) ∨
      p.maxDepth = p.nestingLimit ∧ ∀ v ∈ p.lexer.checker, p.nestingLimit < v.maxDepth := by
  unfold nestingLimit
  cases p.lexer.checker with
  | none => exact .inr ⟨rfl, by simp⟩
  | some v =>
    rw [Option.elim_some]
    by_cases h : v.maxDepth ≤ p.maxDepth
    · exact .inl ⟨v, rfl, (Nat.min_eq_left h).symm⟩
    · rw [Nat.min_eq_right (by omega)]
      refine .inr ⟨rfl, ?_⟩
      rintro _ ⟨⟩
      exact Nat.not_le.1 h

/-- With either limit raised, or the checker left out, the lower one is no lower than before. -/
theorem nestingLimit_mono {q : Parser DocumentChecker R} (hd : p.maxDepth ≤ q.maxDepth)
    (hc : ∀ w ∈ q.lexer.checker, ∃ v ∈ p.lexer.checker, v.maxDepth ≤ w.maxDepth) :
    p.nestingLimit ≤ q.nestingLimit := by
  rcases q.nestingLimit_eq_or with ⟨w, hw, hmax⟩ | ⟨hmax, -⟩
  · obtain ⟨v, hv, hle⟩ := hc w hw
    exact hmax ▸ (p.nestingLimit_le_of_mem hv).trans hle
  · exact hmax ▸ p.nestingLimit_le.trans hd

end

section
variable {R : Type} [Descriptor R] {p : Parser DocumentChecker R} {s₁ s₂ : Scanner R}
  {input rest₁ rest₂ : Input} {ts : List Token} {t : Token} {a : Assembly}

/-- The checker goes along with the assembly. -/
theorem brings_lexerAt {n : Nat}
    (hb : Brings Scanner.next p.lexer.scanner.reset input ts s₁ rest₁)
    (ha : Assembly.document.addAll n (significant ts) = .ok a)
    (hn : ∀ v ∈ p.lexer.checker, n ≤ v.maxDepth) :
    Brings Lexer.next p.lexer.reset input ts (p.lexerAt s₁ a) rest₁ := by
  refine Lexer.brings_of_accept? hb ?_
  cases hv : p.lexer.checker with
  | none => exact .none
  | some v =>
    refine .some ?_
    rw [DocumentChecker.accept?_reset_eq, Assembly.addAll_mono ha (hn v hv)]
    rfl

section
variable (hb : Brings Scanner.next p.lexer.scanner.reset input ts s₁ rest₁)
  (ha : Assembly.document.addAll p.nestingLimit (significant ts) = .ok a)
  (hnext : s₁.next rest₁ = (.ok (some t), s₂, rest₂)) (ht : t.isTrivia = false)
  (hadd : a.add p.nestingLimit t = .error (.refused ⟨.tooDeep p.nestingLimit, t.span⟩))
include hb ha hnext ht hadd

/-- The next token is too much for the checker, and does not come to the assembly. -/
theorem parse_eq_tooDeep_of_checker {v : DocumentChecker} (hv : v ∈ p.lexer.checker)
    (hmax : v.maxDepth = p.nestingLimit) :
    (p.parse input).1 = .error (.refused ⟨.tooDeep p.nestingLimit, t.span⟩) := by
  have hcheck := DocumentChecker.check_frames v.maxDepth a ht
  rw [hmax, hadd] at hcheck
  have hrefused : (p.lexerAt s₁ a).next rest₁ =
      (.error (.refused ⟨.tooDeep p.nestingLimit, t.span⟩), p.lexerAt s₂ a, rest₂) := by
    unfold lexerAt
    rw [Lexer.next, hnext, hv]
    simp [hmax, hcheck]
  have hbrings := brings_lexerAt hb ha fun _ => p.nestingLimit_le_of_mem
  have hd := hbrings.append_delivers (.fault hrefused)
  rw [List.append_nil] at hd
  rw [parse_of_delivers hd, Assembly.addAll_mono ha p.nestingLimit_le]
  rfl

/-- The checker has room for the next token, but it is too much for the assembly. -/
theorem parse_eq_tooDeep_of_assembly {b : Assembly} (hmax : p.maxDepth = p.nestingLimit)
    (hless : ∀ v ∈ p.lexer.checker, p.nestingLimit < v.maxDepth)
    (hfits : Assembly.Fits (p.nestingLimit + 1) t a b) :
    (p.parse input).1 = .error (.refused ⟨.tooDeep p.nestingLimit, t.span⟩) := by
  have hsig (us : List Token) : significant (ts ++ [t] ++ us) =
      significant ts ++ t :: significant us := by simp [significant, ht]
  have hmore : Assembly.document.addAll (p.nestingLimit + 1) (significant (ts ++ [t])) =
      .ok b := by
    rw [← List.append_nil (ts ++ [t]), hsig]
    exact Assembly.addAll_append_eq_ok_iff.2 ⟨a, Assembly.addAll_mono ha (Nat.le_succ _),
      Assembly.addAll_cons_eq_ok_iff.2 ⟨b, hfits, rfl⟩⟩
  have hbrings := brings_lexerAt (hb.append_singleton hnext) hmore hless
  obtain ⟨us, e, l, rest, hrest⟩ := Lexer.exists_delivers (p.lexerAt s₂ b) rest₂
  rw [parse_of_delivers (hbrings.append_delivers hrest), hsig, hmax,
    Assembly.addAll_append_cons_of_add_eq_error ha hadd, Assembly.outcome_error]

end

variable {s' : Scanner R} {rest : Input} {tree : Tree}
  (hd : Delivers Scanner.next p.lexer.scanner.reset input ts (.ok ()) s' rest)
  (hr : Reads .tokens (.value tree) (significant ts) [])
include hd hr

theorem parse_eq_ok_of_nesting_le (hle : tree.nesting ≤ p.nestingLimit) :
    (p.parse input).1 = .ok tree := by
  have hn := (nestsWithin_iff_nesting_le hr _).2 hle
  obtain ⟨a, ha, -⟩ := (Assembly.addAll_finish_iff _ _ .start tree).2 ⟨hr, hn⟩
  obtain ⟨s₁, rest₁, hb, hnext⟩ := hd.exists_brings
  have hbrings := brings_lexerAt hb ha fun _ => p.nestingLimit_le_of_mem
  have hend : (p.lexerAt s₁ a).next rest₁ = (.ok none, p.lexerAt s' a, rest) := by
    unfold lexerAt
    rw [Lexer.next, hnext]
    rfl
  have hn' := (nestsWithin_iff_nesting_le hr _).2 (hle.trans p.nestingLimit_le)
  exact (parse_eq_ok_iff p input tree).2 ⟨ts, _, rest, hbrings.delivers hend, hr, hn'⟩

/-- The first token that opens a container too many is refused. -/
theorem exists_parse_eq_tooDeep (hlt : p.nestingLimit < tree.nesting) :
    ∃ t, FirstBeyond p.nestingLimit (significant ts) t ∧
      (p.parse input).1 = .error (.refused ⟨.tooDeep p.nestingLimit, t.span⟩) := by
  have hfinishes := (Assembly.finishes_document _ _).2 hr
  have hnot : ¬ NestsWithin p.nestingLimit ((significant ts).map Token.role) := by
    rw [nestsWithin_iff_nesting_le hr]
    exact Nat.not_le.2 hlt
  obtain ⟨before, t, after, a, hts, ha, hopening, hfull, hrest⟩ :=
    Assembly.exists_addAll_of_not_nestsWithin hfinishes (Nat.zero_le _) hnot
  refine ⟨t, hts ▸ Assembly.firstBeyond_of_addAll ha hopening hfull, ?_⟩
  have hadd := Assembly.add_eq_tooDeep hrest hopening hfull.ge
  obtain ⟨us, ws, rfl, rfl, hws⟩ := List.filter_eq_append_iff.1 hts
  obtain ⟨vs, zs, rfl, hvs, ht, -⟩ := List.filter_eq_cons_iff.1 hws
  rw [← List.append_assoc] at hd
  obtain ⟨s₁, rest₁, hb, hd₁⟩ := hd.exists_of_append
  have hbefore : significant (us ++ vs) = significant us := by
    rw [significant, List.filter_append, List.filter_eq_nil_iff.2 hvs, List.append_nil]
    rfl
  have ha' : Assembly.document.addAll p.nestingLimit (significant (us ++ vs)) = .ok a := by
    rw [hbefore]
    exact ha
  have ht' : t.isTrivia = false := by simpa using ht
  cases hd₁ with
  | token hnext _ =>
    rcases p.nestingLimit_eq_or with ⟨v, hv, hmax⟩ | ⟨hmax, hless⟩
    · exact parse_eq_tooDeep_of_checker hb ha' hnext ht' hadd hv hmax
    · obtain ⟨b, hfits⟩ := Assembly.exists_fits hrest fun _ => Nat.lt_succ_of_le hfull.le
      exact parse_eq_tooDeep_of_assembly hb ha' hnext ht' hadd hmax hless hfits

end

/-- A scanner brings the tokens of a document. With a checker of documents or without, a parser then
finds the tree of these tokens if they nest within the lower one of the two limits, and otherwise it
refuses the first token that opens a container where so many are open. With a limit raised, or
without the checker, it finds what it has found before. -/
theorem nesting_limits_combine {R : Type} [Descriptor R] (s s' : Scanner R) (input rest : Input)
    (ts : List Token) (hd : Delivers Scanner.next s.reset input ts (.ok ()) s' rest)
    (hw : IsDocument (roles ts)) :
    ∃ tree, Reads .tokens (.value tree) (significant ts) [] ∧
      (∀ n, NestsWithin n (roles ts) ↔ tree.nesting ≤ n) ∧
      ∀ p : Parser DocumentChecker R, p.lexer.scanner = s →
        (∀ found, (p.parse input).1 = .ok found ↔ found = tree ∧ tree.nesting ≤ p.nestingLimit) ∧
        (p.nestingLimit < tree.nesting →
          ∃ t, FirstBeyond p.nestingLimit (significant ts) t ∧
            (p.parse input).1 = .error (.refused ⟨.tooDeep p.nestingLimit, t.span⟩)) ∧
        ∀ q : Parser DocumentChecker R, q.lexer.scanner = s → p.maxDepth ≤ q.maxDepth →
          (∀ w ∈ q.lexer.checker, ∃ v ∈ p.lexer.checker, v.maxDepth ≤ w.maxDepth) →
          ∀ found, (p.parse input).1 = .ok found → (q.parse input).1 = .ok found := by
  obtain ⟨tree, hr⟩ := (isDocument_iff_exists_reads _).1 hw
  have hfinds (p : Parser DocumentChecker R) (hp : p.lexer.scanner = s) (found : Tree) :
      (p.parse input).1 = .ok found ↔ found = tree ∧ tree.nesting ≤ p.nestingLimit := by
    subst hp
    by_cases hle : tree.nesting ≤ p.nestingLimit
    · rw [parse_eq_ok_of_nesting_le hd hr hle, Except.ok.injEq, eq_comm]
      exact (and_iff_left hle).symm
    · obtain ⟨t, -, hrefused⟩ := exists_parse_eq_tooDeep hd hr (Nat.not_le.1 hle)
      rw [hrefused]
      exact iff_of_false (by simp) fun h => hle h.2
  refine ⟨tree, hr, nestsWithin_iff_nesting_le hr, fun p hp => ⟨hfinds p hp, ?_, ?_⟩⟩
  · subst hp
    exact exists_parse_eq_tooDeep hd hr
  · intro q hq hdepth hchecker found h
    obtain ⟨rfl, hle⟩ := (hfinds p hp found).1 h
    exact (hfinds q hq found).2 ⟨rfl, hle.trans (p.nestingLimit_mono hdepth hchecker)⟩

/-- An array in an array, for which the checker has no room but the assembly has. -/
theorem nesting_limits_combine_arrays :
    let s : Scanner := .ofOptions Lexicon.document {}
    let input := Input.ofChars "[[]]".toList
    ∃ tree : Tree, tree.nesting = 2 ∧
      ((⟨⟨s, none⟩, 2⟩ : Parser DocumentChecker).parse input).1 = .ok tree ∧
      ∃ t ts, FirstBeyond 1 ts t ∧
        ((⟨⟨s, some { maxDepth := 1 }⟩, 2⟩ : Parser DocumentChecker).parse input).1 =
          .error (.refused ⟨.tooDeep 1, t.span⟩) := by
  intro s input
  have hdelivers : ∃ s' rest, Delivers Scanner.next s.reset input
      [⟨.operator, .opening .array, ['['], ⟨⟨0, 0⟩, ⟨0, 0⟩⟩⟩,
        ⟨.operator, .opening .array, ['['], ⟨⟨0, 1⟩, ⟨0, 1⟩⟩⟩,
        ⟨.operator, .closing .array, [']'], ⟨⟨0, 2⟩, ⟨0, 2⟩⟩⟩,
        ⟨.operator, .closing .array, [']'], ⟨⟨0, 3⟩, ⟨0, 3⟩⟩⟩] (.ok ()) s' rest :=
    ⟨_, _, .token rfl (.token rfl (.token rfl (.token rfl (.finish rfl))))⟩
  obtain ⟨s', rest, hd⟩ := hdelivers
  have hw := Generates.array (.oneElement .emptyArray)
  obtain ⟨tree, hr, hnests, hp⟩ := nesting_limits_combine s s' input rest _ hd hw
  have hnesting : tree.nesting = 2 := by
    have htwo := hnests 2
    have hone := hnests 1
    simp [roles, significant, Token.isTrivia, Category.isTrivia] at htwo hone
    omega
  have hlt : 1 < tree.nesting := by omega
  obtain ⟨t, ht, hrefused⟩ := (hp ⟨⟨s, some { maxDepth := 1 }⟩, 2⟩ rfl).2.1 hlt
  have hparse := ((hp ⟨⟨s, none⟩, 2⟩ rfl).1 tree).2 ⟨rfl, hnesting.le⟩
  exact ⟨tree, hnesting, hparse, t, _, ht, hrefused⟩

end Parser

end LaxJson
