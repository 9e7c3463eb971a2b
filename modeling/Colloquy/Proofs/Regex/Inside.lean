import Colloquy.Proofs.Regex.Followed
import Colloquy.Proofs.Regex.Sequence

/-! What is read between the parentheses of a group that has no other groups, sets or escapes in it. -/

namespace Colloquy

def Regex.groupless : Regex → Bool
  | .group _ _ => false
  | .seq a b | .alt a b | .ifGroup _ a b => a.groupless && b.groupless
  | .loop _ _ _ body | .look _ _ body | .atomic body => body.groupless
  | _ => true

namespace Regex

open Text

variable {α β : Type}

/-- Whether a symbol neither opens nor closes anything. -/
def Simple (t : Token) : Prop := ∃ c, t = .plain c ∧ c ∉ ['(', ')', '[']

theorem Simple.open_ {t : Token} (simple : Simple t) : t ≠ .plain ')' := by
  obtain ⟨c, rfl, calm⟩ := simple
  rintro same
  cases same
  simp at calm

/-- Whether a state is one in which simple symbols come before a closing parenthesis, and differs from
`s₀` in nothing else. -/
def Within (s₀ : Reading) (ts : List Token) (s : Reading) : Prop :=
  ∃ rest place, (∀ t ∈ rest, Simple t) ∧ s = { s₀ with rest := rest ++ .plain ')' :: ts, place }

/-- Whether a step of reading stays within a group, and gives only such values. -/
def Stays (s₀ : Reading) (ts : List Token) (x : Reader α) (value : α → Prop) : Prop :=
  ∀ s v t, Within s₀ ts s → x s = .ok (v, t) → Within s₀ ts t ∧ value v

variable {s₀ s : Reading} {ts : List Token} {x : Reader α} {value : α → Prop} {result : β → Prop}

namespace Stays

theorem done {v : α} (fits : value v) : Stays s₀ ts (pure v) value := by
  intro s w t within read
  cases read
  exact ⟨within, fits⟩

theorem failed (failed : Fails x) : Stays s₀ ts x value :=
  fun s _ _ _ read => absurd read (failed s _)

theorem bind {f : α → Reader β} (first : Stays s₀ ts x value)
    (next : ∀ v, value v → Stays s₀ ts (f v) result) : Stays s₀ ts (x >>= f) result := by
  intro s w u within read
  obtain ⟨v, t, got, read⟩ := ok_of_bind read
  obtain ⟨within, fits⟩ := first s v t within got
  exact next v fits t w u within read

theorem state {f : Reading → Reader β} (next : ∀ s, Within s₀ ts s → Stays s₀ ts (f s) result) :
    Stays s₀ ts (get >>= f) result :=
  fun s w t within read => next s within s w t within read

theorem ite {c : Prop} [Decidable c] {y : Reader α} (yes : c → Stays s₀ ts x value)
    (no : ¬c → Stays s₀ ts y value) : Stays s₀ ts (if c then x else y) value := by
  split
  · next holds => exact yes holds
  · next fails => exact no fails

end Stays

theorem Within.past {t : Token} {rest : List Token} (within : Within s₀ ts s)
    (shape : s.rest = t :: rest) (open_ : t ≠ .plain ')') : Simple t ∧ Within s₀ ts (s.past t) := by
  obtain ⟨more, place, simple, rfl⟩ := within
  cases more with
  | nil => exact absurd (List.cons.inj shape).1.symm open_
  | cons u more =>
    obtain ⟨first, simple⟩ := List.forall_mem_cons.mp simple
    obtain ⟨rfl, _⟩ := List.cons.inj shape
    exact ⟨first, more, _, simple, rfl⟩

theorem stays_takeOne? {p : Char → Bool} (open_ : p ')' = false) :
    Stays s₀ ts (takeOne? p) fun _ => True := by
  intro s v t within read
  rw [← bind_pure (takeOne? p), takeOne?_bind] at read
  cases next : s.next? p with
  | none =>
    rw [next] at read
    cases read
    exact ⟨within, trivial⟩
  | some c =>
    rw [next] at read
    obtain ⟨r, u, taken, same⟩ := ok_of_bind read
    cases same
    rw [Reading.next?] at next
    rcases take?_ok taken with ⟨_, ended, _⟩ | ⟨d, rest, _, shape, _, rfl⟩
    · rw [ended] at next
      contradiction
    · refine ⟨(within.past shape ?_).2, trivial⟩
      rintro rfl
      rw [shape] at next
      simp [open_] at next

theorem stays_nextIs (c : Char) : Stays s₀ ts (nextIs c) fun _ => True := by
  intro s v t within read
  cases read
  exact ⟨within, trivial⟩

theorem stays_takeIf {c : Char} (open_ : c ≠ ')') : Stays s₀ ts (takeIf c) fun _ => True := by
  rw [takeIf_eq, map_eq_pure_bind]
  exact (stays_takeOne? (by simpa using open_.symm)).bind fun _ _ => .done trivial

theorem stays_takeWhile {p : Char → Bool} (open_ : p ')' = false) (n : Nat) :
    Stays s₀ ts (takeWhile p n) fun _ => True := by
  induction n with
  | zero => exact .done trivial
  | succ n ih =>
    rw [takeWhile_succ]
    refine (stays_takeOne? open_).bind fun c _ => ?_
    cases c with
    | none => exact .done trivial
    | some c => exact ih.bind fun _ _ => .done trivial

theorem stays_readCount (digits : List Char) : Stays s₀ ts (readCount digits) fun _ => True := by
  refine .ite (fun _ => .done trivial) fun _ => .ite (fun _ => .failed Fails.throw.bind) fun _ => ?_
  exact .ite (fun _ => .failed Fails.throw.bind) fun _ => .done trivial

theorem stays_readRange : Stays s₀ ts readRange fun _ => True := by
  refine .state fun s within => ?_
  have back : Stays s₀ ts (set s : Reader Unit) fun _ => True := by
    intro _ v t _ read
    cases read
    exact ⟨within, trivial⟩
  have ended (low high : List Char) :
      Stays s₀ ts (readRangeEnd s.place low high (set s)) fun _ => True := by
    refine (stays_takeIf (by decide)).bind fun brace _ => .ite (fun _ => ?_) fun _ => ?_
    · refine (stays_readCount _).bind fun least _ => (stays_readCount _).bind fun most _ => ?_
      exact .ite (fun _ => .failed Fails.failAt.bind) fun _ => .done trivial
    · exact back.bind fun _ _ => .done trivial
  have digits : Stays s₀ ts (takeWhile isPlainDigit s.rest.length) fun _ => True :=
    stays_takeWhile (by decide) _
  have same (low : List Char) : Stays s₀ ts (pure low) fun _ => True := .done trivial
  refine (stays_nextIs _).bind fun brace _ => .ite (fun _ => .done trivial) fun _ => ?_
  refine digits.bind fun low _ => (stays_takeIf (by decide)).bind fun comma _ => ?_
  exact .ite (fun _ => digits.bind fun high _ => ended low high) fun _ =>
    (same low).bind fun high _ => ended low high

theorem stays_readGreed : Stays s₀ ts readGreed fun _ => True := by
  refine (stays_takeIf (by decide)).bind fun lazy _ => .ite (fun _ => .done trivial) fun _ => ?_
  refine (stays_takeIf (by decide)).bind fun possessive _ => ?_
  exact .ite (fun _ => .done trivial) fun _ => .done trivial

def Groupless (ps : List Part) : Prop := ∀ p ∈ ps, p.regex.groupless = true

theorem stays_readRepetition {parts : List Part} (groupless : Groupless parts) (start least : Nat)
    (most : Option Nat) : Stays s₀ ts (readRepetition start least most parts) Groupless := by
  match parts, groupless with
  | [], _ => exact .failed .failAt
  | .place _ :: _, _ => exact .failed .failAt
  | .repeated _ :: _, _ => exact .failed .failAt
  | .item r :: before, groupless =>
    obtain ⟨first, others⟩ := List.forall_mem_cons.mp groupless
    refine stays_readGreed.bind fun greed _ => .done (List.forall_mem_cons.mpr ⟨?_, others⟩)
    change (repeated greed least most r).groupless = true
    unfold repeated
    split
    · rfl
    · exact first

/-- A simple symbol leaves a group as it is, and adds no group to the parts. -/
theorem stays_readSymbol {parts : List Part} (groupless : Groupless parts) {t : Token}
    (simple : Simple t) (steps : Nat) (leading : Bool) {flags : Flags} (tight : flags.verbose = false)
    (length start : Nat) :
    Stays s₀ ts (readSymbol steps leading flags length start parts t) Groupless := by
  obtain ⟨c, rfl, open_⟩ := simple
  have one_more (p : Part) (fits : p.regex.groupless = true) : Groupless (p :: parts) :=
    List.forall_mem_cons.mpr ⟨fits, groupless⟩
  have never (b : Bool) : ¬(flags.verbose && b) = true := by simp [tight]
  refine .ite (fun blank => absurd blank (never _)) fun _ => ?_
  refine .ite (fun comment => absurd comment (never _)) fun _ => ?_
  split
  · simp at open_
  · simp at open_
  · exact .done (one_more _ rfl)
  · exact .done (one_more _ rfl)
  · exact .done (one_more _ rfl)
  · exact stays_readRepetition groupless _ _ _
  · exact stays_readRepetition groupless _ _ _
  · exact stays_readRepetition groupless _ _ _
  · refine stays_readRange.bind fun range _ => ?_
    cases range with
    | none => exact .done (one_more _ rfl)
    | some range => exact stays_readRepetition groupless _ _ _
  · exact .done (one_more _ rfl)

/-- Simple symbols are read up to the end of their group, and give no groups. -/
theorem stays_readParts {parts : List Part} (groupless : Groupless parts)
    (tight : s₀.flags.verbose = false) (steps : Nat) (leading : Bool) :
    Stays s₀ ts (readParts steps leading parts) Groupless := by
  induction steps generalizing parts with
  | zero => exact .failed .fail
  | succ steps ih =>
    have reversed : Groupless parts.reverse := fun p member => groupless p (List.mem_reverse.mp member)
    intro s ps u within read
    have within' := within
    obtain ⟨rest, place, simple, rfl⟩ := within
    cases rest with
    | nil =>
      rw [readParts_end (.inr rfl) rfl] at read
      cases read
      exact ⟨within', reversed⟩
    | cons t rest =>
      by_cases bar : t = .plain '|'
      · rw [bar, readParts_end (.inl rfl) rfl] at read
        cases read
        exact ⟨bar ▸ within', reversed⟩
      · have first := simple t List.mem_cons_self
        rw [readParts_symbol rfl bar first.open_] at read
        obtain ⟨_, t₁, taken, read⟩ := ok_of_bind read
        obtain ⟨ps', t₂, symbol, read⟩ := ok_of_bind read
        have past : Within s₀ ts t₁ := by
          obtain ⟨r, got⟩ := discard_ok.mp taken
          rcases take?_ok got with ⟨_, ended, _⟩ | ⟨c, more, _, shape, _, rfl⟩
          · cases ended
          · obtain ⟨rfl, _⟩ := List.cons.inj shape
            exact (within'.past rfl first.open_).2
        obtain ⟨past, fits⟩ :=
          stays_readSymbol groupless first steps leading tight _ _ t₁ ps' t₂ past symbol
        exact ih fits t₂ ps u past read

theorem groupless_sequence {ps : List Part} (groupless : Groupless ps) :
    (sequence ps).groupless = true := by
  induction ps with
  | nil => rfl
  | cons p ps ih =>
    obtain ⟨first, others⟩ := List.forall_mem_cons.mp groupless
    cases ps with
    | nil => exact first
    | cons q ps => exact Bool.and_eq_true_iff.mpr ⟨first, ih others⟩

theorem stays_readBranches (tight : s₀.flags.verbose = false) (steps : Nat) (leading : Bool) :
    Stays s₀ ts (readBranches steps leading) fun r => r.groupless = true := by
  induction steps generalizing leading with
  | zero => exact .failed .fail
  | succ steps ih =>
    rw [readBranches, readSequence_eq, map_eq_pure_bind, bind_assoc]
    have empty : Groupless [] := fun p member => absurd member List.not_mem_nil
    refine (stays_readParts empty tight steps leading).bind fun first groupless => ?_
    rw [pure_bind]
    refine (stays_takeIf (by decide)).bind fun more _ => ?_
    refine .ite (fun _ => (ih false).bind fun others fits => .done ?_) fun _ => .done ?_
    · exact Bool.and_eq_true_iff.mpr ⟨groupless_sequence groupless, fits⟩
    · exact groupless_sequence groupless

theorem deeper_ok {step : Reader α} {t : Reading} {v : α} (read : deeper step s = .ok (v, t)) :
    ∃ u, step { s with depth := s.depth + 1 } = .ok (v, u) ∧ t = { u with depth := u.depth - 1 } := by
  rw [deeper, get_bind] at read
  by_cases deep : nestingLimit ≤ s.depth
  · rw [if_pos deep] at read
    contradiction
  · rw [if_neg deep] at read
    change (step >>= fun a => do
      modify fun s => { s with depth := s.depth - 1 }
      return a) { s with depth := s.depth + 1 } = _ at read
    obtain ⟨w, u, got, same⟩ := ok_of_bind read
    cases same
    exact ⟨u, got, rfl⟩

theorem closeGroup_ok {start : Nat} {t : Reading} {v : Unit} (read : closeGroup start s = .ok (v, t)) :
    s.rest.head? = some (.plain ')') ∧ t = s.past (.plain ')') := by
  obtain ⟨closed, u, got, later⟩ := ok_of_bind read
  rcases takeIf_ok.mp got with ⟨rfl, first, r, taken⟩ | ⟨rfl, _, _⟩
  · cases later
    refine ⟨first, ?_⟩
    rcases take?_ok taken with ⟨_, ended, _⟩ | ⟨c, rest, _, shape, _, rfl⟩
    · rw [ended] at first
      contradiction
    · rw [shape] at first
      rw [Option.some.inj first]
  · contradiction

variable {rest : List Token} {steps start : Nat} {t : Reading}

/-- What is read of simple symbols in a group ends with its parenthesis, and has no groups. -/
theorem readInside_simple {body : Regex} (shape : s.rest = rest ++ .plain ')' :: ts)
    (simple : ∀ t ∈ rest, Simple t) (tight : s.flags.verbose = false)
    (read : readInside steps start s = .ok (body, t)) :
    ∃ place, t = { s with rest := ts, place } ∧ body.groupless = true := by
  cases steps with
  | zero => exact absurd read (Fails.failAt s _)
  | succ steps =>
    rw [readInside] at read
    obtain ⟨body', t₁, deep, read⟩ := ok_of_bind read
    obtain ⟨_, t₂, closed, same⟩ := ok_of_bind read
    cases same
    obtain ⟨u, branches, rfl⟩ := deeper_ok deep
    have within : Within { s with depth := s.depth + 1 } ts { s with depth := s.depth + 1 } :=
      ⟨rest, s.place, simple, by rw [← shape]⟩
    have tight' : { s with depth := s.depth + 1 }.flags.verbose = false := tight
    have stays : Stays { s with depth := s.depth + 1 } ts (readBranches steps false) fun r =>
      r.groupless = true := stays_readBranches tight' steps false
    obtain ⟨⟨more, place, simple, rfl⟩, groupless⟩ := stays _ _ u within branches
    obtain ⟨first, rfl⟩ := closeGroup_ok closed
    cases more with
    | nil => exact ⟨place + 1, rfl, groupless⟩
    | cons c more =>
      exact absurd (Option.some.inj first) (simple c List.mem_cons_self).open_

theorem readOpening_capture {leading : Bool} (first : s.rest.head? ≠ some (.plain '?')) :
    readOpening start leading s = .ok (.capture none, s) := by
  rw [readOpening, bind_of_ok (takeIf_ok.mpr (.inr ⟨rfl, first, rfl⟩))]
  rfl

/-- A group of simple symbols is one more group, with none inside. -/
theorem readGroup_simple {leading : Bool} {parts : List Part} {group : Option Regex}
    (shape : s.rest = rest ++ .plain ')' :: ts) (simple : ∀ t ∈ rest, Simple t)
    (first : s.rest.head? ≠ some (.plain '?')) (tight : s.flags.verbose = false)
    (read : readGroup steps leading start parts s = .ok (group, t)) :
    ∃ body place widths, group = some (.group s.groups body) ∧ body.groupless = true ∧
      t = { s with rest := ts, place, groups := s.groups + 1, widths } := by
  cases steps with
  | zero => exact absurd read (Fails.fail s _)
  | succ steps =>
    have opened : openGroup none s = .ok (s.groups, { s with groups := s.groups + 1 }) := rfl
    rw [readGroup, bind_of_ok (readOpening_capture first)] at read
    dsimp only at read
    rw [bind_of_ok opened] at read
    obtain ⟨body, t₁, inside, read⟩ := ok_of_bind read
    cases read
    obtain ⟨place, rfl, groupless⟩ := readInside_simple (by exact shape) simple (by exact tight) inside
    exact ⟨body, place, _, rfl, groupless, rfl⟩

/-! Symbols that can be read wherever they stand. -/

/-- Whether a symbol neither opens nor closes anything nor says how often something is repeated. -/
def Literal (t : Token) : Prop :=
  ∃ c, t = .plain c ∧ c ∉ ['(', ')', '[', '?', '*', '+', '\x7b']

theorem Literal.simple {t : Token} (literal : Literal t) : Simple t := by
  obtain ⟨c, rfl, calm⟩ := literal
  refine ⟨c, rfl, fun sign => calm ?_⟩
  simp at sign ⊢
  tauto

theorem whole_of_literal (literal : ∀ t ∈ rest, Literal t) :
    (rest ++ .plain ')' :: ts).head? ≠ some .lone := by
  cases rest with
  | nil => simp
  | cons t rest =>
    obtain ⟨c, rfl, _⟩ := literal t List.mem_cons_self
    simp

theorem readSymbol_literal {t : Token} {flags : Flags} (literal : Literal t)
    (tight : flags.verbose = false) (steps : Nat) (leading : Bool) (length start : Nat)
    (parts : List Part) :
    ∃ ps, readSymbol steps leading flags length start parts t = pure ps := by
  obtain ⟨c, rfl, calm⟩ := literal
  have never (b : Bool) : ¬(flags.verbose && b) = true := by simp [tight]
  unfold readSymbol
  dsimp only
  rw [if_neg (never _), if_neg (never _)]
  split
  case h_3 | h_4 | h_5 | h_10 => exact ⟨_, rfl⟩
  all_goals simp at calm

/-- Literal symbols are read up to the end of an alternative. -/
theorem readParts_literal (leading : Bool) (parts : List Part)
    (shape : s.rest = rest ++ .plain ')' :: ts) (literal : ∀ t ∈ rest, Literal t)
    (tight : s.flags.verbose = false) (enough : rest.length < steps) :
    ∃ ps left place, readParts steps leading parts s =
        .ok (ps, { s with rest := left ++ .plain ')' :: ts, place }) ∧
      left <:+ rest ∧ left.head? ∈ [none, some (.plain '|')] := by
  induction rest generalizing s steps parts with
  | nil =>
    obtain ⟨k, rfl⟩ : ∃ k, steps = k + 1 := ⟨steps - 1, by simp at enough; omega⟩
    exact ⟨parts.reverse, [], s.place, by rw [readParts_end (.inr rfl) shape, ← shape],
      List.suffix_rfl, by simp⟩
  | cons t rest ih =>
    obtain ⟨k, rfl⟩ : ∃ k, steps = k + 1 := ⟨steps - 1, by omega⟩
    obtain ⟨first, others⟩ := List.forall_mem_cons.mp literal
    by_cases bar : t = .plain '|'
    · subst bar
      exact ⟨parts.reverse, _, s.place, by rw [readParts_end (.inl rfl) shape, ← shape],
        List.suffix_rfl, by simp⟩
    · obtain ⟨ps, symbol⟩ := readSymbol_literal first tight k leading s.rest.length s.place parts
      have taken : (discard take? : Reader Unit) s = .ok ((), s.past t) :=
        discard_ok.mpr ⟨_, take?_of_cons shape (whole_of_literal others)⟩
      have past : (s.past t).rest = rest ++ .plain ')' :: ts := by rw [Reading.past, shape]; rfl
      obtain ⟨ps', left, place, read, suffix, ends⟩ :=
        ih ps past others tight (by simp at enough; omega)
      rw [readParts_symbol shape bar first.simple.open_, bind_of_ok taken, symbol, pure_bind, read]
      exact ⟨ps', left, place, rfl, suffix.trans (List.suffix_cons t rest), ends⟩

theorem readBranches_literal (leading : Bool) (shape : s.rest = rest ++ .plain ')' :: ts)
    (literal : ∀ t ∈ rest, Literal t) (tight : s.flags.verbose = false)
    (enough : rest.length + 1 < steps) : ∃ r place, readBranches steps leading s =
      .ok (r, { s with rest := .plain ')' :: ts, place }) := by
  induction steps generalizing s rest leading with
  | zero => omega
  | succ steps ih =>
    obtain ⟨ps, left, place, read, suffix, ends⟩ :=
      readParts_literal leading [] shape literal tight (by omega : rest.length < steps)
    have sequence_ : readSequence steps leading [] s =
        .ok (sequence ps, { s with rest := left ++ .plain ')' :: ts, place }) := by
      rw [readSequence_eq, map_eq_pure_bind, bind_of_ok read]
      rfl
    rw [readBranches, bind_of_ok sequence_]
    cases left with
    | nil =>
      rw [bind_of_ok (takeIf_ok.mpr (.inr ⟨rfl, by simp, rfl⟩))]
      exact ⟨_, place, rfl⟩
    | cons t left =>
      have bar : t = .plain '|' := by simpa using ends
      subst bar
      have later : ∀ t ∈ left, Literal t := fun t member =>
        literal t (suffix.subset (List.mem_cons_of_mem _ member))
      have taken : takeIf '|' { s with rest := .plain '|' :: left ++ .plain ')' :: ts, place } =
          .ok (true, { s with rest := left ++ .plain ')' :: ts, place := place + 1 }) :=
        takeIf_ok.mpr (.inl ⟨rfl, rfl, _,
          take?_of_cons (s := { s with rest := _, place }) rfl (whole_of_literal later)⟩)
      have shorter := suffix.length_le
      rw [List.length_cons] at shorter
      obtain ⟨others, place', read'⟩ :=
        ih (s := { s with rest := left ++ .plain ')' :: ts, place := place + 1 }) false rfl later tight
          (by omega)
      rw [bind_of_ok taken, if_pos rfl, bind_of_ok read']
      exact ⟨_, place', rfl⟩

/-- Literal symbols in a group can always be read. -/
theorem readInside_literal (shape : s.rest = rest ++ .plain ')' :: ts)
    (literal : ∀ t ∈ rest, Literal t) (fine : ts.head? ≠ some .lone) (tight : s.flags.verbose = false)
    (shallow : s.depth < nestingLimit) (enough : rest.length + 2 < steps) :
    ∃ result, readInside steps start s = .ok result := by
  obtain ⟨k, rfl⟩ : ∃ k, steps = k + 1 := ⟨steps - 1, by omega⟩
  obtain ⟨r, place, read⟩ := readBranches_literal (s := { s with depth := s.depth + 1 }) false shape
    literal tight (by omega : rest.length + 1 < k)
  have closed : closeGroup start { s with rest := .plain ')' :: ts, place } =
      .ok ((), { s with rest := ts, place := place + 1 }) := by
    have taken : takeIf ')' { s with rest := .plain ')' :: ts, place } =
        .ok (true, { s with rest := ts, place := place + 1 }) :=
      takeIf_ok.mpr (.inl ⟨rfl, rfl, _,
        take?_of_cons (s := { s with rest := _, place }) rfl fine⟩)
    rw [closeGroup, bind_of_ok taken]
    rfl
  rw [readInside, bind_of_ok (deeper_of_ok shallow read)]
  exact ⟨_, bind_of_ok closed⟩

/-- A group of literal symbols can be read. -/
theorem readGroup_literal {leading : Bool} {parts : List Part}
    (shape : s.rest = rest ++ .plain ')' :: ts) (literal : ∀ t ∈ rest, Literal t)
    (fine : ts.head? ≠ some .lone) (tight : s.flags.verbose = false)
    (shallow : s.depth < nestingLimit) (enough : rest.length + 3 < steps) :
    ∃ result, readGroup steps leading start parts s = .ok result := by
  obtain ⟨k, rfl⟩ : ∃ k, steps = k + 1 := ⟨steps - 1, by omega⟩
  have first : s.rest.head? ≠ some (.plain '?') := by
    rw [shape]
    cases rest with
    | nil => simp
    | cons t rest =>
      obtain ⟨c, rfl, calm⟩ := literal t List.mem_cons_self
      rintro same
      cases same
      simp at calm
  have opened : openGroup none s = .ok (s.groups, { s with groups := s.groups + 1 }) := rfl
  obtain ⟨⟨body, u⟩, read⟩ : ∃ result, readInside k start { s with groups := s.groups + 1 } =
      .ok result := readInside_literal (by exact shape) literal fine tight shallow (by omega)
  rw [readGroup, bind_of_ok (readOpening_capture first)]
  dsimp only
  rw [bind_of_ok opened, bind_of_ok read]
  exact ⟨_, rfl⟩

end Regex
end Colloquy
