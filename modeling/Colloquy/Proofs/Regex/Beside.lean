import Colloquy.Proofs.Regex.Opening

/-! A text with a word edge at its end, and the same text without it, read side by side: what is read
before the edge is read in the other text too. -/

namespace Colloquy.Regex

open Text

variable {α β : Type}

/-- Whether a step of reading leaves an end of the symbols that come next, and the flags as they are. -/
def Steady (x : Reader α) : Prop :=
  ∀ s v t, x s = .ok (v, t) → t.rest <:+ s.rest ∧ t.flags = s.flags

def Fails (x : Reader α) : Prop := ∀ s r, x s ≠ .ok r

/-- Whether a step of reading never succeeds at the end of the text. -/
def NeedsMore (x : Reader α) : Prop := ∀ s r, s.rest = [] → x s ≠ .ok r

/-- Whether two states of reading differ only in what comes next, and in places, which faults tell. -/
structure Similar (s s' : Reading) : Prop where
  groups : s.groups = s'.groups
  names : s.names = s'.names
  widths : s.widths = s'.widths
  behindFrom : s.behindFrom = s'.behindFrom
  flags : s.flags = s'.flags
  conditions : s.conditions.map Prod.fst = s'.conditions.map Prod.fst
  loose : s.loose = s'.loose
  depth : s.depth = s'.depth

/-- Whether two states of reading are similar, and have the same symbols before them but for a word
edge at the end of the first. There are fewer than `n` of these. -/
structure Beside (n : Nat) (s s' : Reading) : Prop where
  rest : s.rest = s'.rest ++ [.escaped 'b']
  few : s'.rest.length < n
  similar : Similar s s'

/-- Whether all that `x` reads before a word edge at the end is read by `y` without the edge. Where
`beyond` holds, `x` may go past the edge. -/
structure Follows (beyond : Prop) (n : Nat) (x y : Reader α) : Prop where
  steady : Steady x
  reads : ∀ s s', Beside n s s' → ∀ v t, x s = .ok (v, t) →
    beyond ∧ t.rest = [] ∨ ∃ t', y s' = .ok (v, t') ∧ Beside n t t'

theorem Similar.refl (s : Reading) : Similar s s := ⟨rfl, rfl, rfl, rfl, rfl, rfl, rfl, rfl⟩

theorem Similar.symm {s s' : Reading} (similar : Similar s s') : Similar s' s :=
  ⟨similar.groups.symm, similar.names.symm, similar.widths.symm, similar.behindFrom.symm,
    similar.flags.symm, similar.conditions.symm, similar.loose.symm, similar.depth.symm⟩

/-- Two states that are similar to a third one are similar. -/
theorem Similar.trans {s t u : Reading} (first : Similar s t) (second : Similar t u) :
    Similar s u where
  groups := first.groups.trans second.groups
  names := first.names.trans second.names
  widths := first.widths.trans second.widths
  behindFrom := first.behindFrom.trans second.behindFrom
  flags := first.flags.trans second.flags
  conditions := first.conditions.trans second.conditions
  loose := first.loose.trans second.loose
  depth := first.depth.trans second.depth

/-- The same characters come next in both, but for the edge at the end. -/
theorem Beside.head? {n : Nat} {s s' : Reading} (beside : Beside n s s') (c : Char) :
    s.rest.head? = some (.plain c) ↔ s'.rest.head? = some (.plain c) := by
  rw [beside.rest]
  cases s'.rest with
  | nil => simp
  | cons _ _ => rfl

theorem Beside.mono {n m : Nat} {s s' : Reading} (beside : Beside n s s') (less : n ≤ m) :
    Beside m s s' := ⟨beside.rest, Nat.lt_of_lt_of_le beside.few less, beside.similar⟩

/-! What a step that looks at the state hands on. -/

theorem get_bind (f : Reading → Reader α) (s : Reading) :
    ((get : Reader Reading) >>= f) s = f s s := rfl

theorem here_bind (f : Nat → Reader α) (s : Reading) : (here >>= f) s = f s.place s := rfl

theorem peek?_bind (f : Option Token → Reader α) (s : Reading) :
    (peek? >>= f) s = f s.rest.head? s := rfl

theorem nextIs_bind (c : Char) (f : Bool → Reader α) (s : Reading) :
    (nextIs c >>= f) s = f (s.rest.head? == some (.plain c)) s := rfl

/-! Steps that never succeed. -/

namespace Fails

theorem throw {e : Error} : Fails (throw e : Reader α) := fun _ _ => nofun

theorem failAt {f : Fault} {place : Nat} : Fails (failAt f place : Reader α) := Fails.throw

theorem fail {f : Fault} : Fails (fail f : Reader α) := fun _ _ => nofun

theorem bind {x : Reader α} {f : α → Reader β} (failed : Fails x) : Fails (x >>= f) := by
  intro s r read
  obtain ⟨v, t, got, _⟩ := ok_of_bind read
  exact failed s _ got

theorem skip {x : Reader α} {f : α → Reader β} (failed : ∀ v, Fails (f v)) : Fails (x >>= f) := by
  intro s r read
  obtain ⟨v, t, _, got⟩ := ok_of_bind read
  exact failed v t _ got

end Fails

/-! Steps that leave an end of what comes next. -/

namespace Steady

theorem failed {x : Reader α} (failed : Fails x) : Steady x :=
  fun s _ _ read => absurd read (failed s _)

theorem done (v : α) : Steady (pure v : Reader α) := by
  intro s w t read
  cases read
  exact ⟨List.suffix_refl _, rfl⟩

theorem bind {x : Reader α} {f : α → Reader β} (first : Steady x) (next : ∀ v, Steady (f v)) :
    Steady (x >>= f) := by
  intro s w u read
  obtain ⟨v, t, got, read⟩ := ok_of_bind read
  obtain ⟨suffix, flags⟩ := first s v t got
  obtain ⟨suffix', flags'⟩ := next v t w u read
  exact ⟨suffix'.trans suffix, flags'.trans flags⟩

/-- Nothing comes next after a step if nothing did before it. -/
theorem ended {x : Reader α} (steady : Steady x) {s t : Reading} {v : α} (read : x s = .ok (v, t))
    (nothing : s.rest = []) : t.rest = [] := by
  have suffix := (steady s v t read).1
  rw [nothing] at suffix
  exact List.suffix_nil.mp suffix

end Steady

/-! Steps that follow one another. -/

namespace Follows

variable {beyond : Prop} {n : Nat} {x y : Reader α}

/-- What is read from states with fewer symbols is read from states with more. -/
theorem reads_of_le {m : Nat} (follows : Follows beyond m x y) (fewer : m ≤ n) {s s' t : Reading}
    {v : α} (beside : Beside m s s') (read : x s = .ok (v, t)) :
    beyond ∧ t.rest = [] ∨ ∃ t', y s' = .ok (v, t') ∧ Beside n t t' := by
  refine (follows.reads s s' beside v t read).imp_right ?_
  rintro ⟨t', got, beside'⟩
  exact ⟨t', got, beside'.mono fewer⟩

theorem failed (failed : Fails x) : Follows beyond n x y :=
  ⟨.failed failed, fun s _ _ _ _ read => absurd read (failed s _)⟩

theorem done (v : α) : Follows beyond n (pure v) (pure v) := by
  refine ⟨.done v, fun s s' beside v t read => ?_⟩
  cases read
  exact .inr ⟨s', rfl, beside⟩

theorem bind {f g : α → Reader β} (first : Follows beyond n x y)
    (next : ∀ v, Follows beyond n (f v) (g v)) : Follows beyond n (x >>= f) (y >>= g) := by
  refine ⟨first.steady.bind fun v => (next v).steady, fun s s' beside w u read => ?_⟩
  obtain ⟨v, t, got, read⟩ := ok_of_bind read
  rcases first.reads s s' beside v t got with ⟨may, ended⟩ | ⟨t', got', beside'⟩
  · exact .inl ⟨may, (next v).steady.ended read ended⟩
  · rw [bind_of_ok got']
    exact (next v).reads t t' beside' w u read

theorem here {f g : Nat → Reader α} (next : ∀ p p', Follows beyond n (f p) (g p')) :
    Follows beyond n (Regex.here >>= f) (Regex.here >>= g) :=
  ⟨fun s => (next s.place s.place).steady s, fun s s' => (next s.place s'.place).reads s s'⟩

/-- Both read on from states that are known to be similar, and in which `m` bounds what comes next. -/
theorem state {f g : Reading → Reader α}
    (next : ∀ s s' m, Similar s s' → m ≤ n → m ≤ s.rest.length → m ≤ s'.rest.length + 1 →
      Follows beyond m (f s) (g s')) : Follows beyond n (get >>= f) (get >>= g) := by
  constructor
  · intro s
    exact (next s s 0 (.refl s) (Nat.zero_le _) (Nat.zero_le _) (Nat.zero_le _)).steady s
  · intro s s' beside v t read
    have follows := next s s' (s'.rest.length + 1) beside.similar beside.few
      (by simp [beside.rest]) (Nat.le_refl _)
    have here : Beside (s'.rest.length + 1) s s' :=
      ⟨beside.rest, Nat.lt_succ_self _, beside.similar⟩
    exact follows.reads_of_le beside.few here read

theorem modify {change change' : Reading → Reading}
    (rest : ∀ s, (change s).rest = s.rest) (rest' : ∀ s, (change' s).rest = s.rest)
    (flags : ∀ s, (change s).flags = s.flags)
    (similar : ∀ s s', Similar s s' → Similar (change s) (change' s')) :
    Follows beyond n (modify change : Reader Unit) (modify change' : Reader Unit) := by
  constructor
  · intro s v t read
    cases read
    exact ⟨⟨[], rest s⟩, flags s⟩
  · intro s s' beside v t read
    cases read
    refine .inr ⟨change' s', rfl, ?_, ?_, similar s s' beside.similar⟩
    · rw [rest, rest', beside.rest]
    · rw [rest']
      exact beside.few

theorem ite {c : Prop} [Decidable c] {x' y' : Reader α} (yes : c → Follows beyond n x y)
    (no : ¬c → Follows beyond n x' y') :
    Follows beyond n (if c then x else x') (if c then y else y') := by
  split
  · next holds => exact yes holds
  · next fails => exact no fails

/-- A check that fails stops both. -/
theorem check {c : Prop} [Decidable c] {x y : Reader β} {f g : β → Reader α} {x' y' : Reader α}
    (failed : Fails x) (no : ¬c → Follows beyond n x' y') :
    Follows beyond n (if c then x >>= f else x') (if c then y >>= g else y') :=
  ite (fun _ => .failed failed.bind) no

theorem weaken {beyond' : Prop} (follows : Follows beyond n x y) (weaker : beyond → beyond') :
    Follows beyond' n x y :=
  ⟨follows.steady, fun s s' beside v t read =>
    (follows.reads s s' beside v t read).imp_left (And.imp_left weaker)⟩

/-- A step may go past the end if the next one cannot succeed there. -/
theorem close {f g : α → Reader β} (first : Follows True n x y)
    (next : ∀ v, Follows beyond n (f v) (g v)) (more : ∀ v, NeedsMore (f v)) :
    Follows beyond n (x >>= f) (y >>= g) := by
  refine ⟨first.steady.bind fun v => (next v).steady, fun s s' beside w u read => ?_⟩
  obtain ⟨v, t, got, read⟩ := ok_of_bind read
  rcases first.reads s s' beside v t got with ⟨_, ended⟩ | ⟨t', got', beside'⟩
  · exact absurd read (more v t _ ended)
  · rw [bind_of_ok got']
    exact (next v).reads t t' beside' w u read

end Follows

/-! Symbols. -/

theorem refuseLone_of {s : Reading} (fine : s.rest.head? ≠ some .lone) :
    refuseLone s = .ok ((), s) := by
  rw [refuseLone, peek?_bind, if_neg (by simpa using fine)]
  rfl

theorem refuseLone_ok {s t : Reading} {v : Unit} (read : refuseLone s = .ok (v, t)) :
    s.rest.head? ≠ some .lone ∧ t = s := by
  have fine : s.rest.head? ≠ some .lone := by
    intro lone
    rw [refuseLone, peek?_bind, if_pos (by simpa using lone)] at read
    contradiction
  rw [refuseLone_of fine] at read
  cases read
  exact ⟨fine, rfl⟩

def Reading.past (s : Reading) (c : Token) : Reading :=
  { s with rest := s.rest.tail, place := s.place + c.width }

theorem similar_past (s : Reading) (c : Token) : Similar (s.past c) s :=
  ⟨rfl, rfl, rfl, rfl, rfl, rfl, rfl, rfl⟩

theorem take?_of_cons {s : Reading} {c : Token} {rest : List Token} (shape : s.rest = c :: rest)
    (fine : rest.head? ≠ some .lone) : take? s = .ok (some c, s.past c) := by
  rw [take?, get_bind, shape]
  change (refuseLone >>= fun _ => pure (some c)) { s with rest, place := s.place + c.width } = _
  rw [bind_of_ok (refuseLone_of fine), Reading.past, shape]
  rfl

/-- A symbol is taken if there is one, and no lone backslash comes after it. -/
theorem take?_ok {s t : Reading} {r : Option Token} (read : take? s = .ok (r, t)) :
    (r = none ∧ s.rest = [] ∧ t = s) ∨ ∃ c rest, r = some c ∧ s.rest = c :: rest ∧
      rest.head? ≠ some .lone ∧ t = s.past c := by
  rw [take?, get_bind] at read
  cases shape : s.rest with
  | nil =>
    rw [shape] at read
    cases read
    exact .inl ⟨rfl, rfl, rfl⟩
  | cons c rest =>
    rw [shape] at read
    obtain ⟨_, _, put, read⟩ := ok_of_bind read
    cases put
    obtain ⟨_, _, fine, same⟩ := ok_of_bind read
    cases same
    obtain ⟨firm, rfl⟩ := refuseLone_ok fine
    exact .inr ⟨c, rest, rfl, rfl, firm, by rw [Reading.past, shape]; rfl⟩

theorem discard_ok {s t : Reading} {v : Unit} : (discard take? : Reader Unit) s = .ok (v, t) ↔
    ∃ r, take? s = .ok (r, t) := by
  constructor
  · intro read
    obtain ⟨r, u, got, same⟩ := ok_of_bind (f := fun _ => pure ()) read
    cases same
    exact ⟨r, got⟩
  · rintro ⟨r, got⟩
    exact bind_of_ok (f := fun _ => pure ()) got

theorem steady_here : Steady here := by
  intro s v t read
  cases read
  exact ⟨List.suffix_refl _, rfl⟩

theorem steady_take? : Steady take? := by
  intro s r t read
  rcases take?_ok read with ⟨_, _, rfl⟩ | ⟨c, rest, _, shape, _, rfl⟩
  · exact ⟨List.suffix_refl _, rfl⟩
  · exact ⟨List.tail_suffix _, rfl⟩

/-- A symbol is taken in both, unless it is the edge at the end. -/
theorem Beside.take? {n : Nat} {s s' t : Reading} {r : Option Token} (beside : Beside n s s')
    (read : take? s = .ok (r, t)) : ∃ c rest, r = some c ∧ s.rest = c :: rest ∧
      ((c = .escaped 'b' ∧ s'.rest = [] ∧ t.rest = []) ∨
        ∃ t', Regex.take? s' = .ok (some c, t') ∧ Beside (n - 1) t t' ∧ 0 < n) := by
  rcases take?_ok read with ⟨_, ended, _⟩ | ⟨c, rest, rfl, shape, fine, rfl⟩
  · rw [beside.rest] at ended
    simp at ended
  · refine ⟨c, rest, rfl, shape, ?_⟩
    have both := beside.rest
    rw [shape] at both
    cases shape' : s'.rest with
    | nil =>
      rw [shape'] at both
      obtain ⟨rfl, rfl⟩ := List.cons.inj both
      exact .inl ⟨rfl, rfl, by rw [Reading.past, shape]; rfl⟩
    | cons c' rest' =>
      rw [shape'] at both
      obtain ⟨rfl, rfl⟩ := List.cons.inj both
      have fine' : rest'.head? ≠ some .lone := by
        cases rest' with
        | nil => nofun
        | cons x _ => exact fine
      have few := beside.few
      rw [shape', List.length_cons] at few
      have similar := beside.similar
      refine .inr ⟨s'.past c, take?_of_cons shape' fine', ⟨?_, ?_, ?_⟩, Nat.zero_lt_of_lt few⟩
      · simp [Reading.past, shape, shape']
      · simp only [Reading.past, shape', List.tail_cons]
        omega
      · exact (similar_past s c).trans (similar.trans (similar_past s' c).symm)

def Reading.next? (p : Char → Bool) (s : Reading) : Option Char :=
  match s.rest with
  | .plain c :: _ => if p c then some c else none
  | _ => none

theorem Beside.next? {n : Nat} {s s' : Reading} (beside : Beside n s s') (p : Char → Bool) :
    s.next? p = s'.next? p := by
  rw [Reading.next?, Reading.next?, beside.rest]
  cases s'.rest with
  | nil => rfl
  | cons c _ => cases c <;> rfl

def takeOne? (p : Char → Bool) : Reader (Option Char) := do
  match (← get).next? p with
  | some c =>
    discard take?
    return some c
  | none => return none

theorem takeIf_eq (c : Char) : takeIf c = Option.isSome <$> takeOne? (· == c) := by
  funext s
  rw [takeIf, nextIs_bind, takeOne?, map_bind, get_bind, Reading.next?]
  cases s.rest with
  | nil => rfl
  | cons t _ =>
    cases t with
    | plain x => by_cases same : x = c <;> simp [same]
    | escaped x => rfl
    | lone => rfl

/-- A character is taken just if it comes next, and otherwise nothing changes. -/
theorem takeIf_ok {c : Char} {s t : Reading} {b : Bool} : takeIf c s = .ok (b, t) ↔
    (b = true ∧ s.rest.head? = some (.plain c) ∧ ∃ r, take? s = .ok (r, t)) ∨
      (b = false ∧ s.rest.head? ≠ some (.plain c) ∧ t = s) := by
  rw [takeIf, nextIs_bind]
  by_cases first : s.rest.head? = some (.plain c)
  · have eq : (discard take? >>= fun _ => pure true : Reader Bool) = take? >>= fun _ => pure true := by
      change ((take? >>= fun _ => pure ()) >>= fun _ => pure true) = _
      rw [bind_assoc]
      rfl
    rw [if_pos (by simpa using first), eq]
    constructor
    · intro read
      obtain ⟨r, u, got, same⟩ := ok_of_bind read
      cases same
      exact .inl ⟨rfl, first, r, got⟩
    · rintro (⟨rfl, _, r, got⟩ | ⟨_, other, _⟩)
      · exact bind_of_ok got
      · contradiction
  · rw [if_neg (by simpa using first)]
    constructor
    · intro read
      cases read
      exact .inr ⟨rfl, first, rfl⟩
    · rintro (⟨_, other, _⟩ | ⟨rfl, _, rfl⟩)
      · contradiction
      · rfl

theorem takeWhile_succ (p : Char → Bool) (k : Nat) : takeWhile p (k + 1) = (do
    match ← takeOne? p with
    | some c => return c :: (← takeWhile p k)
    | none => return []) := by
  funext s
  rw [takeWhile, peek?_bind, takeOne?, bind_assoc, get_bind, Reading.next?]
  cases s.rest with
  | nil => rfl
  | cons t _ =>
    cases t with
    | plain x => by_cases member : p x = true <;> simp [member]
    | escaped x => rfl
    | lone => rfl

theorem takeOne?_bind (p : Char → Bool) (f : Option Char → Reader α) (s : Reading) :
    (takeOne? p >>= f) s =
      match s.next? p with
      | some c => (take? >>= fun _ => f (some c)) s
      | none => f none s := by
  rw [takeOne?, bind_assoc, get_bind]
  cases s.next? p with
  | none => rfl
  | some c =>
    change (((take? >>= fun _ => pure ()) >>= fun _ => pure (some c)) >>= f) s = _
    rw [bind_assoc, bind_assoc]
    rfl

theorem takeWhile_none {p : Char → Bool} (k : Nat) {s : Reading} (none_ : s.next? p = none) :
    takeWhile p k s = .ok ([], s) := by
  cases k with
  | zero => rfl
  | succ k =>
    rw [takeWhile_succ, takeOne?_bind, none_]
    rfl

namespace NeedsMore

theorem failed {x : Reader α} (failed : Fails x) : NeedsMore x := fun s r _ => failed s r

theorem skip {x : Reader α} {f : α → Reader β} (steady : Steady x) (next : ∀ v, NeedsMore (f v)) :
    NeedsMore (x >>= f) := by
  intro s r ended read
  obtain ⟨v, t, got, read⟩ := ok_of_bind read
  exact next v t r (steady.ended got ended) read

theorem bind {x : Reader α} {f : α → Reader β} (more : NeedsMore x) : NeedsMore (x >>= f) := by
  intro s r ended read
  obtain ⟨v, t, got, _⟩ := ok_of_bind read
  exact more s _ ended got

theorem take {f : Option Token → Reader α} (next : NeedsMore (f none)) : NeedsMore (take? >>= f) := by
  intro s r ended read
  obtain ⟨v, t, got, later⟩ := ok_of_bind read
  rcases take?_ok got with ⟨rfl, _, rfl⟩ | ⟨c, rest, _, shape, _⟩
  · exact next t r ended later
  · rw [ended] at shape
    contradiction

theorem nextIs {c : Char} {f : Bool → Reader α} (next : NeedsMore (f false)) :
    NeedsMore (nextIs c >>= f) := by
  intro s r ended read
  rw [nextIs_bind, ended] at read
  exact next s r ended read

theorem takeIf {c : Char} {f : Bool → Reader α} (next : NeedsMore (f false)) :
    NeedsMore (takeIf c >>= f) := by
  intro s r ended read
  have none_ : s.next? (· == c) = none := by rw [Reading.next?, ended]
  rw [takeIf_eq, map_eq_pure_bind, bind_assoc, takeOne?_bind, none_] at read
  exact next s r ended read

end NeedsMore

namespace Follows

variable {beyond : Prop} {n : Nat}

theorem take {f g : Option Token → Reader α} (none_ : Steady (f none))
    (next : ∀ c, Follows beyond (n - 1) (f (some c)) (g (some c)))
    (last : beyond ∨ NeedsMore (f (some (.escaped 'b')))) : Follows beyond n (take? >>= f)
      (take? >>= g) := by
  constructor
  · intro s v u read
    refine steady_take?.bind (fun r => ?_) s v u read
    cases r with
    | none => exact none_
    | some c => exact (next c).steady
  · intro s s' beside v u read
    obtain ⟨r, t, got, read⟩ := ok_of_bind read
    obtain ⟨c, rest, rfl, _, ⟨rfl, _, ended⟩ | ⟨t', got', beside', _⟩⟩ := beside.take? got
    · rcases last with may | fails
      · exact .inl ⟨may, (next _).steady.ended read ended⟩
      · exact absurd read (fails _ _ ended)
    · rw [bind_of_ok got']
      exact (next c).reads_of_le (Nat.sub_le n 1) beside' read

theorem nextIs (c : Char) : Follows beyond n (nextIs c) (nextIs c) := by
  constructor
  · intro s v t read
    cases read
    exact ⟨List.suffix_refl _, rfl⟩
  · intro s s' beside v t read
    cases read
    refine .inr ⟨s', ?_, beside⟩
    have same : (s.rest.head? == some (.plain c)) = (s'.rest.head? == some (.plain c)) := by
      rw [Bool.eq_iff_iff, beq_iff_eq, beq_iff_eq, beside.head?]
    rw [same]
    rfl

theorem takeOne? (p : Char → Bool) {f g : Option Char → Reader α}
    (none_ : Follows beyond n (f none) (g none))
    (next : ∀ c, Follows beyond (n - 1) (f (some c)) (g (some c))) :
    Follows beyond n (takeOne? p >>= f) (takeOne? p >>= g) := by
  constructor
  · intro s v u read
    rw [takeOne?_bind] at read
    split at read
    · next c _ => exact steady_take?.bind (fun _ => (next c).steady) s v u read
    · exact none_.steady s v u read
  · intro s s' beside v u read
    rw [takeOne?_bind] at read
    rw [takeOne?_bind, ← beside.next?]
    cases found : s.next? p with
    | none =>
      rw [found] at read
      exact none_.reads s s' beside v u read
    | some c =>
      rw [found] at read
      obtain ⟨r, t, got, read⟩ := ok_of_bind read
      obtain ⟨x, rest, rfl, shape, ⟨rfl, _, _⟩ | ⟨t', got', beside', _⟩⟩ := beside.take? got
      · rw [Reading.next?, shape] at found
        contradiction
      · dsimp only
        rw [bind_of_ok got']
        exact (next c).reads_of_le (Nat.sub_le n 1) beside' read

theorem takeIf_bind {c : Char} {f g : Bool → Reader α} (no : Follows beyond n (f false) (g false))
    (yes : Follows beyond (n - 1) (f true) (g true)) :
    Follows beyond n (Regex.takeIf c >>= f) (Regex.takeIf c >>= g) := by
  rw [takeIf_eq, map_eq_pure_bind, bind_assoc, bind_assoc]
  exact takeOne? _ no fun _ => yes

theorem takeIf (c : Char) : Follows beyond n (takeIf c) (takeIf c) := by
  rw [takeIf_eq, map_eq_pure_bind]
  exact takeOne? _ (done _) fun _ => done _

theorem takeWhile (p : Char → Bool) (k : Nat) :
    Follows beyond n (takeWhile p k) (takeWhile p k) := by
  induction k generalizing n with
  | zero => exact done _
  | succ k ih =>
    rw [takeWhile_succ]
    exact takeOne? p (done _) fun c => ih.bind fun cs => done _

/-- Two limits give the same characters of a class if both are enough for those that can come next. -/
theorem takeWhile_of_le (p : Char → Bool) {k k' : Nat} (enough : n ≤ k + 1) (enough' : n ≤ k' + 1) :
    Follows beyond n (Regex.takeWhile p k) (Regex.takeWhile p k') := by
  induction k generalizing k' n with
  | zero =>
    have same : Follows beyond n (Regex.takeWhile p 0) (Regex.takeWhile p 0) := takeWhile p 0
    refine ⟨same.steady, fun s s' beside v t read => ?_⟩
    have few := beside.few
    have ended : s'.rest = [] := List.eq_nil_of_length_eq_zero (by omega)
    cases read
    exact .inr ⟨s', by rw [takeWhile_none _ (by rw [Reading.next?, ended])], beside⟩
  | succ k ih =>
    cases k' with
    | zero =>
      have same : Follows beyond n (Regex.takeWhile p (k + 1)) (Regex.takeWhile p (k + 1)) :=
        takeWhile p (k + 1)
      refine ⟨same.steady, fun s s' beside v t read => ?_⟩
      have few := beside.few
      have ended : s'.rest = [] := List.eq_nil_of_length_eq_zero (by omega)
      have none_ : s.next? p = none := by rw [beside.next?, Reading.next?, ended]
      rw [takeWhile_none _ none_] at read
      cases read
      exact .inr ⟨s', rfl, beside⟩
    | succ k' =>
      rw [takeWhile_succ, takeWhile_succ]
      exact takeOne? p (done _) fun c => (ih (by omega) (by omega)).bind fun cs => done _

end Follows

end Colloquy.Regex
