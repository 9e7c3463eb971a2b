import Colloquy.Proofs.Regex.Followed
import Colloquy.Proofs.Regex.Scan
import Colloquy.Proofs.Regex.Sequence

/-! An expression that has been put between word edges. It is read as it is alone, but the first of its
alternatives begins with a word edge, and the last ends with one. -/

namespace Colloquy.Regex

open Text

variable {beyond : Prop} {n : Nat} {α β : Type}

/-- What is read of the symbols of an expression with `steps` to go, each part of the grammar with as
many steps as the symbols that can come next ask for. -/
structure Grammar (steps : Nat) : Prop where
  branches : ∀ n steps' leading, 4 * n ≤ steps' + 2 →
    Follows True n (readBranches steps false) (readBranches steps' leading)
  parts : ∀ n steps' leading parts, 4 * n ≤ steps' + 3 →
    Follows True n (readParts steps false parts) (readParts steps' leading parts)
  group : ∀ n steps' leading start start' parts, 4 * n ≤ steps' →
    Follows False n (readGroup steps false start parts) (readGroup steps' leading start' parts)
  inside : ∀ n steps' start start', 4 * n ≤ steps' + 1 →
    Follows False n (readInside steps start) (readInside steps' start')

/-- A symbol is read the same before a word edge, given the grammar for what is inside groups. -/
theorem follows_readSymbol {steps : Nat} (grammar : Grammar steps) {steps' : Nat} (leading : Bool)
    (flags : Flags) {length length' : Nat} (start start' : Nat) (parts : List Part) (t : Token)
    (enough : 4 * n ≤ steps') (less : n ≤ length) (less' : n ≤ length') :
    Follows (flags.verbose = true) n (readSymbol steps false flags length start parts t)
      (readSymbol steps' leading flags length' start' parts t) := by
  have weaken {x y : Reader (List Part)} (follows : Follows False n x y) :
      Follows (flags.verbose = true) n x y := follows.weaken False.elim
  cases t with
  | escaped c => exact .bind (follows_readEscape _ _ _) fun _ => .done _
  | lone => exact .failed .fail
  | plain c =>
    refine .ite (fun _ => .done _) fun _ => .ite (fun comment => ?_) fun _ => ?_
    · have verbose : flags.verbose = true := (Bool.and_eq_true_iff.mp comment).1
      exact .bind ((follows_skipLine _ less less').weaken fun _ => verbose) fun _ => .done _
    · refine weaken ?_
      split
      · refine .bind (grammar.group n steps' leading start start' parts enough) fun group => ?_
        cases group <;> exact .done _
      · exact .bind (follows_readSet _ _) fun _ => .done _
      · exact .done _
      · exact .done _
      · exact .done _
      · exact follows_readRepetition _ _ _ _ _
      · exact follows_readRepetition _ _ _ _ _
      · exact follows_readRepetition _ _ _ _ _
      · refine .bind follows_readRange fun range => ?_
        cases range with
        | none => exact .done _
        | some range => exact follows_readRepetition _ _ _ _ _
      · exact .done _

theorem Grammar.zero : Grammar 0 where
  branches := fun _ _ _ _ => .failed .fail
  parts := fun _ _ _ _ _ => .failed .fail
  group := fun _ _ _ _ _ _ _ => .failed .fail
  inside := fun _ _ _ _ _ => .failed .failAt

/-- The parts of a sequence are read the same before a word edge, which may be the last of them. -/
theorem follows_readParts {steps : Nat} (grammar : Grammar steps) {steps' : Nat} (leading : Bool)
    (parts : List Part) (enough : 4 * n ≤ steps' + 3) :
    Follows True n (readParts (steps + 1) false parts) (readParts steps' leading parts) := by
  refine .steps (fun k => readParts k leading parts) (by omega) fun k m bound => ?_
  rw [readParts, readParts]
  refine .here fun start start' => .state fun s s' m' similar less length length' => ?_
  refine .bind (.nextIs _) fun bar => .ite (fun _ => .done _) fun _ => ?_
  refine .bind (.nextIs _) fun closing => .ite (fun _ => .done _) fun _ => ?_
  refine .take (.done _) (fun t => ?_) (.inl trivial)
  rw [similar.flags]
  have symbol := follows_readSymbol grammar leading s'.flags start start' parts t
    (by omega : 4 * (m' - 1) ≤ k) (by omega : m' - 1 ≤ s.rest.length)
    (by omega : m' - 1 ≤ s'.rest.length)
  refine .bind (symbol.weaken fun _ => trivial) fun parts => ?_
  exact grammar.parts _ _ _ _ (by omega)

theorem follows_readBranches {steps : Nat} (grammar : Grammar steps) {steps' : Nat} (leading : Bool)
    (enough : 4 * n ≤ steps' + 2) :
    Follows True n (readBranches (steps + 1) false) (readBranches steps' leading) := by
  refine .steps (fun k => readBranches k leading) (by omega) fun k m bound => ?_
  rw [readBranches, readBranches, readSequence_eq, readSequence_eq]
  simp only [map_eq_pure_bind]
  refine .bind (.bind (grammar.parts _ _ _ _ (by omega)) fun _ => .done _) fun first => ?_
  refine .takeIf_bind (.done _) (.bind (grammar.branches _ _ _ (by omega)) fun _ => .done _)

theorem follows_readInside {steps : Nat} (grammar : Grammar steps) {steps' : Nat} (start start' : Nat)
    (enough : 4 * n ≤ steps' + 1) :
    Follows False n (readInside (steps + 1) start) (readInside steps' start') := by
  refine .steps (fun k => readInside k start') (by omega) fun k m bound => ?_
  rw [readInside, readInside]
  have branches (m' : Nat) (less : m' ≤ m) :
      Follows True m' (readBranches steps false) (readBranches k false) :=
    grammar.branches _ _ _ (by omega)
  refine .close (follows_deeper branches) (fun body => ?_) fun body => ?_
  · exact .bind (follows_closeGroup _ _) fun _ => .done _
  · exact .bind (closeGroup_needsMore start)

/-- The end of a look at the text around, after what is looked for. -/
def closeLook (start : Nat) (behind negated : Bool) (outer : Option Nat) (body : Regex) :
    Reader (Option Regex) := do
  if behind then modify fun s => { s with behindFrom := outer }
  closeGroup start
  return some (← lookPart behind negated body)

def closeChoice (start : Nat) (r : Regex) : Reader (Option Regex) := do
  if ← nextIs '|' then fail .thirdBranch
  closeGroup start
  return some r

theorem follows_putBehind {b b' : Option Nat} (same : b = b') :
    Follows beyond n (modify fun s => { s with behindFrom := b } : Reader Unit)
      (modify fun s => { s with behindFrom := b' } : Reader Unit) :=
  .modify (fun _ => rfl) (fun _ => rfl) (fun _ => rfl) fun _ _ similar =>
    { similar with behindFrom := same }

theorem follows_closeLook (start start' : Nat) (behind negated : Bool) (outer : Option Nat)
    (body : Regex) : Follows beyond n (closeLook start behind negated outer body)
      (closeLook start' behind negated outer body) := by
  have closing : Follows beyond n (do closeGroup start; return some (← lookPart behind negated body))
      (do closeGroup start'; return some (← lookPart behind negated body)) :=
    .bind (follows_closeGroup _ _) fun _ => .bind (follows_lookPart _ _ _) fun _ => .done _
  exact .ite (fun _ => .bind (follows_putBehind rfl) fun _ => closing) fun _ => closing

theorem closeLook_needsMore (start : Nat) (behind negated : Bool) (outer : Option Nat)
    (body : Regex) : NeedsMore (closeLook start behind negated outer body) := by
  have closing : NeedsMore (do closeGroup start; return some (← lookPart behind negated body)) :=
    .bind (closeGroup_needsMore start)
  rw [closeLook]
  split
  · have put : Follows False 0 (modify fun s => { s with behindFrom := outer } : Reader Unit)
        (modify fun s => { s with behindFrom := outer } : Reader Unit) := follows_putBehind rfl
    exact .skip put.steady fun _ => closing
  · exact closing

theorem follows_closeChoice (start start' : Nat) (r : Regex) :
    Follows beyond n (closeChoice start r) (closeChoice start' r) := by
  refine .bind (.nextIs _) fun third => .check .fail fun _ => ?_
  exact .bind (follows_closeGroup _ _) fun _ => .done _

theorem closeChoice_needsMore (start : Nat) (r : Regex) : NeedsMore (closeChoice start r) :=
  .nextIs (.bind (closeGroup_needsMore start))

/-- A group is read the same before a word edge: its end comes before the edge. -/
theorem follows_readGroup {steps : Nat} (grammar : Grammar steps) {steps' : Nat} (leading : Bool)
    (start start' : Nat) (parts : List Part) (enough : 4 * n ≤ steps') :
    Follows False n (readGroup (steps + 1) false start parts)
      (readGroup steps' leading start' parts) := by
  refine .steps (fun k => readGroup k leading start' parts) (by omega) fun k m bound => ?_
  rw [readGroup, readGroup]
  refine .bind (follows_readOpening _ _ _) fun opening => ?_
  have inside : Follows False m (readInside steps start) (readInside k start') :=
    grammar.inside _ _ _ _ (by omega)
  rcases opening with r | _ | name | _ | ⟨on, off⟩ | _ | ⟨behind, negated⟩ | index
  · exact .done _
  · exact .done _
  · refine .bind (follows_openGroup _) fun index => .bind inside fun body => ?_
    refine .bind (.modify (fun _ => rfl) (fun _ => rfl) (fun _ => rfl) ?_) fun _ => .done _
    intro s s' similar
    exact { similar with widths := by simp [similar.widths] }
  · exact .bind inside fun body => .done _
  · exact .bind (follows_withFlags _ inside) fun body => .done _
  · exact .bind inside fun body => .done _
  · refine .state fun s s' m' similar less _ _ => ?_
    have body : Follows False m'
        (deeper (readBranches steps false) >>= closeLook start behind negated s.behindFrom)
        (deeper (readBranches k false) >>= closeLook start' behind negated s'.behindFrom) := by
      rw [similar.behindFrom]
      refine .close (follows_deeper fun m'' less' => ?_) (fun _ => follows_closeLook _ _ _ _ _ _)
        fun _ => closeLook_needsMore _ _ _ _ _
      exact grammar.branches _ _ _ (by omega)
    rw [similar.behindFrom] at body ⊢
    refine .ite (fun _ => ?_) fun _ => body
    refine .bind (.modify (fun _ => rfl) (fun _ => rfl) (fun _ => rfl) ?_) fun _ => body
    intro s s' similar
    exact { similar with behindFrom := by simp [similar.groups] }
  · have sequence (m' : Nat) (less : m' ≤ m) :
        Follows True m' (readSequence steps false []) (readSequence k false []) := by
      rw [readSequence_eq, readSequence_eq, map_eq_pure_bind, map_eq_pure_bind]
      exact .bind (grammar.parts _ _ _ _ (by omega)) fun _ => .done _
    refine .close (sequence m (Nat.le_refl m)) (fun present => .bind (.takeIf _) fun more => ?_)
      fun present => .takeIf (closeChoice_needsMore _ _)
    refine .ite (fun _ => ?_) fun _ => .bind (.done _) fun absent => follows_closeChoice _ _ _
    exact .close (sequence m (Nat.le_refl m)) (fun absent => follows_closeChoice _ _ _)
      fun absent => closeChoice_needsMore _ _

/-- The whole grammar is read the same before a word edge. By induction on the steps. -/
theorem grammar (steps : Nat) : Grammar steps := by
  induction steps with
  | zero => exact .zero
  | succ steps ih =>
    constructor
    · exact fun n steps' leading enough => follows_readBranches ih leading enough
    · exact fun n steps' leading parts enough => follows_readParts ih leading parts enough
    · exact fun n steps' leading start start' parts enough =>
        follows_readGroup ih leading start start' parts enough
    · exact fun n steps' start start' enough => follows_readInside ih start start' enough

/-! Where the word edges end up. -/

def withLast (p : Part) : List (List Part) → List (List Part)
  | [] => []
  | [b] => [b ++ [p]]
  | b :: rest => b :: withLast p rest

def withFirst (p : Part) : List (List Part) → List (List Part)
  | [] => []
  | b :: rest => (p :: b) :: rest

/-- Alternatives with a word edge before the first one and one after the last. -/
def framed (bs : List (List Part)) : List (List Part) :=
  withFirst (.place (.edge false)) (withLast (.place (.edge false)) bs)

variable {steps : Nat} {parts ps : List Part} {s s' t : Reading}

/-- A word edge that nothing comes after is the last part. -/
theorem readParts_edge (last : s.rest = [.escaped 'b'])
    (read : readParts steps false parts s = .ok (ps, t)) :
    ps = parts.reverse ++ [.place (.edge s.flags.ascii)] ∧ t = s.past (.escaped 'b') := by
  cases steps with
  | zero => exact absurd read (Fails.fail s _)
  | succ steps =>
    rw [readParts_symbol last nofun nofun] at read
    obtain ⟨_, t₁, taken, read⟩ := ok_of_bind read
    obtain ⟨_, taken⟩ := discard_ok.mp taken
    rw [take?_of_cons last nofun] at taken
    cases taken
    have ended : (s.past (.escaped 'b')).rest = [] := by rw [Reading.past, last]; rfl
    obtain ⟨_, _, symbol, read⟩ := ok_of_bind read
    cases symbol
    cases steps with
    | zero => exact absurd read (Fails.fail _ _)
    | succ steps =>
      rw [readParts_nil ended] at read
      cases read
      exact ⟨by simp; rfl, rfl⟩

/-- A symbol before the word edge is read in both. -/
theorem readSymbol_beside {c : Token} {rest : List Token} {r : Option Token} {k : Nat} {t₁ t₂ : Reading}
    (leading : Bool) (beside : Beside n s s') (shape' : s'.rest = c :: rest)
    (enough : 4 * s'.rest.length ≤ k) (solid : s.flags.verbose = false)
    (taken : take? s = .ok (r, t₁))
    (read : readSymbol steps false s.flags s.rest.length s.place parts c t₁ = .ok (ps, t₂)) :
    ∃ t₁' t₂', (discard take? : Reader Unit) s' = .ok ((), t₁') ∧
      readSymbol k leading s'.flags s'.rest.length s'.place parts c t₁' = .ok (ps, t₂') ∧
      Beside s'.rest.length t₂ t₂' ∧ t₂.flags = s.flags := by
  have exact_ : Beside (s'.rest.length + 1) s s' :=
    ⟨beside.rest, Nat.lt_succ_self _, beside.similar⟩
  have follows : Follows (s.flags.verbose = true) s'.rest.length _ _ :=
    follows_readSymbol (grammar steps) leading s.flags s.place s'.place parts c enough
      (by simp [beside.rest] : s'.rest.length ≤ s.rest.length) (Nat.le_refl _)
  have flags : t₂.flags = s.flags :=
    (follows.steady t₁ ps t₂ read).2.trans (steady_take? s _ t₁ taken).2
  obtain ⟨x, _, rfl, shape, ⟨_, none_, _⟩ | ⟨t₁', taken', beside₁, _⟩⟩ := exact_.take? taken
  · rw [none_] at shape'
    contradiction
  · have discarded : (discard take? : Reader Unit) s' = .ok ((), t₁') := discard_ok.mpr ⟨_, taken'⟩
    rcases follows.reads t₁ t₁' beside₁ ps t₂ read with ⟨verbose, _⟩ | ⟨t₂', read', beside₂⟩
    · rw [solid] at verbose
      contradiction
    · rw [beside.similar.flags] at read'
      exact ⟨t₁', t₂', discarded, read', beside₂, flags⟩

/-- The word edge at the end of a text is read only as the last part of its last sequence. There only the
edge is left, and the other text is at its end. -/
theorem readParts_beside (steps' : Nat) (leading : Bool) (beside : Beside n s s')
    (enough : 4 * n ≤ steps' + 3) (solid : s.flags.verbose = false)
    (read : readParts steps false parts s = .ok (ps, t)) :
    (∃ t', readParts steps' leading parts s' = .ok (ps, t') ∧ Beside n t t' ∧ t.flags = s.flags) ∨
      t.rest = [] ∧ ∃ ps' t', ps = ps' ++ [.place (.edge s.flags.ascii)] ∧
        readParts steps' leading parts s' = .ok (ps', t') ∧ t'.rest = [] ∧ Similar t t' := by
  induction steps generalizing n steps' parts s s' with
  | zero => exact absurd read (Fails.fail s _)
  | succ steps ih =>
    have few := beside.few
    obtain ⟨k, rfl⟩ : ∃ k, steps' = k + 1 := ⟨steps' - 1, by omega⟩
    have both := beside.rest
    cases shape' : s'.rest with
    | nil =>
      rw [shape', List.nil_append] at both
      obtain ⟨rfl, rfl⟩ := readParts_edge both read
      have ended : (s.past (.escaped 'b')).rest = [] := by rw [Reading.past, both]; rfl
      exact .inr ⟨ended, parts.reverse, s', rfl, readParts_nil shape', shape',
        (similar_past s _).trans beside.similar⟩
    | cons c rest =>
      rw [shape', List.cons_append] at both
      by_cases ends : c = .plain '|' ∨ c = .plain ')'
      · obtain ⟨x, sign, rfl⟩ : ∃ x, (x = '|' ∨ x = ')') ∧ c = .plain x := by
          rcases ends with rfl | rfl
          · exact ⟨'|', .inl rfl, rfl⟩
          · exact ⟨')', .inr rfl, rfl⟩
        rw [readParts_end sign both] at read
        cases read
        exact .inl ⟨s', readParts_end sign shape', beside, rfl⟩
      · obtain ⟨bar, closing⟩ := not_or.mp ends
        rw [readParts_symbol both bar closing] at read
        rw [readParts_symbol shape' bar closing]
        obtain ⟨_, t₁, taken, read⟩ := ok_of_bind read
        obtain ⟨_, taken⟩ := discard_ok.mp taken
        obtain ⟨ps₁, t₂, symbol, read⟩ := ok_of_bind read
        obtain ⟨t₁', t₂', taken', symbol', beside₂, flags⟩ :=
          readSymbol_beside leading beside shape' (by omega : 4 * s'.rest.length ≤ k) solid taken symbol
        rw [bind_of_ok taken', bind_of_ok symbol', ← flags]
        refine (ih k beside₂ (by omega) (flags ▸ solid) read).imp_left ?_
        rintro ⟨t', read', beside', same⟩
        exact ⟨t', read', beside'.mono (Nat.le_of_lt few), same⟩

theorem withLast_cons {p : Part} {b : List Part} {rest : List (List Part)} (others : rest ≠ []) :
    withLast p (b :: rest) = b :: withLast p rest := by
  rw [withLast]
  exact others

/-- A sign that is taken before the word edge is taken in both. -/
theorem Beside.takeIf {c : Char} (beside : Beside n s s') (read : takeIf c s = .ok (true, t)) :
    (∃ t', Regex.takeIf c s' = .ok (true, t') ∧ Beside (n - 1) t t' ∧ 0 < n) ∧
      t.flags = s.flags := by
  obtain ⟨_, sign, r, taken⟩ | ⟨never, _, _⟩ := takeIf_ok.mp read
  · refine ⟨?_, (steady_take? s r t taken).2⟩
    obtain ⟨x, _, rfl, shape, ⟨rfl, _, _⟩ | ⟨t', taken', beside', some_⟩⟩ := beside.take? taken
    · simp [shape] at sign
    · exact ⟨t', takeIf_ok.mpr (.inl ⟨rfl, (beside.head? c).mp sign, _, taken'⟩), beside', some_⟩
  · contradiction

/-- Alternatives with a word edge after them are those without it, the edge being the last part of the
last one: those before it are the same in both texts. -/
theorem readAlternatives_beside {k j : Nat} {bs : List (List Part)} (steps' : Nat) (leading : Bool)
    (beside : Beside n s s') (enough : 4 * n ≤ steps' + 2) (solid : s.flags.verbose = false)
    (wide : s.flags.ascii = false)
    (read : (readParts k false [] >>= readOthers j) s = .ok (bs, t)) (ended : t.rest = []) :
    ∃ bs' t', readAlternatives steps' leading s' = .ok (bs', t') ∧ t'.rest = [] ∧ Similar t t' ∧
      bs' ≠ [] ∧ bs = withLast (.place (.edge false)) bs' := by
  induction j using Nat.strongRecOn generalizing n steps' leading k s s' bs with
  | ind j ih =>
    obtain ⟨m, rfl⟩ : ∃ m, steps' = m + 1 := ⟨steps' - 1, by have := beside.few; omega⟩
    rw [readAlternatives_succ]
    obtain ⟨first, t₁, got, later⟩ := ok_of_bind read
    obtain ⟨more, t₂, next, last⟩ := ok_of_bind later
    rcases readParts_beside m leading beside (by omega) solid got with
      ⟨t₁', got', beside₁, flags⟩ | ⟨ended₁, ps, t₁', rfl, got', ended₁', similar⟩
    · rw [bind_of_ok got']
      cases more with
      | true =>
        obtain ⟨⟨t₂', next', beside₂, some_⟩, taken⟩ := beside₁.takeIf next
        have flags₂ := taken.trans flags
        obtain ⟨rest, u, others, same⟩ := ok_of_bind last
        cases same
        cases j with
        | zero => exact absurd others (Fails.fail _ _)
        | succ j =>
          obtain ⟨rest', t', others', ended', similar', some_', rfl⟩ :=
            ih j (Nat.lt_succ_self j) m false beside₂ (by omega) (flags₂ ▸ solid) (flags₂ ▸ wide)
              others
          refine ⟨first :: rest', t', ?_, ended', similar', List.cons_ne_nil _ _, ?_⟩
          · rw [readOthers, bind_of_ok next', if_pos rfl, bind_of_ok others']
            rfl
          · rw [withLast_cons some_']
      | false =>
        obtain ⟨never, _⟩ | ⟨_, _, rfl⟩ := takeIf_ok.mp next
        · contradiction
        · cases last
          rw [beside₁.rest] at ended
          simp at ended
    · have none_ : t₁'.rest.head? ≠ some (.plain '|') := by rw [ended₁']; nofun
      have next' : takeIf '|' t₁' = .ok (false, t₁') := takeIf_ok.mpr (.inr ⟨rfl, none_, rfl⟩)
      rcases takeIf_ok.mp next with ⟨_, bar, _⟩ | ⟨rfl, _, rfl⟩
      · rw [ended₁] at bar
        contradiction
      · cases last
        rw [bind_of_ok got', readOthers, bind_of_ok next']
        exact ⟨[ps], t₁', rfl, ended₁', similar, List.cons_ne_nil _ _, by rw [wide]; rfl⟩

theorem readOthers_cons (k : Nat) (p : Part) (first : List Part) :
    readOthers k (p :: first) = withFirst p <$> readOthers k first := by
  simp only [readOthers, map_bind]
  refine bind_congr fun more => ?_
  split
  · simp only [map_bind, map_pure, withFirst]
  · rfl

theorem map_ok {α β : Type} {f : α → β} {x : Reader α} {v : β} :
    (f <$> x) s = .ok (v, t) ↔ ∃ u, x s = .ok (u, t) ∧ v = f u := by
  rw [map_eq_pure_bind]
  constructor
  · intro read
    obtain ⟨u, t', got, same⟩ := ok_of_bind read
    cases same
    exact ⟨u, got, rfl⟩
  · rintro ⟨u, got, rfl⟩
    exact bind_of_ok got

/-- What is read after a word edge at the start of a text. -/
theorem readAlternatives_edge {k : Nat} {ts : List Token} {bs : List (List Part)}
    (shape : s.rest = .escaped 'b' :: ts) (wide : s.flags.ascii = false)
    (read : readAlternatives (k + 2) true s = .ok (bs, t)) : ∃ bs',
      (readParts k false [] >>= readOthers (k + 1)) (s.past (.escaped 'b')) = .ok (bs', t) ∧
        bs = withFirst (.place (.edge false)) bs' := by
  rw [readAlternatives_succ] at read
  obtain ⟨first, t₁, parts, others⟩ := ok_of_bind read
  rw [readParts_symbol shape nofun nofun] at parts
  obtain ⟨_, t₂, taken, later⟩ := ok_of_bind parts
  obtain ⟨_, taken⟩ := discard_ok.mp taken
  have past : t₂ = s.past (.escaped 'b') := by
    rcases take?_ok taken with ⟨_, ended, _⟩ | ⟨c, rest, _, same, _, past⟩
    · rw [shape] at ended
      contradiction
    · rw [shape] at same
      rw [past, (List.cons.inj same).1]
  obtain ⟨ps, t₃, symbol, later⟩ := ok_of_bind later
  cases symbol
  have edge : [Part.place (.edge t₂.flags.ascii)] = [] ++ [.place (.edge false)] := by
    rw [past, Reading.past, wide]
    rfl
  rw [edge, readParts_after, map_ok] at later
  obtain ⟨rest, got, rfl⟩ := later
  rw [readOthers_cons, map_ok] at others
  obtain ⟨bs', got', rfl⟩ := others
  rw [← past, bind_of_ok got]
  exact ⟨bs', got', rfl⟩

/-- An expression that can be read between word edges can be read alone. What is between the edges has
one of them before its first alternative and one after its last. -/
theorem parse_framed {text : String} {ignoreCase : Bool} {m : Expression}
    (whole : .lone ∉ Token.scan text.toList)
    (parsed : Expression.parse ("\\b" ++ text ++ "\\b") ignoreCase = .ok m) :
    ∃ e bs, Expression.parse text ignoreCase = .ok e ∧ alternativesOf text ignoreCase = .ok bs ∧
      bs ≠ [] ∧ e.body = alternatives bs ∧ m.body = alternatives (framed bs) := by
  have scanned : Token.scan ("\\b" ++ text ++ "\\b").toList =
      .escaped 'b' :: (Token.scan text.toList ++ [.escaped 'b']) := by
    rw [String.toList_append, String.toList_append, List.append_assoc]
    change Token.scan ('\\' :: 'b' :: (text.toList ++ ['\\', 'b'])) = _
    rw [Token.scan, scan_append whole]
    rfl
  obtain ⟨t, read, _⟩ := parse_ok.mp parsed
  have enough : 4 * (Token.escaped 'b' :: (Token.scan text.toList ++ [.escaped 'b'])).length + 4 =
      4 * (Token.scan text.toList).length + 10 + 2 := by
    simp only [List.length_cons, List.length_append, List.length_nil]
    omega
  rw [scanned, enough, readWhole_ok, readBranches_eq, map_ok] at read
  obtain ⟨_, ⟨bs, got, body⟩, ended, known, tight⟩ := read
  obtain ⟨bs', got', rfl⟩ := readAlternatives_edge rfl rfl got
  have beside : Beside ((Token.scan text.toList).length + 1)
      ((Reading.start (.escaped 'b' :: (Token.scan text.toList ++ [.escaped 'b'])) ignoreCase).past
        (.escaped 'b')) (.start (Token.scan text.toList) ignoreCase) :=
    ⟨rfl, Nat.lt_succ_self _, ⟨rfl, rfl, rfl, rfl, rfl, rfl, rfl, rfl⟩⟩
  obtain ⟨bs, t', read', ended', similar, some_, rfl⟩ :=
    readAlternatives_beside (4 * (Token.scan text.toList).length + 4) true beside (by omega) rfl rfl
      got' ended
  have alone : readWhole (4 * (Token.scan text.toList).length + 4)
      (.start (Token.scan text.toList) ignoreCase) = .ok (alternatives bs, t') := by
    rw [readWhole_ok, readBranches_eq, map_ok]
    refine ⟨?_, ⟨bs, read', rfl⟩, ended', ?_, similar.loose.symm.trans tight⟩
    · exact fun first => whole (List.mem_of_mem_head? first)
    · intro c member
      have both := List.mem_map_of_mem (f := Prod.fst) member
      rw [← similar.conditions] at both
      obtain ⟨d, inside, same⟩ := List.mem_map.mp both
      rw [← same, ← similar.groups]
      exact known d inside
  refine ⟨⟨text, alternatives bs, t'.groups - 1, t'.names⟩, bs, parse_ok.mpr ⟨t', alone, rfl⟩, ?_,
    some_, rfl, body⟩
  rw [alternativesOf, bind_eq_ok]
  exact ⟨(bs, t'), read', rfl⟩

end Colloquy.Regex
