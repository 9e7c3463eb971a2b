import Colloquy.Proofs.Regex.Beside

/-! Every step of reading, without and with a word edge at the end of the text. -/

namespace Colloquy.Regex

open Text

variable {beyond : Prop} {n : Nat} {α β : Type}

/-- A loop is given enough steps: at least one if there are symbols that can come next. -/
theorem Follows.steps {x : Reader α} (y : Nat → Reader α) {k : Nat} (enough : k = 0 → n = 0)
    (later : ∀ k' m, m = 0 ∨ m = n ∧ k = k' + 1 → Follows beyond m x (y (k' + 1))) :
    Follows beyond n x (y k) := by
  cases k with
  | zero =>
    rw [enough rfl]
    refine ⟨(later 0 0 (.inl rfl)).steady, fun s s' beside => ?_⟩
    exact absurd beside.few (Nat.not_lt_zero _)
  | succ k => exact later k n (.inr ⟨rfl, rfl⟩)

/-! Names. -/

theorem takeName_needsMore (closer : Char) (k : Nat) (taken : List Char) :
    NeedsMore (takeName closer k taken) := by
  cases k with
  | zero => exact .failed .fail
  | succ k =>
    rw [takeName]
    refine .take (.failed ?_)
    dsimp only
    split
    · exact .fail
    · exact .skip fun _ => .failAt

/-- A name is read the same before a word edge, as its closing character is not part of the edge. -/
theorem follows_takeName (closer : Char) (k : Nat) {k' : Nat} (taken : List Char) (enough : n ≤ k') :
    Follows beyond n (takeName closer k taken) (takeName closer k' taken) := by
  induction k generalizing k' n taken with
  | zero => exact .failed .fail
  | succ k ih =>
    refine .steps (fun k' => takeName closer k' taken) (by omega) fun k' m bound => ?_
    rw [takeName, takeName]
    refine .take ?_ (fun c => ?_) (.inr (takeName_needsMore closer k _))
    · exact .failed (by dsimp only; split; exacts [.fail, .skip fun _ => .failAt])
    · dsimp only
      refine .ite (fun _ => .ite (fun _ => .failed (.skip fun _ => .failAt)) fun _ => .done _) ?_
      exact fun _ => ih _ (by omega)

/-! Escapes. -/

theorem follows_readCode (letter : Char) (count start start' : Nat) :
    Follows beyond n (readCode letter count start) (readCode letter count start') := by
  refine .bind (.takeWhile _ _) fun digits => ?_
  exact .check .failAt fun _ => .check .failAt fun _ => .done _

theorem follows_readLetterEscape (c : Char) (start start' : Nat) :
    Follows beyond n (readLetterEscape c start) (readLetterEscape c start') := by
  unfold readLetterEscape
  split
  · exact follows_readCode _ _ _ _
  · exact follows_readCode _ _ _ _
  · exact follows_readCode _ _ _ _
  · exact .ite (fun _ => .failed .failAt) fun _ => .done _

theorem follows_octalCode (digits : List Char) (start start' : Nat) :
    Follows beyond n (octalCode digits start) (octalCode digits start') :=
  .check .failAt fun _ => .done _

theorem follows_readSetEscape (c : Char) (start start' : Nat) :
    Follows beyond n (readSetEscape c start) (readSetEscape c start') := by
  refine .state fun s s' m similar _ _ _ => ?_
  rw [similar.flags]
  dsimp only
  split
  · exact .done _
  · exact .done _
  · refine .ite (fun _ => ?_) fun _ => .ite (fun _ => .failed .failAt) fun _ => ?_
    · exact .bind (.takeWhile _ _) fun _ => .bind (follows_octalCode _ _ _) fun _ => .done _
    · exact .bind (follows_readLetterEscape _ _ _) fun _ => .done _

theorem follows_readSetItem (t : Token) (start start' : Nat) :
    Follows beyond n (readSetItem t start) (readSetItem t start') := by
  cases t with
  | escaped c => exact follows_readSetEscape c start start'
  | plain c => exact .done _
  | lone => exact .failed .fail

/-! Sets. -/

theorem readSetItems_needsMore (start k : Nat) (items : List SetItem) :
    NeedsMore (readSetItems start k items) := by
  cases k with
  | zero => exact .failed .failAt
  | succ k =>
    rw [readSetItems]
    exact .skip steady_here fun _ => .take (.failed .failAt)

/-- The items of a set are read the same with more text after it. A word edge there may be taken for a
member, but then nothing is left to close the set. -/
theorem follows_readSetItems (start start' k : Nat) {k' : Nat} (items : List SetItem)
    (enough : n ≤ k') :
    Follows False n (readSetItems start k items) (readSetItems start' k' items) := by
  have steady (t : Token) (at_ : Nat) : Steady (readSetItem t at_) :=
    (follows_readSetItem t at_ at_ : Follows False 0 _ _).steady
  induction k generalizing k' n items with
  | zero => exact .failed .failAt
  | succ k ih =>
    refine .steps (fun k' => readSetItems start' k' items) (by omega) fun k' m bound => ?_
    rw [readSetItems, readSetItems]
    refine .here fun at₁ at₁' => .take (.failed .failAt) (fun first => ?_) (.inr ?_)
    · dsimp only
      refine .ite (fun _ => .done _) fun _ => .bind (follows_readSetItem _ _ _) fun item => ?_
      refine .bind (.takeIf _) fun hyphen => .ite (fun _ => ?_) fun _ => ih _ (by omega)
      refine .here fun at₂ at₂' => .take (.failed .failAt) (fun last => ?_) (.inr ?_)
      · dsimp only
        refine .ite (fun _ => .done _) fun _ => .bind (follows_readSetItem _ _ _) fun other => ?_
        refine .here fun at₃ at₃' => ?_
        split
        · exact .check .failAt fun _ => ih _ (by omega)
        · exact .failed .failAt
      · dsimp only
        rw [if_neg (by decide)]
        refine .skip (steady _ _) fun other => .skip steady_here fun _ => ?_
        split
        · split
          · exact .failed (.bind .failAt)
          · exact readSetItems_needsMore _ _ _
        · exact .failed .failAt
    · dsimp only
      rw [if_neg (by simp)]
      refine .skip (steady _ _) fun item => .takeIf ?_
      exact readSetItems_needsMore _ _ _

theorem follows_readSet (start start' : Nat) : Follows False n (readSet start) (readSet start') := by
  refine .bind (.takeIf _) fun negated => .state fun s s' m similar _ _ enough => ?_
  refine .bind (follows_readSetItems _ _ _ _ enough) fun items => ?_
  rw [similar.flags]
  exact .done _

/-! References and escapes. -/

theorem follows_isClosed (index : Nat) : Follows beyond n (isClosed index) (isClosed index) := by
  refine .state fun s s' m similar _ _ _ => ?_
  rw [similar.widths]
  exact .done _

theorem follows_checkBehind (index : Nat) :
    Follows beyond n (checkBehind index) (checkBehind index) := by
  refine .state fun s s' m similar _ _ _ => ?_
  rw [similar.behindFrom]
  split
  · exact .done _
  · refine .bind (follows_isClosed _) fun closed => .check .fail fun _ => ?_
    exact .ite (fun _ => .failed .fail) fun _ => .done _

theorem follows_reference (start start' : Nat) (flags : Flags) (digits : List Char) :
    Follows beyond n (readNumberEscape.reference start flags digits)
      (readNumberEscape.reference start' flags digits) := by
  refine .state fun s s' m similar _ _ _ => ?_
  rw [similar.groups]
  refine .ite (fun _ => ?_) fun _ => .failed .failAt
  refine .bind (follows_isClosed _) fun closed => .check .failAt fun _ => ?_
  exact .bind (follows_checkBehind _) fun _ => .done _

theorem follows_readNumberEscape (c : Char) (start start' : Nat) :
    Follows beyond n (readNumberEscape c start) (readNumberEscape c start') := by
  refine .state fun s s' m similar _ _ _ => ?_
  rw [similar.flags]
  dsimp only
  refine .ite (fun _ => .bind (.takeWhile _ _) fun _ => .done _) fun _ => ?_
  refine .bind (.takeWhile _ _) fun more => .ite (fun _ => ?_) fun _ => follows_reference _ _ _ _
  refine .bind (.takeWhile _ _) fun last => ?_
  split
  · exact follows_reference _ _ _ _
  · exact .bind (follows_octalCode _ _ _) fun _ => .done _

/-- Escapes are read the same before a word edge. -/
theorem follows_readEscape (c : Char) (start start' : Nat) :
    Follows beyond n (readEscape c start) (readEscape c start') := by
  refine .state fun s s' m similar _ _ _ => ?_
  rw [similar.flags]
  dsimp only
  split
  · exact .done _
  · exact .done _
  · exact .done _
  · refine .ite (fun _ => ?_) fun _ => ?_
    · exact .bind (follows_readNumberEscape _ _ _) fun _ => .done _
    · exact .bind (follows_readLetterEscape _ _ _) fun _ => .done _

/-! Repetitions. -/

theorem follows_readCount (digits : List Char) :
    Follows beyond n (readCount digits) (readCount digits) :=
  .ite (fun _ => .done _) fun _ => .check .throw fun _ => .check .throw fun _ => .done _

/-- What a step gives, with the state set back where it gives nothing. -/
def orBack (s : Reading) : Except Error (Option α × Reading) → Except Error (Option α × Reading)
  | .ok (none, _) => .ok (none, s)
  | result => result

/-- The end of a range in braces, given the digits of its counts. `back` is what is done where there is
no closing brace. -/
def readRangeEnd (start : Nat) (low high : List Char) (back : Reader Unit) :
    Reader (Option (Nat × Option Nat)) := do
  if ← takeIf '\x7d' then
    let least ← readCount low
    let most ← readCount high
    if most.any (· < least.getD 0) then failAt .emptyRange start
    return some (least.getD 0, most)
  else
    back
    return none

def readRangeOn (limit start : Nat) : Reader (Option (Nat × Option Nat)) := do
  if ← nextIs '\x7d' then return none
  let low ← takeWhile isPlainDigit limit
  let high ← if ← takeIf ',' then takeWhile isPlainDigit limit else pure low
  readRangeEnd start low high (pure ())

theorem bind_eq_orBack {x : Reader β} {f g : β → Reader (Option α)} {s t : Reading}
    (next : ∀ v u, f v u = orBack s (g v u)) : (x >>= f) t = orBack s ((x >>= g) t) := by
  cases got : x t with
  | error e =>
    simp only [Bind.bind, StateT.bind, got]
    rfl
  | ok p =>
    rw [bind_of_ok got, bind_of_ok got]
    exact next p.1 p.2

/-- A range that turns out to be none leaves the state where it was. -/
theorem readRange_eq (s : Reading) :
    readRange s = orBack s (readRangeOn s.rest.length s.place s) := by
  have ended (low high : List Char) (u : Reading) : readRangeEnd s.place low high (set s) u =
      orBack s (readRangeEnd s.place low high (pure ()) u) := by
    refine bind_eq_orBack fun brace u => ?_
    split
    · refine bind_eq_orBack fun least u => bind_eq_orBack fun most u => ?_
      dsimp only
      split <;> rfl
    · rfl
  rw [readRange, get_bind, nextIs_bind, readRangeOn, nextIs_bind]
  split
  · rfl
  · refine bind_eq_orBack fun low u => bind_eq_orBack fun comma u => ?_
    split
    · exact bind_eq_orBack fun high u => ended low high u
    · exact bind_eq_orBack fun high u => ended low high u

theorem follows_readRangeOn {limit limit' : Nat} (start start' : Nat) (enough : n ≤ limit + 1)
    (enough' : n ≤ limit' + 1) :
    Follows beyond n (readRangeOn limit start) (readRangeOn limit' start') := by
  have digits : Follows beyond n (takeWhile isPlainDigit limit) (takeWhile isPlainDigit limit') :=
    .takeWhile_of_le _ enough enough'
  have ended (low high : List Char) : Follows beyond n (readRangeEnd start low high (pure ()))
      (readRangeEnd start' low high (pure ())) := by
    refine .bind (.takeIf _) fun brace => .ite (fun _ => ?_) fun _ => .bind (.done _) fun _ => .done _
    refine .bind (follows_readCount _) fun least => .bind (follows_readCount _) fun most => ?_
    exact .check .failAt fun _ => .done _
  refine .bind (.nextIs _) fun brace => .ite (fun _ => .done _) fun _ => ?_
  refine .bind digits fun low => .bind (.takeIf _) fun comma => ?_
  exact .ite (fun _ => .bind digits (ended low)) fun _ => .bind (.done _) (ended low)

theorem orBack_ok {s t : Reading} {r : Except Error (Option α × Reading)} {v : Option α} :
    orBack s r = .ok (v, t) ↔ ∃ u, r = .ok (v, u) ∧ t = if v.isSome then u else s := by
  constructor
  · intro read
    match r, read with
    | .ok (none, u), read =>
      cases read
      exact ⟨_, rfl, rfl⟩
    | .ok (some w, u), read =>
      cases read
      exact ⟨_, rfl, rfl⟩
  · rintro ⟨u, rfl, rfl⟩
    cases v <;> rfl

theorem follows_readRange : Follows False n readRange readRange := by
  have follows {m : Nat} (s s' : Reading) (less : m ≤ s.rest.length + 1)
      (less' : m ≤ s'.rest.length + 1) : Follows False m (readRangeOn s.rest.length s.place)
        (readRangeOn s'.rest.length s'.place) := follows_readRangeOn _ _ less less'
  constructor
  · intro s v t read
    rw [readRange_eq, orBack_ok] at read
    obtain ⟨u, got, rfl⟩ := read
    split
    · exact (follows s s (Nat.zero_le _) (Nat.zero_le _)).steady s v u got
    · exact ⟨List.suffix_refl _, rfl⟩
  · intro s s' beside v t read
    rw [readRange_eq, orBack_ok] at read
    obtain ⟨u, got, rfl⟩ := read
    have here : Beside (s'.rest.length + 1) s s' :=
      ⟨beside.rest, Nat.lt_succ_self _, beside.similar⟩
    have less : s'.rest.length + 1 ≤ s.rest.length + 1 := by simp [beside.rest]
    obtain ⟨never, _⟩ | ⟨u', got', beside'⟩ :=
      (follows s s' less (Nat.le_refl _)).reads s s' here v u got
    · exact never.elim
    · refine .inr ⟨_, by rw [readRange_eq, orBack_ok]; exact ⟨u', got', rfl⟩, ?_⟩
      split
      · exact beside'.mono beside.few
      · exact beside

theorem follows_readGreed : Follows beyond n readGreed readGreed := by
  refine .bind (.takeIf _) fun lazy => .ite (fun _ => .done _) fun _ => ?_
  exact .bind (.takeIf _) fun possessive => .ite (fun _ => .done _) fun _ => .done _

/-- A repetition is read the same before a word edge. -/
theorem follows_readRepetition (start start' least : Nat) (most : Option Nat) (parts : List Part) :
    Follows beyond n (readRepetition start least most parts)
      (readRepetition start' least most parts) := by
  unfold readRepetition
  split
  · exact .bind follows_readGreed fun _ => .done _
  · exact .failed .failAt
  · exact .failed .failAt

/-! Flags. -/

theorem failFlag_fails (t : Token) (otherwise : Fault) : Fails (failFlag t otherwise : Reader α) := by
  refine .skip fun place => ?_
  split
  · exact .failAt
  · exact .failAt

theorem follows_readFlagsOn (k : Nat) {k' : Nat} (letter : Char) (on : List Char)
    (enough : n ≤ k') : Follows False n (readFlagsOn k letter on) (readFlagsOn k' letter on) := by
  induction k generalizing k' n letter on with
  | zero => exact .failed .fail
  | succ k ih =>
    refine .steps (fun k' => readFlagsOn k' letter on) (by omega) fun k' m bound => ?_
    rw [readFlagsOn, readFlagsOn]
    refine .check .fail fun _ => .check .fail fun _ => ?_
    refine .take (.failed .fail) (fun t => ?_) (.inr (.failed (failFlag_fails _ _)))
    cases t with
    | plain c =>
      refine .ite (fun _ => .done _) fun _ => .ite (fun _ => ih _ _ (by omega)) fun _ => ?_
      exact .failed (failFlag_fails _ _)
    | escaped c => exact .failed (failFlag_fails _ _)
    | lone => exact .failed (failFlag_fails _ _)

theorem follows_readFlagsOff (k : Nat) {k' : Nat} (letter : Char) (off : List Char)
    (enough : n ≤ k') :
    Follows False n (readFlagsOff k letter off) (readFlagsOff k' letter off) := by
  induction k generalizing k' n letter off with
  | zero => exact .failed .fail
  | succ k ih =>
    refine .steps (fun k' => readFlagsOff k' letter off) (by omega) fun k' m bound => ?_
    rw [readFlagsOff, readFlagsOff]
    refine .check .fail fun _ => ?_
    refine .take (.failed .fail) (fun t => ?_) (.inr (.failed (failFlag_fails _ _)))
    cases t with
    | plain c =>
      refine .ite (fun _ => .done _) fun _ => .ite (fun _ => ih _ _ (by omega)) fun _ => ?_
      exact .failed (failFlag_fails _ _)
    | escaped c => exact .failed (failFlag_fails _ _)
    | lone => exact .failed (failFlag_fails _ _)

/-- Flags in a group after those to set: what the symbol after these, which is given, says. -/
def readFlagsAfter (steps : Nat) (on : List Char) (ender : Char) : Reader FlagScope := do
  if ender = ')' then return .whole on
  if ender = ':' then return .inside on []
  match ← take? with
  | none => fail .missingFlag
  | some t =>
    match t with
    | .plain c =>
      if isFlag c then
        let off ← readFlagsOff steps c []
        if on.any off.contains then failAt .flagOnAndOff ((← here) - 1)
        return .inside on off
      else failFlag t .missingFlag
    | _ => failFlag t .missingFlag

theorem readFlags_eq (first : Char) : readFlags first = (do
    let steps := (← get).rest.length + 1
    let p ← if first = '-' then pure ([], '-') else readFlagsOn steps first []
    readFlagsAfter steps p.1 p.2) := by
  unfold readFlags
  refine bind_congr fun s => ?_
  split <;> rfl

theorem follows_readFlagsAfter {k k' : Nat} (on : List Char) (ender : Char) (enough : n ≤ k') :
    Follows False n (readFlagsAfter k on ender) (readFlagsAfter k' on ender) := by
  refine .ite (fun _ => .done _) fun _ => .ite (fun _ => .done _) fun _ => ?_
  refine .take (.failed .fail) (fun t => ?_) (.inr (.failed (failFlag_fails _ _)))
  cases t with
  | plain c =>
    refine .ite (fun _ => ?_) fun _ => .failed (failFlag_fails _ _)
    refine .bind (follows_readFlagsOff _ _ _ (by omega)) fun off => ?_
    exact .ite (fun _ => .failed (.skip fun _ => .bind .failAt)) fun _ => .done _
  | escaped c => exact .failed (failFlag_fails _ _)
  | lone => exact .failed (failFlag_fails _ _)

/-- Flags are read the same before a word edge, and never beyond it. -/
theorem follows_readFlags (first : Char) : Follows False n (readFlags first) (readFlags first) := by
  rw [readFlags_eq]
  refine .state fun s s' m similar _ _ enough => .ite (fun _ => ?_) fun _ => ?_
  · exact .bind (.done _) fun p => follows_readFlagsAfter _ _ enough
  · exact .bind (follows_readFlagsOn _ _ _ enough) fun p => follows_readFlagsAfter _ _ enough

/-! Comments. -/

theorem skipComment_needsMore (start k : Nat) : NeedsMore (skipComment start k) := by
  cases k with
  | zero => exact .failed .failAt
  | succ k =>
    rw [skipComment]
    exact .take (.failed .failAt)

theorem follows_skipComment (start start' k : Nat) {k' : Nat} (enough : n ≤ k') :
    Follows False n (skipComment start k) (skipComment start' k') := by
  induction k generalizing k' n with
  | zero => exact .failed .failAt
  | succ k ih =>
    refine .steps (fun k' => skipComment start' k') (by omega) fun k' m bound => ?_
    rw [skipComment, skipComment]
    refine .take (.failed .failAt) (fun t => ?_) (.inr (skipComment_needsMore _ _))
    exact .ite (fun _ => .done _) fun _ => ih (by omega)

theorem follows_skipLine (k : Nat) {k' : Nat} (enough : n ≤ k) (enough' : n ≤ k') :
    Follows True n (skipLine k) (skipLine k') := by
  induction k generalizing k' n with
  | zero =>
    refine ⟨Steady.done _, fun s s' beside => ?_⟩
    have few := beside.few
    omega
  | succ k ih =>
    refine .steps skipLine (by omega) fun k' m bound => ?_
    rw [skipLine, skipLine]
    refine .take (.done _) (fun t => ?_) (.inl trivial)
    exact .ite (fun _ => .done _) fun _ => ih (by omega) (by omega)

/-! Groups. -/

theorem follows_readGroupName (closer : Char) :
    Follows beyond n (readGroupName closer) (readGroupName closer) := by
  refine .state fun s s' m similar _ _ enough => .bind (follows_takeName _ _ _ enough) fun name => ?_
  exact .ite (fun _ => .done _) fun _ => .failed (.skip fun _ => .failAt)

theorem follows_groupNamed (name : String) : Follows beyond n (groupNamed name) (groupNamed name) := by
  refine .state fun s s' m similar _ _ _ => ?_
  rw [similar.names]
  split
  · exact .done _
  · exact .failed (.skip fun _ => .failAt)

theorem follows_readNamedReference : Follows beyond n readNamedReference readNamedReference := by
  refine .bind (follows_readGroupName _) fun name => .bind (follows_groupNamed _) fun index => ?_
  refine .bind (follows_isClosed _) fun closed => .ite (fun _ => ?_) fun _ => ?_
  · exact .failed (.skip fun _ => .bind .failAt)
  · refine .bind (follows_checkBehind _) fun _ => .state fun s s' m similar _ _ _ => ?_
    rw [similar.flags]
    exact .done _

theorem follows_readCondition : Follows beyond n readCondition readCondition := by
  refine .state fun s s' m similar _ _ enough => ?_
  refine .bind (follows_takeName _ _ _ enough) fun written => .here fun start start' => ?_
  have checked (index : Nat) : Follows beyond m (do checkBehind index; return index)
      (do checkBehind index; return index) := .bind (follows_checkBehind _) fun _ => .done _
  refine .ite (fun _ => .bind (follows_groupNamed _) checked) fun _ => ?_
  split
  · refine .ite (fun _ => .failed (.bind .failAt)) fun _ => ?_
    refine .bind (.modify (fun _ => rfl) (fun _ => rfl) (fun _ => rfl) ?_) fun _ => ?_
    · intro s s' similar
      exact { similar with conditions := by simp [similar.conditions] }
    · exact .bind (.done _) checked
  · exact .failed (.bind .failAt)

theorem openGroup_some (name : String) : openGroup (some name) = (do
    let s ← get
    match s.names.lookup name with
    | some earlier =>
      failAt (.repeatedName name s.groups earlier) (s.place - (name.length + 1))
    | none =>
      modify fun s => { s with groups := s.groups + 1, names := s.names ++ [(name, s.groups)] }
      return s.groups) := by
  funext s
  rw [openGroup, get_bind, get_bind]
  dsimp only
  cases s.names.lookup name <;> rfl

theorem follows_openGroup (name : Option String) :
    Follows beyond n (openGroup name) (openGroup name) := by
  cases name with
  | none =>
    have eq : openGroup none = (do
        let s ← get
        modify fun s => { s with groups := s.groups + 1 }
        return s.groups) := rfl
    rw [eq]
    refine .state fun s s' m similar _ _ _ => ?_
    rw [similar.groups]
    refine .bind (.modify (fun _ => rfl) (fun _ => rfl) (fun _ => rfl) ?_) fun _ => .done _
    intro s s' similar
    exact { similar with groups := by simp [similar.groups] }
  | some name =>
    rw [openGroup_some]
    refine .state fun s s' m similar _ _ _ => ?_
    rw [similar.names, similar.groups]
    split
    · exact .failed .failAt
    · refine .bind (.modify (fun _ => rfl) (fun _ => rfl) (fun _ => rfl) ?_) fun _ => .done _
      intro s s' similar
      exact { similar with
        groups := by simp [similar.groups]
        names := by simp [similar.groups, similar.names] }

theorem follows_deeper {x y : Reader α} (follows : ∀ m ≤ n, Follows beyond m x y) :
    Follows beyond n (deeper x) (deeper y) := by
  refine .state fun s s' m similar less _ _ => ?_
  rw [similar.depth]
  refine .check .throw fun _ => ?_
  refine .bind (.modify (fun _ => rfl) (fun _ => rfl) (fun _ => rfl) ?_) fun _ => ?_
  · intro s s' similar
    exact { similar with depth := by simp [similar.depth] }
  · refine .bind (follows m less) fun v => ?_
    refine .bind (.modify (fun _ => rfl) (fun _ => rfl) (fun _ => rfl) ?_) fun _ => .done _
    intro s s' similar
    exact { similar with depth := by simp [similar.depth] }

theorem closeGroup_needsMore (start : Nat) : NeedsMore (closeGroup start) :=
  .takeIf (.failed .failAt)

theorem follows_closeGroup (start start' : Nat) :
    Follows beyond n (closeGroup start) (closeGroup start') :=
  .bind (.takeIf _) fun _ => .ite (fun _ => .failed .failAt) fun _ => .done _

theorem withFlags_ok {change : Flags → Flags} {x : Reader α} {s t : Reading} {v : α} :
    withFlags change x s = .ok (v, t) ↔
      ∃ u, x { s with flags := change s.flags } = .ok (v, u) ∧ t = { u with flags := s.flags } := by
  have eq : withFlags change x s = (x >>= fun v => do
      modify fun u => { u with flags := s.flags }
      return v) { s with flags := change s.flags } := rfl
  rw [eq]
  constructor
  · intro read
    obtain ⟨w, u, got, same⟩ := ok_of_bind read
    cases same
    exact ⟨u, got, rfl⟩
  · rintro ⟨u, got, rfl⟩
    rw [bind_of_ok got]
    rfl

theorem follows_withFlags (change : Flags → Flags) {x y : Reader α} (follows : Follows beyond n x y) :
    Follows beyond n (withFlags change x) (withFlags change y) := by
  constructor
  · intro s v t read
    obtain ⟨u, got, rfl⟩ := withFlags_ok.mp read
    exact ⟨(follows.steady _ v u got).1, rfl⟩
  · intro s s' beside v t read
    obtain ⟨u, got, rfl⟩ := withFlags_ok.mp read
    have similar := beside.similar
    have changed : Beside n { s with flags := change s.flags } { s' with flags := change s'.flags } :=
      ⟨beside.rest, beside.few, { similar with flags := by rw [similar.flags] }⟩
    refine (follows.reads _ _ changed v u got).imp_right ?_
    rintro ⟨u', got', beside'⟩
    refine ⟨_, withFlags_ok.mpr ⟨u', got', rfl⟩, beside'.rest, beside'.few, ?_⟩
    exact { beside'.similar with flags := similar.flags }

theorem follows_lookPart (behind negated : Bool) (body : Regex) :
    Follows beyond n (lookPart behind negated body) (lookPart behind negated body) := by
  refine .ite (fun _ => .done _) fun _ => .state fun s s' m similar _ _ _ => ?_
  rw [similar.widths]
  split
  · exact .done _
  · refine .bind (.modify (fun _ => rfl) (fun _ => rfl) (fun _ => rfl) ?_) fun _ => .done _
    intro s s' similar
    exact { similar with loose := rfl }

/-- The opening of a group is read the same before a word edge, and never beyond it. -/
theorem follows_readOpening (start start' : Nat) (leading : Bool) :
    Follows False n (readOpening start false) (readOpening start' leading) := by
  refine .bind (.takeIf _) fun sign => .ite (fun _ => .done _) fun _ => ?_
  refine .take (.failed .fail) (fun t => ?_) (.inr (.failed (.skip fun _ => .failAt)))
  dsimp only
  split
  · refine .bind (.takeIf _) fun opened => .ite (fun _ => ?_) fun _ => ?_
    · exact .bind (follows_readGroupName _) fun _ => .done _
    · refine .bind (.takeIf _) fun equals => .ite (fun _ => ?_) fun _ => ?_
      · exact .bind follows_readNamedReference fun _ => .done _
      · refine .failed (.skip fun u => ?_)
        cases u with
        | none => exact .fail
        | some u => exact .skip fun _ => .failAt
  · exact .done _
  · refine .state fun s s' m similar _ _ enough => ?_
    exact .bind (follows_skipComment _ _ _ enough) fun _ => .done _
  · exact .done _
  · exact .done _
  · refine .take (.failed .fail) (fun u => ?_) (.inr (.failed ?_))
    · refine .ite (fun _ => .done _) fun _ => .ite (fun _ => .done _) fun _ => ?_
      exact .failed (.skip fun _ => .failAt)
    · exact .skip fun _ => .failAt
  · exact .bind follows_readCondition fun _ => .done _
  · exact .done _
  · refine .ite (fun _ => ?_) fun _ => .failed (.skip fun _ => .failAt)
    refine .bind (follows_readFlags _) fun flags => ?_
    cases flags with
    | whole on => exact .failed (.skip fun _ => .bind .failAt)
    | inside on off => exact .done _
  · exact .failed (.skip fun _ => .failAt)

end Colloquy.Regex
