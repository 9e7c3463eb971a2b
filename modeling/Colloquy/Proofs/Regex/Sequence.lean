import Colloquy.Proofs.Regex.Beside

/-! Expressions read as the lists of their alternatives, and of the parts of these. -/

namespace Colloquy.Regex

open Text

/-- What a symbol, which has just been taken, makes of the parts before it. `flags` and `length` are
those from before it was taken, and `start` is its place. -/
def readSymbol (steps : Nat) (leading : Bool) (flags : Flags) (length start : Nat)
    (parts : List Part) : Token → Reader (List Part)
  | .escaped c => do return (← readEscape c start) :: parts
  | .lone => fail .loneBackslash
  | .plain c =>
    if flags.verbose && (c == ' ' || (9 ≤ c.toNat && c.toNat ≤ 13)) then return parts
    else if flags.verbose && c == '#' then do
      skipLine length
      return parts
    else
      match c with
      | '(' => do
        match ← readGroup steps leading start parts with
        | none => return parts
        | some r => return .item r :: parts
      | '[' => do return .item (.one (← readSet start)) :: parts
      | '.' => return .item (.one (if flags.dotAll then .any else .notNewline)) :: parts
      | '^' => return .place (if flags.multiLine then .lineStart else .textStart) :: parts
      | '$' => return .place (if flags.multiLine then .lineEnd else .lastLineEnd) :: parts
      | '?' => readRepetition start 0 (some 1) parts
      | '*' => readRepetition start 0 none parts
      | '+' => readRepetition start 1 none parts
      | '\x7b' => do
        match ← readRange with
        | some (least, most) => readRepetition start least most parts
        | none => return .item (.one (.one c.toNat flags.ignoreCase)) :: parts
      | _ => return .item (.one (.one c.toNat flags.ignoreCase)) :: parts

/-- A sequence is read one symbol at a time, up to its end. -/
theorem readSequence_succ (steps : Nat) (leading : Bool) (parts : List Part) :
    readSequence (steps + 1) leading parts = (do
      let start ← here
      let s ← get
      match s.rest with
      | [] | .plain '|' :: _ | .plain ')' :: _ => return sequence parts.reverse
      | t :: _ =>
        discard take?
        readSequence steps leading
          (← readSymbol steps leading s.flags s.rest.length start parts t)) := by
  rw [readSequence]
  refine bind_congr fun start => bind_congr fun s => ?_
  split
  · simp_all only
  · simp_all only
  · simp_all only
  · next t _ bar closing found =>
    simp only [found]
    refine bind_congr fun _ => ?_
    cases t with
    | escaped c => simp only [readSymbol, bind_assoc, pure_bind]
    | lone => rfl
    | plain c =>
      simp only [readSymbol]
      split
      · simp only [pure_bind]
      · split
        · simp only [bind_assoc, pure_bind]
        · split
          · simp only [bind_assoc]
            refine bind_congr fun group => ?_
            cases group <;> simp only [pure_bind]
          · simp only [bind_assoc, pure_bind]
          · simp only [pure_bind]
          · simp only [pure_bind]
          · simp only [pure_bind]
          · rfl
          · rfl
          · rfl
          · simp only [bind_assoc]
            refine bind_congr fun range => ?_
            cases range with
            | none => simp only [pure_bind]
            | some range => rfl
          · simp only [pure_bind]

def readParts : (steps : Nat) → (leading : Bool) → (parts : List Part) → Reader (List Part)
  | 0, _, _ => fail .endsEarly
  | steps + 1, leading, parts => do
    let start ← here
    let s ← get
    if ← nextIs '|' then return parts.reverse
    if ← nextIs ')' then return parts.reverse
    match ← take? with
    | none => return parts.reverse
    | some t =>
      readParts steps leading (← readSymbol steps leading s.flags s.rest.length start parts t)

variable {steps : Nat} {leading : Bool} {parts : List Part} {s : Reading} {ts : List Token}

theorem readParts_nil (ended : s.rest = []) :
    readParts (steps + 1) leading parts s = .ok (parts.reverse, s) := by
  have none_ : take? s = .ok (none, s) := by
    rw [take?, get_bind, ended]
    rfl
  rw [readParts, here_bind, get_bind, nextIs_bind, ended, if_neg (by simp), nextIs_bind, ended,
    if_neg (by simp), bind_of_ok none_]
  rfl

theorem readParts_end {c : Char} (ends : c = '|' ∨ c = ')') (shape : s.rest = .plain c :: ts) :
    readParts (steps + 1) leading parts s = .ok (parts.reverse, s) := by
  rw [readParts, here_bind, get_bind, nextIs_bind, shape]
  rcases ends with rfl | rfl
  · rw [if_pos (by simp)]
    rfl
  · rw [if_neg (by simp), nextIs_bind, shape, if_pos (by simp)]
    rfl

theorem readParts_symbol {t : Token} (shape : s.rest = t :: ts) (bar : t ≠ .plain '|')
    (closing : t ≠ .plain ')') : readParts (steps + 1) leading parts s = (do
      discard take?
      readParts steps leading
        (← readSymbol steps leading s.flags s.rest.length s.place parts t)) s := by
  rw [readParts, here_bind, get_bind, nextIs_bind, shape, if_neg (by simpa using bar), nextIs_bind,
    shape, if_neg (by simpa using closing)]
  change _ = ((take? >>= fun _ => pure ()) >>= fun _ => _) s
  rw [bind_assoc, take?, bind_assoc, get_bind, bind_assoc, get_bind, shape]
  simp only [bind_assoc, pure_bind]

/-- To read a sequence is to read its parts and put them together. -/
theorem readSequence_eq (steps : Nat) (leading : Bool) (parts : List Part) :
    readSequence steps leading parts = sequence <$> readParts steps leading parts := by
  induction steps generalizing parts with
  | zero => rfl
  | succ steps ih =>
    funext s
    have same {x : Reader (List Part)} (read : readParts (steps + 1) leading parts s = x s) :
        (sequence <$> readParts (steps + 1) leading parts) s = (sequence <$> x) s := by
      rw [map_eq_pure_bind, map_eq_pure_bind]
      simp only [Bind.bind, StateT.bind, read]
    have ended : (sequence <$> (pure parts.reverse : Reader (List Part))) =
        pure (sequence parts.reverse) := map_pure _ _
    rw [readSequence_succ, here_bind, get_bind]
    rcases shape : s.rest with _ | ⟨t, rest⟩
    · rw [same (x := pure parts.reverse) (readParts_nil shape), ended]
    · by_cases bar : t = .plain '|'
      · rw [bar] at shape ⊢
        rw [same (x := pure parts.reverse) (readParts_end (.inl rfl) shape), ended]
        rfl
      · by_cases closing : t = .plain ')'
        · rw [closing] at shape ⊢
          rw [same (x := pure parts.reverse) (readParts_end (.inr rfl) shape), ended]
          rfl
        · rw [same (readParts_symbol shape bar closing)]
          refine congrFun ?_ s
          split
          · contradiction
          · simp_all
          · simp_all
          · next found =>
            obtain ⟨rfl, rfl⟩ := List.cons.inj found
            simp only [map_bind, ih, shape]

/-! Parts that stand before what is read. -/

theorem readRepetition_after (start least : Nat) (most : Option Nat) (parts : List Part) (a : Anchor) :
    readRepetition start least most (parts ++ [.place a]) =
      (· ++ [.place a]) <$> readRepetition start least most parts := by
  cases parts with
  | nil => rfl
  | cons p parts =>
    cases p with
    | item r =>
      simp only [readRepetition, List.cons_append, map_bind, map_pure]
    | place _ => rfl
    | repeated _ => rfl

theorem readGroup_after (start : Nat) (parts : List Part) (a : Anchor) :
    readGroup steps leading start (parts ++ [.place a]) = readGroup steps false start parts := by
  cases steps with
  | zero => rfl
  | succ steps =>
    have opening : (leading && (parts ++ [Part.place a]).isEmpty) = (false && parts.isEmpty) := by
      simp
    rw [readGroup, readGroup, opening]

/-- What a symbol makes of the parts before it does not touch an anchor in front of them all. -/
theorem readSymbol_after (flags : Flags) (length start : Nat) (parts : List Part) (a : Anchor)
    (t : Token) : readSymbol steps leading flags length start (parts ++ [.place a]) t =
      (· ++ [.place a]) <$> readSymbol steps false flags length start parts t := by
  cases t with
  | escaped c => simp only [readSymbol, map_bind, map_pure, List.cons_append]
  | lone => rfl
  | plain c =>
    simp only [readSymbol, readRepetition_after, readGroup_after]
    split
    · rw [map_pure]
    · split
      · simp only [map_bind, map_pure]
      · split
        · simp only [map_bind]
          refine bind_congr fun group => ?_
          cases group <;> simp only [map_pure, List.cons_append]
        · simp only [map_bind, map_pure, List.cons_append]
        · simp only [map_pure, List.cons_append]
        · simp only [map_pure, List.cons_append]
        · simp only [map_pure, List.cons_append]
        · rfl
        · rfl
        · rfl
        · simp only [map_bind]
          refine bind_congr fun range => ?_
          cases range with
          | none => simp only [map_pure, List.cons_append]
          | some range => rfl
        · simp only [map_pure, List.cons_append]

/-- A place at the start of a sequence has no part in what comes after it. -/
theorem readParts_after (parts : List Part) (a : Anchor) :
    readParts steps leading (parts ++ [.place a]) =
      (.place a :: ·) <$> readParts steps false parts := by
  induction steps generalizing parts with
  | zero => rfl
  | succ steps ih =>
    simp only [readParts, map_bind, readSymbol_after]
    have ended : (pure (parts ++ [Part.place a]).reverse : Reader (List Part)) =
        (Part.place a :: ·) <$> pure parts.reverse := by simp
    refine bind_congr fun start => bind_congr fun s => bind_congr fun bar => ?_
    split
    · exact ended
    · rw [map_bind]
      refine bind_congr fun closing => ?_
      split
      · exact ended
      · rw [map_bind]
        refine bind_congr fun t => ?_
        cases t with
        | none => exact ended
        | some t =>
          simp only [map_eq_pure_bind, bind_assoc, pure_bind]
          refine bind_congr fun parts => ?_
          rw [ih, map_eq_pure_bind]

/-! Alternatives. -/

/-- The expression of alternatives that are given by their parts. -/
def alternatives : List (List Part) → Regex
  | [] => .never
  | [b] => sequence b
  | b :: rest => .alt (sequence b) (alternatives rest)

/-- The parts of each of the alternatives up to the end or a closing parenthesis. -/
def readAlternatives : (steps : Nat) → (leading : Bool) → Reader (List (List Part))
  | 0, _ => fail .endsEarly
  | steps + 1, leading => do
    let first ← readParts steps leading []
    if ← takeIf '|' then
      return first :: (← readAlternatives steps false)
    else return [first]

def readOthers (steps : Nat) (first : List Part) : Reader (List (List Part)) := do
  if ← takeIf '|' then
    return first :: (← readAlternatives steps false)
  else return [first]

theorem readAlternatives_succ (steps : Nat) (leading : Bool) :
    readAlternatives (steps + 1) leading = readParts steps leading [] >>= readOthers steps := rfl

theorem readAlternatives_gives (steps : Nat) (leading : Bool) :
    Gives (readAlternatives steps leading) fun bs => bs ≠ [] := by
  cases steps with
  | zero => exact .fail
  | succ steps =>
    refine .skip fun first => .skip fun more => ?_
    split
    · exact .skip fun rest => .done (List.cons_ne_nil _ _)
    · exact .done (List.cons_ne_nil _ _)

theorem Gives.bind_congr {α β : Type} {x : Reader α} {value : α → Prop} {f g : α → Reader β}
    (gives : Gives x value) (same : ∀ a, value a → f a = g a) : x >>= f = x >>= g := by
  funext s
  cases got : x s with
  | error e =>
    simp only [Bind.bind, StateT.bind, got]
    rfl
  | ok p => rw [bind_of_ok got, bind_of_ok got, same p.1 (gives s p.1 p.2 got)]

/-- To read a choice is to read its alternatives and put them together. -/
theorem readBranches_eq (steps : Nat) (leading : Bool) :
    readBranches steps leading = alternatives <$> readAlternatives steps leading := by
  induction steps generalizing leading with
  | zero => rfl
  | succ steps ih =>
    rw [readBranches, readAlternatives, readSequence_eq]
    simp only [map_eq_pure_bind, bind_assoc, pure_bind]
    refine bind_congr fun first => bind_congr fun more => ?_
    split
    · simp only [map_eq_pure_bind, bind_assoc, pure_bind, ih]
      refine (readAlternatives_gives steps false).bind_congr fun rest others => ?_
      rw [alternatives]
      exact others
    · simp only [pure_bind]
      rfl

/-! The whole text. -/

def Reading.start (tokens : List Token) (ignoreCase : Bool) : Reading :=
  { rest := tokens, place := 0, groups := 1, names := [], widths := [], behindFrom := none
    flags := { Flags.none with ignoreCase }, conditions := [], loose := false, depth := 0 }

/-- What is checked at the end: the groups that conditions ask for. -/
def checkConditions (groups : Nat) (conditions : List (Nat × Nat)) : Reader Unit :=
  forIn conditions () fun c _ => do
    if groups ≤ c.1 then failAt (.noSuchGroup c.1) c.2
    return .yield ()

theorem checkConditions_ok {groups : Nat} {conditions : List (Nat × Nat)} {t : Reading} {v : Unit} :
    checkConditions groups conditions s = .ok (v, t) ↔ (∀ c ∈ conditions, c.1 < groups) ∧ t = s := by
  induction conditions with
  | nil =>
    constructor
    · intro read
      cases read
      exact ⟨nofun, rfl⟩
    · rintro ⟨_, rfl⟩
      rfl
  | cons c rest ih =>
    rw [List.forall_mem_cons, and_assoc, ← ih, checkConditions, List.forIn_cons]
    by_cases known : c.1 < groups
    · rw [if_neg (Nat.not_le.mpr known), pure_bind]
      exact (and_iff_right known).symm
    · rw [if_pos (Nat.le_of_not_lt known)]
      exact iff_of_false (nofun) fun both => known both.1

/-- A whole expression is read if its alternatives are, up to the end of the text, and the groups that
conditions ask for exist. -/
theorem readWhole_ok {r : Regex} {t : Reading} : readWhole steps s = .ok (r, t) ↔
    s.rest.head? ≠ some .lone ∧ readBranches steps true s = .ok (r, t) ∧ t.rest = [] ∧
      (∀ c ∈ t.conditions, c.1 < t.groups) ∧ t.loose = false := by
  have eq : readWhole steps = (do
      refuseLone
      let body ← readBranches steps true
      let s ← get
      if !s.rest.isEmpty then fail .closedTooOften
      checkConditions s.groups s.conditions
      if s.loose then throw (.fault .looseLookBehind none)
      return body) := rfl
  rw [eq]
  constructor
  · intro read
    obtain ⟨_, _, refused, later⟩ := ok_of_bind read
    obtain ⟨fine, rfl⟩ := refuseLone_ok refused
    obtain ⟨body, u, branches, later⟩ := ok_of_bind later
    obtain ⟨_, _, got, later⟩ := ok_of_bind later
    cases got
    dsimp only at later
    by_cases left : (!u.rest.isEmpty) = true
    · rw [if_pos left] at later
      exact absurd later (Fails.bind .fail _ _)
    · rw [if_neg left] at later
      obtain ⟨_, _, checked, later⟩ := ok_of_bind later
      obtain ⟨known, same⟩ := checkConditions_ok.mp checked
      rw [same] at later
      by_cases loose : u.loose = true
      · rw [if_pos loose] at later
        contradiction
      · rw [if_neg loose] at later
        cases later
        exact ⟨fine, branches, by simpa using left, known, by simpa using loose⟩
  · rintro ⟨fine, branches, ended, known, tight⟩
    rw [bind_of_ok (refuseLone_of fine), bind_of_ok branches, get_bind]
    have checked : checkConditions t.groups t.conditions t = .ok ((), t) :=
      checkConditions_ok.mpr ⟨known, rfl⟩
    dsimp only
    rw [if_neg (by simp [ended]), bind_of_ok checked, if_neg (by simp [tight])]
    rfl

/-- A text is an expression just if its symbols can be read as one, with steps enough for each of them.
-/
theorem parse_ok {source : String} {ignoreCase : Bool} {e : Expression} :
    Expression.parse source ignoreCase = .ok e ↔ ∃ t,
      readWhole (4 * (Token.scan source.toList).length + 4)
        (.start (Token.scan source.toList) ignoreCase) = .ok (e.body, t) ∧
      e = ⟨source, e.body, t.groups - 1, t.names⟩ := by
  rw [Expression.parse, bind_eq_ok]
  constructor
  · rintro ⟨⟨body, t⟩, read, same⟩
    cases same
    exact ⟨t, read, rfl⟩
  · rintro ⟨t, read, same⟩
    exact ⟨(e.body, t), read, by rw [same]; rfl⟩

def alternativesOf (source : String) (ignoreCase : Bool) : Except Error (List (List Part)) := do
  let tokens := Token.scan source.toList
  let (bs, _) ← (readAlternatives (4 * tokens.length + 4) true).run (.start tokens ignoreCase)
  return bs

end Colloquy.Regex
