import Colloquy.Pattern.Wildcard
import Colloquy.Proofs.Outcome
import Colloquy.Regex.Parse

/-! How expressions are read that begin with a capture of any text. -/

namespace Colloquy.Regex

open Text

/-- Whether a step of reading gives only such values. -/
def Gives {α : Type} (x : Reader α) (value : α → Prop) : Prop :=
  ∀ s a s', x s = .ok (a, s') → value a

namespace Gives

variable {α β : Type} {x : Reader α} {f : α → Reader β} {value : α → Prop} {result : β → Prop}

theorem done {a : α} (fits : value a) : Gives (pure a) value := by
  intro s b s' read
  cases read
  exact fits

theorem bind (first : Gives x value) (next : ∀ a, value a → Gives (f a) result) :
    Gives (x >>= f) result := by
  intro s b s'' read
  cases got : x s with
  | error e =>
    simp only [Bind.bind, StateT.bind, got] at read
    contradiction
  | ok pair =>
    obtain ⟨a, s'⟩ := pair
    simp only [Bind.bind, StateT.bind, got] at read
    exact next a (first s a s' got) s' b s'' read

theorem skip (next : ∀ a, Gives (f a) result) : Gives (x >>= f) result := by
  have any : Gives x fun _ => True := fun _ _ _ _ => trivial
  exact any.bind fun a _ => next a

theorem failed {e : Error} : Gives (throw e) value := by
  intro s a s' read
  contradiction

theorem fail {fault : Fault} : Gives (Regex.fail fault) value :=
  skip fun _ => failed

end Gives

/-- A repetition concerns the last part only. -/
theorem readRepetition_gives (start least : Nat) (most : Option Nat) (top : Part) (base : List Part) :
    Gives (readRepetition start least most (top :: base)) fun parts => ∃ top', parts = top' :: base := by
  cases top with
  | item r =>
    simp only [readRepetition]
    exact .skip fun greed => .done ⟨_, rfl⟩
  | place a => exact .failed
  | repeated r => exact .failed

/-- What is read after parts of a sequence leaves all but the last of them as they are. A symbol adds a
part, ends the sequence or says how often the last part is repeated. -/
theorem readSequence_gives (steps : Nat) (leading : Bool) (top : Part) (base : List Part) :
    Gives (readSequence steps leading (top :: base)) fun r =>
      ∃ p more, r = sequence (base.reverse ++ p :: more) := by
  induction steps generalizing leading top base with
  | zero => exact .fail
  | succ steps ih =>
    have same := ih leading top base
    have one_more (new : Part) : Gives (readSequence steps leading (new :: top :: base)) fun r =>
        ∃ p more, r = sequence (base.reverse ++ p :: more) := by
      intro s r s' read
      obtain ⟨p, more, rfl⟩ := ih leading new (top :: base) s r s' read
      exact ⟨top, p :: more, by simp⟩
    have repeated (start least : Nat) (most : Option Nat) :
        Gives (readRepetition start least most (top :: base) >>= readSequence steps leading) fun r =>
          ∃ p more, r = sequence (base.reverse ++ p :: more) := by
      refine .bind (readRepetition_gives start least most top base) ?_
      rintro _ ⟨top', rfl⟩
      exact ih leading top' base
    rw [readSequence]
    refine .skip fun start => .skip fun s => ?_
    split
    · exact .done ⟨top, [], by simp⟩
    · exact .done ⟨top, [], by simp⟩
    · exact .done ⟨top, [], by simp⟩
    · refine .skip fun _ => ?_
      split
      · exact .skip fun part => one_more part
      · exact .fail
      · split
        · exact same
        · split
          · exact .skip fun _ => same
          · split
            · refine .skip fun group => ?_
              cases group with
              | none => exact same
              | some r => exact one_more _
            · exact .skip fun test => one_more _
            · exact one_more _
            · exact one_more _
            · exact one_more _
            · exact repeated _ _ _
            · exact repeated _ _ _
            · exact repeated _ _ _
            · refine .skip fun range => ?_
              cases range with
              | none => exact one_more _
              | some range => exact repeated _ _ _
            · exact one_more _

/-! The symbols of the capture, one after the other. -/

def blankTest : CharTest := .set false [.named .blank false false] false

def blanks : Regex := .run blankTest 0 none

def anyText : Regex := .run .notNewline 0 none

def opening (rest : Regex) : Regex := .seq blanks (.seq (.group 1 anyText) rest)

/-- The state of reading before anything but a capture has been read. -/
def early (rest : List Token) (place groups : Nat) (widths : List (Nat × Width)) (depth : Nat) :
    Reading :=
  { rest, place, groups, names := [], widths, behindFrom := none, flags := Flags.none
    conditions := [], loose := false, depth }

def inner (ts : List Token) : List Token :=
  .plain '.' :: .plain '*' :: .plain ')' :: .escaped 's' :: ts

theorem bind_of_ok {α β : Type} {x : Reader α} {f : α → Reader β} {s s' : Reading} {a : α}
    (got : x s = .ok (a, s')) : (x >>= f) s = f a s' := by
  simp only [Bind.bind, StateT.bind, got]
  rfl

/-- Two steps of reading succeed if the first does, and then the second. -/
theorem ok_of_bind {α β : Type} {x : Reader α} {f : α → Reader β} {s s'' : Reading} {b : β}
    (read : (x >>= f) s = .ok (b, s'')) : ∃ a s', x s = .ok (a, s') ∧ f a s' = .ok (b, s'') := by
  cases got : x s with
  | error e =>
    simp only [Bind.bind, StateT.bind, got] at read
    contradiction
  | ok pair => exact ⟨pair.1, pair.2, rfl, (bind_of_ok got).symm.trans read⟩

variable {steps place groups depth start : Nat} {leading : Bool} {parts : List Part}
  {ts : List Token} {widths : List (Nat × Width)} {test : CharTest}

/-- Whether symbols can follow a repetition without a change to it. -/
def Firm (ts : List Token) : Prop :=
  ts.head? ≠ some .lone ∧ ts.head? ≠ some (.plain '?') ∧ ts.head? ≠ some (.plain '+')

theorem peek?_early : peek? (early ts place groups widths depth) =
    .ok (ts.head?, early ts place groups widths depth) := rfl

theorem refuseLone_early (firm : Firm ts) : refuseLone (early ts place groups widths depth) =
    .ok ((), early ts place groups widths depth) := by
  rw [refuseLone, bind_of_ok peek?_early, if_neg (by simpa using firm.1)]
  rfl

theorem take?_early {t : Token} (firm : Firm ts) :
    take? (early (t :: ts) place groups widths depth) =
      .ok (some t, early ts (place + t.width) groups widths depth) := by
  change (refuseLone >>= fun _ => pure (some t)) (early ts (place + t.width) groups widths depth) = _
  rw [bind_of_ok (refuseLone_early firm)]
  rfl

theorem takeIf_early {c : Char} (other : ts.head? ≠ some (.plain c)) :
    takeIf c (early ts place groups widths depth) =
      .ok (false, early ts place groups widths depth) := by
  have next : nextIs c (early ts place groups widths depth) =
      .ok (false, early ts place groups widths depth) := by
    rw [nextIs, bind_of_ok peek?_early, beq_eq_false_iff_ne.mpr other]
    rfl
  rw [takeIf, bind_of_ok next]
  rfl

theorem readRepetition_early {start least : Nat} {most : Option Nat} (firm : Firm ts) :
    readRepetition start least most (.item (.one test) :: parts)
        (early ts place groups widths depth) =
      .ok (.repeated (.run test least most) :: parts, early ts place groups widths depth) := by
  have greed : readGreed (early ts place groups widths depth) =
      .ok (.greedy, early ts place groups widths depth) := by
    rw [readGreed, bind_of_ok (takeIf_early firm.2.1), if_neg Bool.false_ne_true,
      bind_of_ok (takeIf_early firm.2.2)]
    rfl
  rw [readRepetition, bind_of_ok greed]
  rfl

theorem discard_early {t : Token} (firm : Firm ts) :
    (discard take? : Reader Unit) (early (t :: ts) place groups widths depth) =
      .ok ((), early ts (place + t.width) groups widths depth) := by
  change (take? (early (t :: ts) place groups widths depth) >>= fun p => pure ((), p.2)) = _
  rw [take?_early firm]
  rfl

theorem readSequence_repeat {c : Char} {least : Nat}
    (repeats : c = '*' ∧ least = 0 ∨ c = '+' ∧ least = 1) (firm : Firm ts) :
    readSequence (steps + 1) leading (.item (.one test) :: parts)
        (early (.plain c :: ts) place groups widths depth) =
      readSequence steps leading (.repeated (.run test least none) :: parts)
        (early ts (place + 1) groups widths depth) := by
  have step : readSequence (steps + 1) leading (.item (.one test) :: parts)
        (early (.plain c :: ts) place groups widths depth) =
      (discard take? >>= fun _ => readRepetition place least none (.item (.one test) :: parts) >>=
        readSequence steps leading) (early (.plain c :: ts) place groups widths depth) := by
    rcases repeats with ⟨rfl, rfl⟩ | ⟨rfl, rfl⟩ <;> rfl
  rw [step, bind_of_ok (discard_early firm), bind_of_ok (readRepetition_early firm)]
  rfl

theorem readSequence_blank {c : Char} :
    readSequence (steps + 1) leading parts
        (early (.escaped 's' :: .plain c :: ts) place groups widths depth) =
      readSequence steps leading (.item (.one blankTest) :: parts)
        (early (.plain c :: ts) (place + 2) groups widths depth) := by
  rfl

theorem readSequence_any :
    readSequence (steps + 1) leading parts
        (early (.plain '.' :: .plain '*' :: ts) place groups widths depth) =
      readSequence steps leading (.item (.one .notNewline) :: parts)
        (early (.plain '*' :: ts) (place + 1) groups widths depth) := by
  rfl

theorem readSequence_end :
    readSequence (steps + 1) leading parts (early (.plain ')' :: ts) place groups widths depth) =
      .ok (sequence parts.reverse, early (.plain ')' :: ts) place groups widths depth) := by
  rfl

theorem readBranches_inner :
    readBranches (steps + 4) leading (early (inner ts) place groups widths depth) =
      .ok (anyText, early (.plain ')' :: .escaped 's' :: ts) (place + 2) groups widths depth) := by
  have branch : readSequence (steps + 3) leading [] (early (inner ts) place groups widths depth) =
      .ok (anyText, early (.plain ')' :: .escaped 's' :: ts) (place + 2) groups widths depth) := by
    rw [inner, readSequence_any, readSequence_repeat (.inl ⟨rfl, rfl⟩) (by simp [Firm]),
      readSequence_end]
    rfl
  rw [readBranches, bind_of_ok branch]
  rfl

theorem deeper_of_ok {α : Type} {step : Reader α} {s s' : Reading} {a : α}
    (shallow : s.depth < nestingLimit)
    (got : step { s with depth := s.depth + 1 } = .ok (a, s')) :
    deeper step s = .ok (a, { s' with depth := s'.depth - 1 }) := by
  have read : (get : Reader Reading) s = .ok (s, s) := rfl
  rw [deeper, bind_of_ok read, if_neg (Nat.not_le.mpr shallow)]
  change (step >>= fun a => do
    modify fun s => { s with depth := s.depth - 1 }
    return a) { s with depth := s.depth + 1 } = _
  rw [bind_of_ok got]
  rfl

theorem readInside_inner :
    readInside (steps + 5) start (early (inner ts) place groups widths 0) =
      .ok (anyText, early (.escaped 's' :: ts) (place + 3) groups widths 0) := by
  rw [readInside, bind_of_ok (deeper_of_ok (Nat.zero_lt_succ _) readBranches_inner)]
  rfl

/-- The group of any text is read with the next number. -/
theorem readGroup_inner :
    readGroup (steps + 6) leading start parts (early (inner ts) place groups widths 0) =
      .ok (some (.group groups anyText),
        early (.escaped 's' :: ts) (place + 3) (groups + 1)
          ((groups, anyText.width widths) :: widths) 0) := by
  have announced : readOpening start (leading && parts.isEmpty)
      (early (inner ts) place groups widths 0) =
        .ok (.capture none, early (inner ts) place groups widths 0) := rfl
  have opened : openGroup none (early (inner ts) place groups widths 0) =
      .ok (groups, early (inner ts) place (groups + 1) widths 0) := rfl
  rw [readGroup, bind_of_ok announced]
  dsimp only
  rw [bind_of_ok opened, bind_of_ok readInside_inner]
  rfl

theorem readSequence_group :
    readSequence (steps + 7) leading parts
        (early (.plain '(' :: inner ts) place groups widths 0) =
      readSequence (steps + 6) leading (.item (.group groups anyText) :: parts)
        (early (.escaped 's' :: ts) (place + 4) (groups + 1)
          ((groups, anyText.width widths) :: widths) 0) := by
  change (readGroup (steps + 6) leading place parts >>= fun group =>
    group.elim (readSequence (steps + 6) leading parts)
      fun r => readSequence (steps + 6) leading (.item r :: parts))
        (early (inner ts) (place + 1) groups widths 0) = _
  rw [bind_of_ok readGroup_inner]
  rfl

def openingTokens (ts : List Token) : List Token :=
  .escaped 's' :: .plain '*' :: .plain '(' :: inner (.plain '*' :: ts)

theorem scan_capture (rest : List Char) :
    Token.scan (Pattern.capture ++ rest) = openingTokens (Token.scan rest) := rfl

/-- What is read after a capture at the start is a sequence that begins with it. -/
theorem readSequence_opening {r : Regex} {s : Reading}
    (read : readSequence (steps + 9) leading [] (early (openingTokens ts) 0 1 [] 0) = .ok (r, s)) :
    ∃ rest, r = opening rest := by
  rw [openingTokens, readSequence_blank,
    readSequence_repeat (.inl ⟨rfl, rfl⟩) (by simp [Firm]), readSequence_group,
    readSequence_blank] at read
  obtain ⟨p, more, rfl⟩ := readSequence_gives _ _ _ _ _ _ _ read
  exact ⟨sequence (p :: more), rfl⟩

theorem readBranches_opening {r : Regex} {s : Reading}
    (read : readBranches (steps + 10) leading (early (openingTokens ts) 0 1 [] 0) = .ok (r, s)) :
    ∃ rest, r = opening rest ∨ ∃ others, r = .alt (opening rest) others := by
  rw [readBranches] at read
  obtain ⟨first, s', got, read⟩ := ok_of_bind read
  obtain ⟨rest, rfl⟩ := readSequence_opening got
  have branches : Gives (do
      if ← takeIf '|' then return .alt (opening rest) (← readBranches (steps + 9) false)
      else return opening rest) fun r => r = opening rest ∨ ∃ others, r = .alt (opening rest) others := by
    refine .skip fun more => ?_
    split
    · exact .skip fun others => .done (.inr ⟨others, rfl⟩)
    · exact .done (.inl rfl)
  exact ⟨rest, branches _ _ _ read⟩

/-- An expression that begins with a capture is opened by it, or is a choice of which the first
alternative is. -/
theorem readWhole_opening {r : Regex} {s : Reading}
    (read : readWhole (steps + 10) (early (openingTokens ts) 0 1 [] 0) = .ok (r, s)) :
    ∃ rest, r = opening rest ∨ ∃ others, r = .alt (opening rest) others := by
  rw [readWhole] at read
  obtain ⟨_, _, fine, read⟩ := ok_of_bind read
  cases fine
  obtain ⟨body, s', got, read⟩ := ok_of_bind read
  obtain ⟨rest, shape⟩ := readBranches_opening got
  have whole : r = body := by
    refine (show Gives _ fun r => r = body from ?_) _ _ _ read
    have ended (loose : Bool) : Gives (do
        if loose then throw (.fault .looseLookBehind none)
        return body) fun r => r = body := by
      split
      · exact .skip fun _ => .done rfl
      · exact .done rfl
    refine .skip fun s => ?_
    by_cases left : (!s.rest.isEmpty) = true
    · simp only [left, if_true]
      exact .skip fun _ => .skip fun _ => ended s.loose
    · simp only [left]
      exact .skip fun _ => ended s.loose
  exact ⟨rest, whole ▸ shape⟩

theorem source_of_parse {source : String} {ignoreCase : Bool} {e : Expression}
    (parsed : Expression.parse source ignoreCase = .ok e) : e.source = source := by
  obtain ⟨_, _, same⟩ := bind_eq_ok.mp parsed
  cases same
  rfl

/-- An expression whose text begins with a capture does so itself, or its first alternative does. -/
theorem parse_opening {source : String} {e : Expression}
    (parsed : Expression.parse source false = .ok e)
    (opens : Pattern.capture.isPrefixOf e.source.toList = true) :
    ∃ rest, e.body = opening rest ∨ ∃ others, e.body = .alt (opening rest) others := by
  rw [source_of_parse parsed] at opens
  obtain ⟨rest, text⟩ := List.isPrefixOf_iff_prefix.mp opens
  have length : 4 * (openingTokens (Token.scan rest)).length + 4 =
      4 * (Token.scan rest).length + 26 + 10 := by
    simp only [openingTokens, inner, List.length_cons]
    omega
  rw [Expression.parse, ← text, scan_capture, length] at parsed
  obtain ⟨⟨body, s⟩, read, same⟩ := bind_eq_ok.mp parsed
  cases same
  exact readWhole_opening read

end Colloquy.Regex
