import Colloquy.Proofs.Outcome
import Colloquy.Proofs.Regex.Scan
import Colloquy.Proofs.Text.Integer
import Colloquy.Regex.Template

/-! What a written replacement needs, symbol by symbol and whatever the expression. It is read exactly if
the expression has all that it needs. -/

namespace Colloquy.Regex

open Text

variable {e : Expression} {t : Token} {ts rest after : List Token} {name digits : List Char}

namespace Template

/-- What a symbol of a replacement needs, with those after it that it takes: nothing, a group by number, a
group by what stands between angle brackets, or what no expression has. -/
inductive Need where
  | nothing
  | number (digits : List Char)
  | angled (name : List Char)
  | impossible
deriving DecidableEq

/-- What an escaped digit needs, and the symbols after those that it takes. -/
def digitNeed (c : Char) (rest : List Token) : Need × List Token :=
  let octal := leading isOctalDigit 2 rest
  if c = '0' then (.nothing, rest.drop octal.length)
  else if isOctalDigit c ∧ octal.length = 2 then
    (if inBase 8 (c :: octal) ≤ 0o377 then .nothing else .impossible, rest.drop 2)
  else
    let more := leading isPlainDigit 1 rest
    (.number (c :: more), rest.drop more.length)

/-- What stands between angle brackets, and the symbols after it. -/
def angleNeed : List Token → Need × List Token
  | .plain '<' :: more =>
    match takeName more with
    | none => (.impossible, [])
    | some (name, after) => (.angled name, after)
  | _ => (.impossible, [])

/-- What a symbol needs, and the symbols after those that it takes. -/
def need : Token → List Token → Need × List Token
  | .plain _, rest => (.nothing, rest)
  | .lone, rest => (.impossible, rest)
  | .escaped c, rest =>
    if c = 'g' then angleNeed rest
    else if isPlainDigit c then digitNeed c rest
    else (if (controlEscape? c).isSome || !isLatin c then .nothing else .impossible, rest)

def needsFrom : (steps : Nat) → List Token → List Need
  | _, [] => []
  | 0, _ :: _ => [.impossible]
  | steps + 1, t :: rest => (need t rest).1 :: needsFrom steps (need t rest).2

def needs (replacement : List Char) : List Need :=
  let tokens := Token.scan replacement
  needsFrom tokens.length tokens

def inRange (e : Expression) (digits : List Char) : Bool := (natural? digits).any (· ≤ e.groups)

/-- Whether an expression has what is needed. -/
def Need.met (e : Expression) : Need → Bool
  | .nothing => true
  | .number digits => inRange e digits
  | .angled name => (namedPiece e name []).isOk
  | .impossible => false

theorem isOk_iff {ε α : Type} {x : Except ε α} : x.isOk = true ↔ ∃ a, x = .ok a := by
  cases x <;> simp [Except.isOk, Except.toBool]

theorem leading_spec (p : Char → Bool) (n : Nat) (ts : List Token) :
    (∀ c ∈ leading p n ts, p c = true) ∧ (leading p n ts).length ≤ n := by
  have plain : ∀ t ∈ (ts.take n).takeWhile (plainIn p), ∃ c, t = .plain c ∧ p c = true := by
    intro t member
    have inside := List.all_eq_true.mp List.all_takeWhile t member
    cases t with
    | plain c => exact ⟨c, rfl, inside⟩
    | escaped c => contradiction
    | lone => contradiction
  constructor
  · intro c member
    obtain ⟨t, inside, own⟩ := List.mem_flatMap.mp member
    obtain ⟨d, rfl, holds⟩ := plain t inside
    rwa [List.mem_singleton.mp own]
  · have single (l : List Token) (plain : ∀ t ∈ l, ∃ c, t = .plain c ∧ p c = true) :
        (l.flatMap Token.chars).length = l.length := by
      induction l with
      | nil => rfl
      | cons t l ih =>
        obtain ⟨⟨c, rfl, _⟩, others⟩ := List.forall_mem_cons.mp plain
        rw [List.flatMap_cons, List.length_append, ih others, Nat.add_comm]
        rfl
    rw [leading, single _ plain]
    exact Nat.le_trans (List.takeWhile_prefix _).length_le (List.length_take_le n ts)

theorem groupPiece_isOk (e : Expression) (n : Nat) : (groupPiece e n).isOk = decide (n ≤ e.groups) := by
  rw [groupPiece]
  split
  · next there => simp [there, Except.isOk, Except.toBool]
  · next missing => simp [missing, Except.isOk, Except.toBool]

/-- A number between angle brackets needs what it needs without them. -/
theorem namedPiece_isOk (all : ∀ c ∈ name, isDigit c = true) :
    (namedPiece e name []).isOk = inRange e name := by
  have unnamed := isName_of_digits all
  have read := integer?_of_digits all
  rw [namedPiece, if_neg (by simp), unnamed, if_neg Bool.false_ne_true, read, inRange]
  cases natural? name with
  | none => rfl
  | some n => exact groupPiece_isOk e n

/-- An escaped digit can be rendered just if what it needs is met, and takes the same symbols. -/
theorem numberPiece_isOk (plain : isPlainDigit c = true) (rest : List Token) :
    (numberPiece e c rest).2.isOk = (digitNeed c rest).1.met e ∧
      rest.drop (numberPiece e c rest).1 = (digitNeed c rest).2 := by
  rw [numberPiece, digitNeed]
  by_cases zero : c = '0'
  · rw [if_pos zero, if_pos zero]
    exact ⟨rfl, rfl⟩
  · rw [if_neg zero, if_neg zero]
    dsimp only
    split
    · refine ⟨?_, rfl⟩
      dsimp only
      split <;> rfl
    · refine ⟨?_, rfl⟩
      obtain ⟨digits, few⟩ := leading_spec isPlainDigit 1 rest
      have number := natural?_of_plain (List.cons_ne_nil c (leading isPlainDigit 1 rest))
        (List.forall_mem_cons.mpr ⟨plain, digits⟩)
        (by rw [digitLimit, List.length_cons]; omega)
      rw [Need.met, inRange, number]
      exact groupPiece_isOk e _

theorem isOk_map {ε α β : Type} (x : Except ε α) (f : α → β) :
    (do return f (← x) : Except ε β).isOk = x.isOk := by
  cases x <;> rfl

theorem isOk_bind {ε α β : Type} {x : Except ε α} {f : α → Except ε β} {more : Bool}
    (each : ∀ a, (f a).isOk = more) : (x >>= f).isOk = (x.isOk && more) := by
  cases x with
  | error _ => rfl
  | ok a => exact each a

theorem parseTokens_lone (e : Expression) (steps : Nat) : (parseTokens e steps [.lone]).isOk = false := by
  cases steps <;> rfl

/-- Reading goes on after a symbol exactly if the expression has what it needs. -/
theorem parseTokens_cons_isOk (e : Expression) (steps : Nat) (t : Token) (rest : List Token) :
    (parseTokens e (steps + 1) (t :: rest)).isOk =
      ((need t rest).1.met e && (parseTokens e steps (need t rest).2).isOk) := by
  cases t with
  | lone => rfl
  | plain c => exact isOk_map _ _
  | escaped c =>
    by_cases angle : c = 'g'
    · subst angle
      rw [need, if_pos rfl]
      by_cases opened : ∃ more, rest = .plain '<' :: more
      · obtain ⟨more, rfl⟩ := opened
        rw [parseTokens, angleNeed]
        cases takeName more with
        | none => rfl
        | some found =>
          obtain ⟨name, after⟩ := found
          dsimp only
          rw [isOk_bind fun piece => isOk_map _ _]
          by_cases alone : after = [.lone]
          · rw [alone, parseTokens_lone, Bool.and_false, Bool.and_false]
          · have same : namedPiece e name after = namedPiece e name [] := by
              rw [namedPiece, namedPiece, if_neg alone, if_neg (List.cons_ne_nil _ _).symm]
            rw [same, Need.met]
      · have unopened : ∀ more, rest = .plain '<' :: more → False := fun more same => opened ⟨more, same⟩
        rw [parseTokens.eq_6 _ _ _ unopened, angleNeed.eq_2 _ unopened]
        rfl
    · rw [need, if_neg angle, parseTokens.eq_7 _ _ _ _ angle]
      split
      · next plain =>
        obtain ⟨same, after⟩ := numberPiece_isOk (e := e) plain rest
        dsimp only
        rw [isOk_bind fun piece => isOk_map _ _, same, after]
      · cases controlEscape? c with
        | some code => exact isOk_map _ _
        | none =>
          dsimp only
          split
          · next latin => simp [latin, Except.isOk, Except.toBool, Need.met]
          · next other => simpa [other, Need.met] using isOk_map _ _

/-- A replacement can be used just if the needs of all its symbols are met. -/
theorem parseTokens_isOk (e : Expression) (steps : Nat) (ts : List Token) :
    (parseTokens e steps ts).isOk = (needsFrom steps ts).all (Need.met e) := by
  induction steps generalizing ts with
  | zero => cases ts <;> rfl
  | succ steps ih =>
    cases ts with
    | nil => rfl
    | cons t rest => rw [parseTokens_cons_isOk, ih, needsFrom, List.all_cons]

/-- A replacement is read exactly if the expression has all that it needs. -/
theorem parse_isOk (e : Expression) (replacement : String) :
    (parse e replacement).isOk = (needs replacement.toList).all (Need.met e) :=
  parseTokens_isOk e _ _

/-! What follows a symbol is the rest of the symbols, and those are the symbols of the rest of the text. -/

theorem takeName_suffix (found : takeName ts = some (name, after)) : after <:+ ts := by
  induction ts generalizing name with
  | nil => contradiction
  | cons t ts ih =>
    by_cases closes : t = .plain '>'
    · subst closes
      cases found
      exact List.suffix_cons _ _
    · rw [takeName.eq_3 _ _ closes] at found
      obtain ⟨⟨name, after⟩, later, same⟩ := Option.map_eq_some_iff.mp found
      cases same
      exact (ih later).trans (List.suffix_cons t ts)

theorem need_suffix (t : Token) (rest : List Token) : (need t rest).2 <:+ rest := by
  cases t with
  | plain c => exact List.suffix_rfl
  | lone => exact List.suffix_rfl
  | escaped c =>
    rw [need]
    split
    · by_cases opened : ∃ more, rest = .plain '<' :: more
      · obtain ⟨more, rfl⟩ := opened
        rw [angleNeed]
        cases found : takeName more with
        | none => exact List.nil_suffix
        | some found' => exact (takeName_suffix found).trans (List.suffix_cons _ more)
      · rw [angleNeed.eq_2 _ fun more same => opened ⟨more, same⟩]
        exact List.nil_suffix
    · split
      · rw [digitNeed]
        split
        · exact List.drop_suffix _ _
        · split
          · exact List.drop_suffix _ _
          · exact List.drop_suffix _ _
      · exact List.suffix_rfl

end Template

end Colloquy.Regex
