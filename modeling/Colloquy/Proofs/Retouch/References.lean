import Colloquy.Proofs.Regex.Replacement
import Colloquy.Retouch

/-! The check of a replacement, next to its use. The check sees every reference by number, with the digits
that follow it. It sees no names and no mistakes, and takes for a reference what is none behind a backslash
that is itself escaped. -/

namespace Colloquy.Retouch

open Text Regex Regex.Template

variable {e : Expression} {text later more digits seen : List Char} {c : Char} {ts : List Token} {n : Need}

def digits? : Need → Option (List Char)
  | .number digits => some digits
  | .angled name => if !name.isEmpty && name.all isDigit then some name else none
  | _ => none

/-! What the check sees. -/

theorem digitsAt?_spec (found : digitsAt? text = some seen) :
    seen ≠ [] ∧ ∀ c ∈ seen, isDigit c = true := by
  have all (l : List Char) : ∀ c ∈ l.takeWhile isDigit, isDigit c = true :=
    List.all_eq_true.mp List.all_takeWhile
  unfold digitsAt? at found
  split at found
  · split at found
    · next more _ =>
      split at found
      · contradiction
      · next _ _ _ some_ =>
        cases found
        exact ⟨some_, all more⟩
      · contradiction
    · contradiction
  · next some_ =>
    cases found
    exact ⟨some_, all text⟩

theorem references_spec (member : seen ∈ references text) : seen ≠ [] ∧ ∀ c ∈ seen, isDigit c = true := by
  induction text with
  | nil => contradiction
  | cons c rest ih =>
    rw [references] at member
    split at member
    · rcases List.mem_append.mp member with here | member
      · exact digitsAt?_spec (Option.mem_toList.mp here)
      · exact ih member
    · exact ih member

/-- The references at the end of a replacement are references of the whole of it. -/
theorem references_suffix (ends : later <:+ text) (member : seen ∈ references later) :
    seen ∈ references text := by
  induction text with
  | nil => rwa [List.suffix_nil.mp ends] at member
  | cons c rest ih =>
    rcases List.suffix_cons_iff.mp ends with rfl | ends
    · exact member
    · rw [references]
      split
      · exact List.mem_append_right _ (ih ends)
      · exact ih ends

/-! Every group that is needed by number is seen. -/

theorem scan_eq_plain_cons (scanned : Token.scan text = .plain c :: ts) :
    ∃ rest, text = c :: rest ∧ ts = Token.scan rest := by
  unfold Token.scan at scanned
  split at scanned
  · cases scanned
  · cases scanned
  · cases scanned
  · cases scanned
    exact ⟨_, rfl, rfl⟩

theorem scan_eq_escaped_cons (scanned : Token.scan text = .escaped c :: ts) :
    ∃ rest, text = '\\' :: c :: rest ∧ ts = Token.scan rest := by
  unfold Token.scan at scanned
  split at scanned
  · cases scanned
  · cases scanned
  · cases scanned
    exact ⟨_, rfl, rfl⟩
  · cases scanned

/-- A further digit that the use takes is one that the check takes. -/
theorem leading_isPrefix (text : List Char) :
    leading isPlainDigit 1 (Token.scan text) <+: text.takeWhile isDigit := by
  cases scanned : Token.scan text with
  | nil => exact List.nil_prefix
  | cons t ts =>
    cases t with
    | lone => exact List.nil_prefix
    | escaped c => exact List.nil_prefix
    | plain c =>
      obtain ⟨rest, rfl, _⟩ := scan_eq_plain_cons scanned
      cases plain : isPlainDigit c with
      | false => simp [leading, plainIn, plain]
      | true =>
        have digit := (isDigit_of_isPlainDigit plain).1
        simp [leading, plainIn, plain, Token.chars, digit]

theorem digitsAt?_of_isDigit (digit : isDigit c = true) :
    digitsAt? (c :: text) = some (c :: text.takeWhile isDigit) := by
  unfold digitsAt?
  rw [List.takeWhile_cons_of_pos digit]

theorem digitsAt?_angled (some_ : digits ≠ []) (taken : text.takeWhile isDigit = digits)
    (closed : (text.dropWhile isDigit).head? = some '>') : digitsAt? ('g' :: '<' :: text) = some digits := by
  obtain ⟨tail, closed⟩ := List.head?_eq_some_iff.mp closed
  have letter : ¬isDigit 'g' = true := by decide
  unfold digitsAt?
  rw [List.takeWhile_cons_of_neg letter]
  simp only [taken, closed]

/-- Digits up to a closing angle bracket are read as they stand. -/
theorem takeWhile_of_takeName {after : List Token} (found : takeName (Token.scan text) = some (digits, after))
    (all : ∀ d ∈ digits, isDigit d = true) :
    text.takeWhile isDigit = digits ∧ (text.dropWhile isDigit).head? = some '>' := by
  induction text generalizing digits with
  | nil => contradiction
  | cons c rest ih =>
    by_cases slash : c = '\\'
    · subst slash
      have backslash : isDigit '\\' = false := by decide
      cases rest with
      | nil => contradiction
      | cons d rest =>
        rw [Token.scan, takeName.eq_3 _ _ (by simp)] at found
        obtain ⟨⟨name, after⟩, _, same⟩ := Option.map_eq_some_iff.mp found
        cases same
        rw [all '\\' List.mem_cons_self] at backslash
        contradiction
    · rw [scan_plain slash] at found
      by_cases closes : c = '>'
      · subst closes
        cases found
        exact ⟨rfl, rfl⟩
      · rw [takeName.eq_3 _ _ (by simpa using closes)] at found
        obtain ⟨⟨name, after⟩, later, same⟩ := Option.map_eq_some_iff.mp found
        cases same
        obtain ⟨first, others⟩ := List.forall_mem_cons.mp all
        rw [List.takeWhile_cons_of_pos first, List.dropWhile_cons_of_pos first]
        obtain ⟨taken, next⟩ := ih later others
        exact ⟨by rw [taken]; rfl, next⟩

/-- The check sees a group that an escaped character needs by number, with all digits that follow. -/
theorem digitsAt?_of_need (asks : digits? (need (.escaped c) (Token.scan text)).1 = some digits) :
    digits ≠ [] ∧ ∃ seen, digitsAt? (c :: text) = some seen ∧ digits <+: seen := by
  rw [need] at asks
  split at asks
  · next angle =>
    subst angle
    by_cases opened : ∃ more, Token.scan text = .plain '<' :: more
    · obtain ⟨more, scanned⟩ := opened
      obtain ⟨rest, rfl, rfl⟩ := scan_eq_plain_cons scanned
      rw [scanned, angleNeed] at asks
      cases found : takeName (Token.scan rest) with
      | none =>
        rw [found] at asks
        contradiction
      | some named =>
        obtain ⟨name, after⟩ := named
        rw [found] at asks
        dsimp only [digits?] at asks
        split at asks
        · next number =>
          cases asks
          simp only [Bool.and_eq_true, Bool.not_eq_true', List.isEmpty_eq_false_iff] at number
          obtain ⟨some_, all⟩ := number
          obtain ⟨taken, next⟩ := takeWhile_of_takeName found (List.all_eq_true.mp all)
          exact ⟨some_, _, digitsAt?_angled some_ taken next, List.prefix_rfl⟩
        · contradiction
    · rw [angleNeed.eq_2 _ fun more same => opened ⟨more, same⟩] at asks
      contradiction
  · split at asks
    · next plain =>
      have number : digits = c :: leading isPlainDigit 1 (Token.scan text) := by
        rw [digitNeed] at asks
        split at asks
        · contradiction
        · split at asks
          · dsimp only at asks
            split at asks
            · contradiction
            · contradiction
          · exact (Option.some.inj asks).symm
      rw [number]
      refine ⟨List.cons_ne_nil c _, _, digitsAt?_of_isDigit (isDigit_of_isPlainDigit plain).1, ?_⟩
      exact (List.prefix_cons_inj c).mpr (leading_isPrefix text)
    · dsimp only at asks
      split at asks
      · contradiction
      · contradiction

/-- A group that is needed by number is seen by the check, by digits of which the needed ones are the
first. -/
theorem exists_seen {steps : Nat} (member : n ∈ needsFrom steps (Token.scan text))
    (asks : digits? n = some digits) : digits ≠ [] ∧ ∃ seen ∈ references text, digits <+: seen := by
  induction steps generalizing text with
  | zero =>
    cases scanned : Token.scan text with
    | nil =>
      rw [scanned] at member
      contradiction
    | cons t rest =>
      rw [scanned, needsFrom, List.mem_singleton] at member
      subst member
      contradiction
  | succ steps ih =>
    cases scanned : Token.scan text with
    | nil =>
      rw [scanned] at member
      contradiction
    | cons t rest =>
      rw [scanned, needsFrom] at member
      rcases List.mem_cons.mp member with rfl | member
      · cases t with
        | plain c => contradiction
        | lone => contradiction
        | escaped c =>
          obtain ⟨text, rfl, rfl⟩ := scan_eq_escaped_cons scanned
          obtain ⟨some_, seen, found, begins⟩ := digitsAt?_of_need asks
          refine ⟨some_, seen, ?_, begins⟩
          rw [references, if_pos rfl, found]
          exact List.mem_append_left _ (List.mem_singleton_self seen)
      · have ends : (need t rest).2 <:+ Token.scan text := by
          rw [scanned]
          exact (need_suffix t rest).trans (List.suffix_cons t rest)
        obtain ⟨later, ends, same⟩ := scan_suffix ends
        rw [same] at member
        obtain ⟨some_, seen, inside, begins⟩ := ih member
        exact ⟨some_, seen, references_suffix ends inside, begins⟩

/-! The check and the use. -/

/-- What is needed by number is there exactly if its number is in range. -/
theorem met_of_digits? (asks : digits? n = some digits) : n.met e = inRange e digits := by
  cases n with
  | nothing => contradiction
  | number ds =>
    cases asks
    rfl
  | angled name =>
    rw [digits?] at asks
    split at asks
    · next number =>
      cases asks
      rw [Bool.and_eq_true] at number
      exact namedPiece_isOk (List.all_eq_true.mp number.2)
    · contradiction
  | impossible => contradiction

theorem checkReferences_eq_ok (r : Script.Retouch) (e : Expression) (seens : List (List Char)) :
    checkReferences r e.groups seens = .ok () ↔ ∀ seen ∈ seens, inRange e seen = true := by
  induction seens with
  | nil => exact iff_of_true rfl (by simp)
  | cons digits rest ih =>
    rw [List.forall_mem_cons, ← ih, checkReferences, inRange]
    cases natural? digits with
    | none => simp
    | some group =>
      by_cases there : group ≤ e.groups
      · simp [there, Nat.not_lt.mpr there]
      · simp [there, Nat.lt_of_not_le there]

variable {r : Script.Retouch} {replacement : String}

/-- A retouching is made ready just if every reference that the check sees is in range. -/
theorem compile_eq_ok (parsed : Expression.parse r.pattern false = .ok e) {c : Retouch} :
    compile r = .ok c ↔
      (∀ seen ∈ references r.replacement.toList, inRange e seen = true) ∧ ⟨e, r.replacement⟩ = c := by
  rw [← checkReferences_eq_ok r e, compile, parsed]
  dsimp only
  rw [bind_eq_ok]
  constructor
  · rintro ⟨_, checked, made⟩
    exact ⟨checked, Except.ok.inj made⟩
  · rintro ⟨checked, rfl⟩
    exact ⟨(), checked, rfl⟩

theorem apply_isOk (e : Expression) (replacement : String) (text : List Char) :
    ((Retouch.mk e replacement).apply text).isOk = (needs replacement.toList).all (Need.met e) := by
  rw [← parse_isOk, apply, Expression.replace]
  cases Template.parse e replacement with
  | ok pieces => rfl
  | error why => cases why <;> rfl

/-- Whether a replacement can be used with an expression, whatever the text. -/
def Usable (e : Expression) (replacement : String) : Prop :=
  ∀ text, ∃ touched, (Retouch.mk e replacement).apply text = .ok touched

/-- A replacement can be used with any text just if the needs of all its symbols are met. -/
theorem usable_iff : Usable e replacement ↔ ∀ n ∈ needs replacement.toList, n.met e = true := by
  rw [Usable, ← List.all_eq_true]
  simp only [← isOk_iff, apply_isOk]
  exact ⟨fun usable => usable [], fun met _ => met⟩

/-- Whether all that the check sees is in range, but something is needed that is no group by number, and
is not there. -/
def Unchecked (e : Expression) (replacement : String) : Prop :=
  (∀ seen ∈ references replacement.toList, inRange e seen = true) ∧
    ∃ n ∈ needs replacement.toList, digits? n = none ∧ n.met e = false

/-- Whether all that is needed is there, but the check sees a number that is out of range, and that is
not needed. -/
def Phantom (e : Expression) (replacement : String) : Prop :=
  (∀ n ∈ needs replacement.toList, n.met e = true) ∧
    ∃ seen ∈ references replacement.toList, inRange e seen = false ∧
      ∀ n ∈ needs replacement.toList, digits? n ≠ some seen

/-- What passes the check can be used, unless something is unchecked; what can be used passes the check,
unless it sees a phantom. -/
theorem checked_iff_usable (parsed : Expression.parse r.pattern false = .ok e) :
    ((∀ c, compile r = .ok c → Usable c.expression c.replacement) ↔ ¬Unchecked e r.replacement) ∧
      ((Usable e r.replacement → ∃ c, compile r = .ok c) ↔ ¬Phantom e r.replacement) := by
  simp only [compile_eq_ok parsed, usable_iff]
  constructor
  · constructor
    · rintro sound ⟨seen, n, member, _, unmet⟩
      have met := sound _ ⟨seen, rfl⟩ n member
      rw [unmet] at met
      contradiction
    · rintro checked _ ⟨inside, rfl⟩ n member
      by_contra unmet
      have unmet : n.met e = false := Bool.not_eq_true _ ▸ unmet
      cases asks : digits? n with
      | none => exact checked ⟨inside, n, member, asks, unmet⟩
      | some digits =>
        obtain ⟨some_, seen, found, begins⟩ := exists_seen member asks
        have there := inside seen found
        rw [inRange, Option.any_eq_true] at there
        obtain ⟨m, read, below⟩ := there
        obtain ⟨k, smaller, read'⟩ := natural?_prefix some_ begins (references_spec found).2 read
        have enough : k ≤ e.groups := Nat.le_trans smaller (of_decide_eq_true below)
        rw [met_of_digits? asks, inRange, read'] at unmet
        simp [enough] at unmet
  · constructor
    · rintro complete ⟨met, seen, found, outside, _⟩
      obtain ⟨_, inside, _⟩ := complete met
      rw [inside seen found] at outside
      contradiction
    · intro unseen met
      refine ⟨_, fun seen found => ?_, rfl⟩
      by_contra outside
      have outside : inRange e seen = false := Bool.not_eq_true _ ▸ outside
      refine unseen ⟨met, seen, found, outside, fun n member asks => ?_⟩
      have own := met n member
      rw [met_of_digits? asks, outside] at own
      contradiction

instance (e : Expression) (replacement : String) : Decidable (Unchecked e replacement) :=
  inferInstanceAs (Decidable (_ ∧ _))

instance (e : Expression) (replacement : String) : Decidable (Phantom e replacement) :=
  inferInstanceAs (Decidable (_ ∧ _))

def swap : Script.Retouch := ⟨"(a+) (b)", "\\\\\\2 \\g<1>"⟩

theorem swap_checked : ∃ e, Expression.parse swap.pattern false = .ok e ∧
    (∀ c, compile swap = .ok c → Usable c.expression c.replacement) ∧
    (Usable e swap.replacement → ∃ c, compile swap = .ok c) := by
  have checked : (Expression.parse swap.pattern false).toOption.any fun e =>
      decide (¬Unchecked e swap.replacement ∧ ¬Phantom e swap.replacement) := by
    decide +kernel
  obtain ⟨e, parsed, clear⟩ := exists_of_any checked
  obtain ⟨sound, complete⟩ := checked_iff_usable parsed
  obtain ⟨checked, unseen⟩ := of_decide_eq_true clear
  exact ⟨e, parsed, sound.mpr checked, complete.mpr unseen⟩

def slashed : Script.Retouch := ⟨"a", "\\\\1"⟩

def misspelt : Script.Retouch := ⟨"a", "\\q"⟩

/-- What can be used is refused, and what can never be used is not. -/
theorem check_apart_from_use :
    (∃ e, Expression.parse slashed.pattern false = .ok e ∧ Usable e slashed.replacement ∧
        ∀ c, compile slashed ≠ .ok c) ∧
      ∃ c, compile misspelt = .ok c ∧ ¬Usable c.expression c.replacement := by
  have refused : (Expression.parse slashed.pattern false).toOption.any fun e =>
      decide (Phantom e slashed.replacement) := by
    decide +kernel
  have accepted : (Expression.parse misspelt.pattern false).toOption.any fun e =>
      decide (Unchecked e misspelt.replacement) := by
    decide +kernel
  obtain ⟨e, parsed, phantom⟩ := exists_of_any refused
  obtain ⟨met, seen, found, outside, _⟩ := of_decide_eq_true phantom
  obtain ⟨e', parsed', unchecked⟩ := exists_of_any accepted
  obtain ⟨inside, n, member, _, unmet⟩ := of_decide_eq_true unchecked
  constructor
  · refine ⟨e, parsed, usable_iff.mpr met, fun c made => ?_⟩
    rw [((compile_eq_ok parsed).mp made).1 seen found] at outside
    contradiction
  · refine ⟨⟨e', misspelt.replacement⟩, (compile_eq_ok parsed').mpr ⟨inside, rfl⟩, fun usable => ?_⟩
    rw [usable_iff.mp usable n member] at unmet
    contradiction

end Colloquy.Retouch
