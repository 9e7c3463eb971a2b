import Colloquy.Proofs.Pattern.Symbols
import Colloquy.Proofs.Regex.Inside
import Colloquy.Proofs.Regex.Pieces
import Colloquy.Proofs.Regex.Scan

/-! How an expression is read that is made of pieces and of groups of words. -/

namespace Colloquy.Regex

open Text Pattern

def plainTokens (chars : List Char) : List Token := chars.map .plain

def groupChars (words : List String) : List Char := ['|'].intercalate (words.map String.toList)

def bitTokens : Bit → List Token
  | .piece p => pieceTokens p
  | .group words => .plain '(' :: (plainTokens (groupChars words) ++ [.plain ')'])

def bitsTokens (bits : List Bit) : List Token := bits.flatMap bitTokens

theorem bitsTokens_cons (b : Bit) (bits : List Bit) :
    bitsTokens (b :: bits) = bitTokens b ++ bitsTokens bits := rfl

/-- Whether a group of words has neither groups nor sets nor escapes in it. -/
def Tame : Bit → Prop
  | .piece _ => True
  | .group words => (∀ c ∈ groupChars words, c ∉ ['(', ')', '[', '\\']) ∧
      (groupChars words).head? ≠ some '?'

/-- Whether nothing in a group of words says how often something is repeated. -/
def Unrepeated : Bit → Prop
  | .piece _ => True
  | .group words => ∀ c ∈ groupChars words, c ∉ ['?', '*', '+', '\x7b']

/-- The parts that bits give, the number of the next group being given. Each capture and each group
gets the next number. -/
inductive Renders : Nat → List Bit → List Part → Prop
  | nil (n : Nat) : Renders n [] []
  | piece {n : Nat} (p : Piece) {bits : List Bit} {parts : List Part}
      (rest : Renders (n + pieceGroups p) bits parts) :
      Renders n (.piece p :: bits) (pieceParts n p ++ parts)
  | group {n : Nat} (words : List String) {body : Regex} (groupless : body.groupless = true)
      {bits : List Bit} {parts : List Part} (rest : Renders (n + 1) bits parts) :
      Renders n (.group words :: bits) (.item (.group n body) :: parts)

def bitGroups : Bit → Nat
  | .piece p => pieceGroups p
  | .group _ => 1

def bitsGroups : List Bit → Nat
  | [] => 0
  | b :: bits => bitGroups b + bitsGroups bits

variable {bits : List Bit} {ts : List Token} {steps place groups : Nat} {leading : Bool}
  {parts : List Part} {widths : List (Nat × Width)} {r : Regex} {t : Reading}

theorem scan_chars {chars : List Char} (plain : '\\' ∉ chars) (rest : List Char) :
    Token.scan (chars ++ rest) = plainTokens chars ++ Token.scan rest := by
  induction chars with
  | nil => rfl
  | cons c chars ih =>
    obtain ⟨other, plain⟩ := List.ne_and_not_mem_of_not_mem_cons plain
    rw [List.cons_append, scan_plain other.symm, ih plain]
    rfl

theorem scan_bit {b : Bit} (tame : Tame b) (rest : List Char) :
    Token.scan (b.text ++ rest) = bitTokens b ++ Token.scan rest := by
  cases b with
  | piece p => exact scan_piece p rest
  | group words =>
    have plain : '\\' ∉ groupChars words := fun member => by simpa using tame.1 _ member
    have text : (Bit.group words).text ++ rest = '(' :: (groupChars words ++ ')' :: rest) := by
      simp [Bit.text, groupChars]
    rw [text, scan_plain (by decide), scan_chars plain, scan_plain (by decide), bitTokens]
    simp

/-- The symbols of bits are those of each of them, one after the other. -/
theorem scan_bits (tame : ∀ b ∈ bits, Tame b) : Token.scan (bitText bits) = bitsTokens bits := by
  induction bits with
  | nil => rfl
  | cons b bits ih =>
    obtain ⟨first, tame⟩ := List.forall_mem_cons.mp tame
    rw [bitText, List.flatMap_cons, scan_bit first, ← bitText, ih tame, bitsTokens_cons]

theorem firm_bitsTokens (bits : List Bit) : Firm (bitsTokens bits) := by
  cases bits with
  | nil => simp [Firm, bitsTokens]
  | cons b bits =>
    cases b with
    | group words => simp [Firm, bitsTokens, bitTokens]
    | piece p =>
      have alone := firm_tokensOf [p]
      cases p <;> exact alone

theorem head?_plainTokens (chars : List Char) :
    (plainTokens chars ++ .plain ')' :: ts).head? = some (.plain (chars.head?.getD ')')) := by
  cases chars <;> rfl

theorem simple_of_tame {words : List String} (tame : Tame (.group words)) :
    ∀ t ∈ plainTokens (groupChars words), Simple t := by
  intro t member
  obtain ⟨c, inside, rfl⟩ := List.mem_map.mp member
  exact ⟨c, rfl, fun sign => tame.1 c inside (by simp at sign ⊢; tauto)⟩

theorem unasked_of_tame {words : List String} (tame : Tame (.group words)) :
    (plainTokens (groupChars words) ++ .plain ')' :: ts).head? ≠ some (.plain '?') := by
  rw [head?_plainTokens]
  cases chars : (groupChars words).head? with
  | none => simp
  | some c => simpa [chars] using tame.2

/-- A group of words is read as any other group, as no question mark follows its parenthesis. -/
theorem readSequence_words_eq (words : List String) :
    readSequence (steps + 1) leading parts
        (early (bitTokens (.group words) ++ ts) place groups widths 0) =
      ((readGroup steps leading place parts >>= fun group => match group with
        | none => pure parts
        | some r => pure (.item r :: parts)) >>= readSequence steps leading)
          (early (plainTokens (groupChars words) ++ .plain ')' :: ts) (place + 1) groups widths 0) := by
  have shape : bitTokens (.group words) ++ ts =
      .plain '(' :: (plainTokens (groupChars words) ++ .plain ')' :: ts) := by simp [bitTokens]
  have taken : (discard take? : Reader Unit) (early (.plain '(' :: (plainTokens (groupChars words) ++
      .plain ')' :: ts)) place groups widths 0) =
        .ok ((), early (plainTokens (groupChars words) ++ .plain ')' :: ts) (place + 1) groups
          widths 0) :=
    discard_ok.mpr ⟨_, take?_of_cons (s := early (.plain '(' :: _) place groups widths 0) rfl
      (by rw [head?_plainTokens]; nofun)⟩
  rw [shape, readSequence_succ]
  change (discard take? >>= fun _ => (readGroup steps leading place parts >>= fun group =>
    match group with
    | none => pure parts
    | some r => pure (.item r :: parts)) >>= readSequence steps leading) _ = _
  rw [bind_of_ok taken]

/-- A group of words is read as a group, if it can be read at all. -/
theorem readSequence_words {words : List String} (tame : Tame (.group words))
    (read : readSequence (steps + 1) leading parts
      (early (bitTokens (.group words) ++ ts) place groups widths 0) = .ok (r, t)) :
    ∃ body place' widths', body.groupless = true ∧
      readSequence steps leading (.item (.group groups body) :: parts)
        (early ts place' (groups + 1) widths' 0) = .ok (r, t) := by
  rw [readSequence_words_eq] at read
  obtain ⟨ps, t₂, symbol, read⟩ := ok_of_bind read
  obtain ⟨group, t₁, got, same⟩ := ok_of_bind symbol
  obtain ⟨body, place', widths', rfl, groupless, rfl⟩ :=
    readGroup_simple rfl (simple_of_tame tame) (unasked_of_tame tame) rfl got
  cases same
  exact ⟨body, place', widths', groupless, read⟩

/-- A piece before other bits is read as it is alone. -/
theorem readSequence_piece_bits (p : Piece) (bits : List Bit) (parts : List Part)
    (enough : (bitsTokens (.piece p :: bits)).length + 4 ≤ steps) : ∃ k place' widths',
      (bitsTokens bits).length + 4 ≤ k ∧
      readSequence steps leading parts (early (bitsTokens (.piece p :: bits)) place groups widths 0) =
        readSequence k leading ((pieceParts groups p).reverse ++ parts)
          (early (bitsTokens bits) place' (groups + pieceGroups p) widths' 0) := by
  have few := pieceSteps_le p
  rw [bitsTokens_cons, bitTokens, List.length_append] at enough
  obtain ⟨k, rfl⟩ : ∃ k, steps = k + 4 + pieceSteps p := ⟨steps - pieceSteps p - 4, by omega⟩
  obtain ⟨place', widths', step⟩ :=
    readSequence_piece p (firm_bitsTokens bits) k place groups parts widths
  exact ⟨k + 4, place', widths', by omega, by rw [bitsTokens_cons, bitTokens, step]⟩

/-- What is read of bits, if they can be read at all. -/
theorem readSequence_bits (tame : ∀ b ∈ bits, Tame b) (enough : (bitsTokens bits).length + 4 ≤ steps)
    (read : readSequence steps leading parts (early (bitsTokens bits) place groups widths 0) =
      .ok (r, t)) : ∃ more place' widths', r = sequence (parts.reverse ++ more) ∧
        Renders groups bits more ∧ t = early [] place' (groups + bitsGroups bits) widths' 0 := by
  induction bits generalizing steps place groups widths parts with
  | nil =>
    obtain ⟨k, rfl⟩ : ∃ k, steps = k + 1 := ⟨steps - 1, by omega⟩
    cases read
    exact ⟨[], place, widths, by simp, .nil _, rfl⟩
  | cons b bits ih =>
    obtain ⟨first, others⟩ := List.forall_mem_cons.mp tame
    cases b with
    | piece p =>
      obtain ⟨k, place₁, widths₁, fewer, step⟩ := readSequence_piece_bits p bits parts enough
      rw [step] at read
      obtain ⟨more, place', widths', rfl, renders, rfl⟩ := ih others fewer read
      refine ⟨pieceParts groups p ++ more, place', widths', by simp, .piece p renders, ?_⟩
      simp [bitsGroups, bitGroups, Nat.add_assoc]
    | group words =>
      obtain ⟨k, rfl⟩ : ∃ k, steps = k + 1 := ⟨steps - 1, by omega⟩
      rw [bitsTokens_cons] at enough read
      obtain ⟨body, place₁, widths₁, groupless, read⟩ := readSequence_words first read
      have fewer : (bitsTokens bits).length + 4 ≤ k := by
        simp only [bitTokens, List.length_cons, List.length_append] at enough
        omega
      obtain ⟨more, place', widths', rfl, renders, rfl⟩ := ih others fewer read
      refine ⟨.item (.group groups body) :: more, place', widths', by simp,
        .group words groupless renders, ?_⟩
      simp [bitsGroups, bitGroups, Nat.add_assoc]

theorem nonempty_bitsTokens (nonempty : bits ≠ []) : 0 < (bitsTokens bits).length := by
  obtain ⟨b, more, rfl⟩ := List.exists_cons_of_ne_nil nonempty
  cases b with
  | group words => simp [bitsTokens, bitTokens]
  | piece p => cases p <;> simp [bitsTokens, bitTokens, pieceTokens]

/-- An expression of bits has a group for each capture and each group of words, in this order. -/
theorem parse_bits {e : Expression} (nonempty : bits ≠ []) (tame : ∀ b ∈ bits, Tame b)
    (parsed : Expression.parse (String.ofList (bitText bits)) false = .ok e) :
    e.groups = bitsGroups bits ∧ ∃ parts, e.body = sequence parts ∧ Renders 1 bits parts := by
  have symbols := nonempty_bitsTokens nonempty
  obtain ⟨t, read, same⟩ := parse_ok.mp parsed
  rw [String.toList_ofList, scan_bits tame, readWhole_ok] at read
  obtain ⟨_, branches, _⟩ := read
  rw [readBranches] at branches
  obtain ⟨first, t₁, got, last⟩ := ok_of_bind branches
  have got : readSequence _ true [] (early (bitsTokens bits) 0 1 [] 0) = .ok (first, t₁) := got
  obtain ⟨parts, place', widths', rfl, renders, rfl⟩ := readSequence_bits tame (by omega) got
  rw [bind_of_ok (takeIf_early (by simp)), if_neg Bool.false_ne_true] at last
  obtain ⟨body, state⟩ := Prod.mk.inj (Except.ok.inj last)
  have count := congrArg Expression.groups same
  rw [← state] at count
  exact ⟨count.trans (Nat.add_sub_cancel_left 1 _), parts, body.symm, renders⟩

theorem literal_of_unrepeated {words : List String} (tame : Tame (.group words))
    (unrepeated : Unrepeated (.group words)) : ∀ t ∈ plainTokens (groupChars words), Literal t := by
  intro t member
  obtain ⟨c, inside, rfl⟩ := List.mem_map.mp member
  refine ⟨c, rfl, fun sign => ?_⟩
  have calm := tame.1 c inside
  have once := unrepeated c inside
  simp at sign calm once
  tauto

/-- Bits can be read if no word of a group in them is repeated. -/
theorem readSequence_bits_ok (tame : ∀ b ∈ bits, Tame b) (unrepeated : ∀ b ∈ bits, Unrepeated b)
    (enough : (bitsTokens bits).length + 4 ≤ steps) : ∃ r t,
      readSequence steps leading parts (early (bitsTokens bits) place groups widths 0) =
        .ok (r, t) := by
  induction bits generalizing steps place groups widths parts with
  | nil =>
    obtain ⟨k, rfl⟩ : ∃ k, steps = k + 1 := ⟨steps - 1, by omega⟩
    exact ⟨_, _, rfl⟩
  | cons b bits ih =>
    obtain ⟨first, others⟩ := List.forall_mem_cons.mp tame
    obtain ⟨first', others'⟩ := List.forall_mem_cons.mp unrepeated
    cases b with
    | piece p =>
      obtain ⟨k, place', widths', fewer, step⟩ := readSequence_piece_bits p bits parts enough
      rw [step]
      exact ih others others' fewer
    | group words =>
      obtain ⟨k, rfl⟩ : ∃ k, steps = k + 1 := ⟨steps - 1, by omega⟩
      rw [bitsTokens_cons]
      simp only [bitsTokens_cons, bitTokens, List.length_cons, List.length_append, List.length_nil] at enough
      obtain ⟨⟨group, u⟩, read⟩ : ∃ result, readGroup k leading place parts (early (plainTokens
          (groupChars words) ++ .plain ')' :: bitsTokens bits) (place + 1) groups widths 0) =
            .ok result :=
        readGroup_literal rfl (literal_of_unrepeated first first') (firm_bitsTokens bits).1 rfl
          (Nat.zero_lt_succ _) (by omega)
      obtain ⟨body, place', widths', rfl, _, rfl⟩ :=
        readGroup_simple rfl (simple_of_tame first) (unasked_of_tame first) rfl read
      rw [readSequence_words_eq, bind_assoc, bind_of_ok read, pure_bind]
      exact ih others others' (by omega)

/-- Bits with tame groups of words that repeat nothing are a regular expression. -/
theorem parse_bits_ok (nonempty : bits ≠ []) (tame : ∀ b ∈ bits, Tame b)
    (unrepeated : ∀ b ∈ bits, Unrepeated b) :
    ∃ e, Expression.parse (String.ofList (bitText bits)) false = .ok e := by
  have symbols := nonempty_bitsTokens nonempty
  obtain ⟨r, t, read⟩ : ∃ r t, readSequence (4 * (bitsTokens bits).length + 3) true []
      (early (bitsTokens bits) 0 1 [] 0) = .ok (r, t) :=
    readSequence_bits_ok tame unrepeated (by omega)
  obtain ⟨_, place', widths', _, _, rfl⟩ := readSequence_bits tame (by omega) read
  refine ⟨⟨_, r, _, _⟩, parse_ok.mpr ⟨early [] place' (1 + bitsGroups bits) widths' 0, ?_, rfl⟩⟩
  rw [String.toList_ofList, scan_bits tame]
  refine readWhole_ok.mpr ⟨(firm_bitsTokens bits).1, ?_, rfl, nofun, rfl⟩
  change readBranches _ true (early (bitsTokens bits) 0 1 [] 0) = _
  rw [readBranches, bind_of_ok read, bind_of_ok (takeIf_early (by simp))]
  rfl

end Colloquy.Regex
