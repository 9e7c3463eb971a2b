import Colloquy.Proofs.Pattern.Phrase
import Colloquy.Proofs.Regex.Opening

/-! How an expression is read piece by piece. -/

namespace Colloquy.Regex

open Text Pattern

/-! Symbols. -/

def pieceTokens : Piece → List Token
  | .capture => [.escaped 's', .plain '*', .plain '(', .plain '.', .plain '*', .plain ')',
      .escaped 's', .plain '*']
  | .edge => [.escaped 'b']
  | .gap => [.escaped 's', .plain '+']
  | .letter l => [.plain l.val]

def tokensOf (ps : List Piece) : List Token := ps.flatMap pieceTokens

theorem scan_piece (p : Piece) (rest : List Char) :
    Token.scan (p.text ++ rest) = pieceTokens p ++ Token.scan rest := by
  cases p with
  | letter l =>
    have other : l.val ≠ '\\' := letter_ne l (by decide)
    rw [Piece.text, List.singleton_append, Token.scan]
    · rfl
    · exact fun same _ => other same
    · exact fun _ _ same _ => other same
  | _ => rfl

/-- The symbols of pieces are those of each of them, one after the other. -/
theorem scan_written (ps : List Piece) : Token.scan (written ps) = tokensOf ps := by
  induction ps with
  | nil => rfl
  | cons p ps ih => rw [written_cons, scan_piece, ih, tokensOf, tokensOf, List.flatMap_cons]

theorem firm_tokensOf (ps : List Piece) : Firm (tokensOf ps) := by
  cases ps with
  | nil => simp [Firm, tokensOf]
  | cons p ps =>
    cases p with
    | letter l =>
      have query := letter_ne l (c := '?') (by decide)
      have plus := letter_ne l (c := '+') (by decide)
      simp [Firm, tokensOf, pieceTokens, query, plus]
    | _ => simp [Firm, tokensOf, pieceTokens]

/-! One step of reading for each piece. -/

variable {steps place groups : Nat} {leading : Bool} {parts : List Part} {ts : List Token}
  {widths : List (Nat × Width)}

theorem readSequence_edge (firm : Firm ts) :
    readSequence (steps + 1) leading parts (early (.escaped 'b' :: ts) place groups widths 0) =
      readSequence steps leading (.place (.edge false) :: parts)
        (early ts (place + 2) groups widths 0) := by
  change (discard take? >>= fun _ => readEscape 'b' place >>= fun p =>
    readSequence steps leading (p :: parts)) (early (.escaped 'b' :: ts) place groups widths 0) = _
  rw [bind_of_ok (discard_early firm)]
  rfl

theorem readSequence_letter (l : Letter) (firm : Firm ts) :
    readSequence (steps + 1) leading parts (early (.plain l.val :: ts) place groups widths 0) =
      readSequence steps leading (.item (.one (.one l.val.toNat false)) :: parts)
        (early ts (place + 1) groups widths 0) := by
  have sign (c : Char) (other : isWord c = false) : ¬l.val = c := letter_ne l other
  generalize l.val = c at sign ⊢
  have start : here (early (.plain c :: ts) place groups widths 0) =
      .ok (place, early (.plain c :: ts) place groups widths 0) := rfl
  have state : (get : Reader Reading) (early (.plain c :: ts) place groups widths 0) =
      .ok (early (.plain c :: ts) place groups widths 0,
        early (.plain c :: ts) place groups widths 0) := rfl
  have rest : (early (.plain c :: ts) place groups widths 0).rest = .plain c :: ts := rfl
  have tight : (early (.plain c :: ts) place groups widths 0).flags.verbose = false := rfl
  rw [readSequence, bind_of_ok start, bind_of_ok state]
  refine (congrFun (?_ : _ = discard take? >>= fun _ =>
    readSequence steps leading (.item (.one (.one c.toNat false)) :: parts)) _).trans ?_
  · simp only [rest, tight, Bool.false_and, Bool.false_eq_true, if_false]
    split
    · contradiction
    · next same => exact absurd (by simpa using (List.cons.inj same).1) (sign '|' (by decide))
    · next same => exact absurd (by simpa using (List.cons.inj same).1) (sign ')' (by decide))
    · next same =>
      obtain ⟨rfl, _⟩ := List.cons.inj same
      congr 1
      funext _
      dsimp only
      split
      case h_10 => rfl
      all_goals exact absurd rfl (sign _ (by decide))
  · rw [bind_of_ok (discard_early firm)]
    rfl

theorem readSequence_capture (firm : Firm ts) :
    readSequence (steps + 9) leading parts
        (early (pieceTokens .capture ++ ts) place groups widths 0) =
      readSequence (steps + 4) leading
        (.repeated blanks :: .item (.group groups anyText) :: .repeated blanks :: parts)
        (early ts (place + 10) (groups + 1) ((groups, anyText.width widths) :: widths) 0) := by
  have opens : Firm (.plain '(' :: inner (.plain '*' :: ts)) := by simp [Firm]
  change readSequence (steps + 9) leading parts
    (early (openingTokens ts) place groups widths 0) = _
  rw [openingTokens, readSequence_blank, readSequence_repeat (.inl ⟨rfl, rfl⟩) opens,
    readSequence_group, readSequence_blank, readSequence_repeat (.inl ⟨rfl, rfl⟩) firm]
  rfl

/-- The parts that a piece gives, the number of the next group being given. -/
def pieceParts (number : Nat) : Piece → List Part
  | .capture => [.repeated blanks, .item (.group number anyText), .repeated blanks]
  | .edge => [.place (.edge false)]
  | .gap => [.repeated (.run blankTest 1 none)]
  | .letter l => [.item (.one (.one l.val.toNat false))]

def pieceGroups : Piece → Nat
  | .capture => 1
  | _ => 0

def pieceSteps : Piece → Nat
  | .capture => 5
  | .gap => 2
  | _ => 1

/-- A piece is read in as many steps as it takes, and adds its parts. -/
theorem readSequence_piece (p : Piece) (firm : Firm ts) (steps place groups : Nat)
    (parts : List Part) (widths : List (Nat × Width)) : ∃ place' widths',
    readSequence (steps + 4 + pieceSteps p) leading parts
        (early (pieceTokens p ++ ts) place groups widths 0) =
      readSequence (steps + 4) leading ((pieceParts groups p).reverse ++ parts)
        (early ts place' (groups + pieceGroups p) widths' 0) := by
  cases p with
  | capture => exact ⟨_, _, readSequence_capture firm⟩
  | edge => exact ⟨_, _, readSequence_edge firm⟩
  | gap =>
    have step : readSequence (steps + 6) leading parts
          (early (.escaped 's' :: .plain '+' :: ts) place groups widths 0) =
        readSequence (steps + 4) leading (.repeated (.run blankTest 1 none) :: parts)
          (early ts (place + 3) groups widths 0) := by
      rw [readSequence_blank, readSequence_repeat (.inr ⟨rfl, rfl⟩) firm]
    exact ⟨_, _, step⟩
  | letter l => exact ⟨_, _, readSequence_letter l firm⟩

/-! All pieces. -/

def stepsOf : List Piece → Nat
  | [] => 0
  | p :: ps => pieceSteps p + stepsOf ps

def groupsOf : List Piece → Nat
  | [] => 0
  | p :: ps => pieceGroups p + groupsOf ps

def partsOf : (number : Nat) → List Piece → List Part
  | _, [] => []
  | number, p :: ps => pieceParts number p ++ partsOf (number + pieceGroups p) ps

/-- A sequence is read from the tokens of its pieces. Each piece uses up its own steps, and leaves those
for the others and four more. -/
theorem readSequence_pieces (ps : List Piece) (steps place groups : Nat) (parts : List Part)
    (widths : List (Nat × Width)) : ∃ place' widths',
    readSequence (steps + 4 + stepsOf ps) leading parts
        (early (tokensOf ps) place groups widths 0) =
      .ok (sequence (parts.reverse ++ partsOf groups ps),
        early [] place' (groups + groupsOf ps) widths' 0) := by
  induction ps generalizing place groups widths parts with
  | nil =>
    refine ⟨place, widths, ?_⟩
    change readSequence (steps + 3 + 1) leading parts (early [] place groups widths 0) = _
    rw [partsOf, List.append_nil]
    rfl
  | cons p ps ih =>
    obtain ⟨place₁, widths₁, first⟩ := readSequence_piece p (firm_tokensOf ps)
      (steps + stepsOf ps) place groups parts widths
    obtain ⟨place₂, widths₂, others⟩ := ih place₁ (groups + pieceGroups p)
      ((pieceParts groups p).reverse ++ parts) widths₁
    refine ⟨place₂, widths₂, ?_⟩
    have fuel : steps + 4 + stepsOf (p :: ps) =
        steps + stepsOf ps + 4 + pieceSteps p := by
      rw [stepsOf]
      omega
    rw [Nat.add_right_comm steps] at others
    rw [fuel, tokensOf, List.flatMap_cons]
    refine first.trans (others.trans ?_)
    simp [partsOf, groupsOf, Nat.add_assoc]

theorem pieceSteps_le (p : Piece) : pieceSteps p ≤ (pieceTokens p).length := by
  cases p <;> simp [pieceSteps, pieceTokens]

theorem stepsOf_le (ps : List Piece) : stepsOf ps ≤ (tokensOf ps).length := by
  induction ps with
  | nil => exact Nat.le_refl 0
  | cons p ps ih =>
    have first := pieceSteps_le p
    simp only [stepsOf, tokensOf, List.flatMap_cons, List.length_append] at ih ⊢
    omega

/-- Pieces are an expression: the sequence of their parts. -/
theorem readWhole_pieces (ps : List Piece) (steps : Nat) : ∃ place' widths',
    readWhole (steps + 5 + stepsOf ps) (early (tokensOf ps) 0 1 [] 0) =
      .ok (sequence (partsOf 1 ps), early [] place' (1 + groupsOf ps) widths' 0) := by
  obtain ⟨place', widths', read⟩ := readSequence_pieces ps steps 0 1 [] []
  refine ⟨place', widths', ?_⟩
  have fuel : steps + 5 + stepsOf ps = steps + 4 + stepsOf ps + 1 := by
    omega
  rw [readWhole, bind_of_ok (refuseLone_early (firm_tokensOf ps)), fuel]
  have branches : readBranches (steps + 4 + stepsOf ps + 1) true
      (early (tokensOf ps) 0 1 [] 0) =
        .ok (sequence (partsOf 1 ps),
          early [] place' (1 + groupsOf ps) widths' 0) := by
    rw [readBranches, bind_of_ok read, bind_of_ok (takeIf_early (by simp))]
    rfl
  rw [bind_of_ok branches]
  rfl

/-- An expression written in pieces is the sequence of their parts. -/
theorem parse_written {ps : List Piece} (nonempty : ps ≠ []) :
    ∃ e, Expression.parse (String.ofList (written ps)) false = .ok e ∧
      e.source = String.ofList (written ps) ∧ e.body = sequence (partsOf 1 ps) ∧
      e.groups = groupsOf ps := by
  have enough := stepsOf_le ps
  have symbols : 0 < (tokensOf ps).length := by
    obtain ⟨p, more, rfl⟩ := List.exists_cons_of_ne_nil nonempty
    cases p <;> simp [tokensOf, pieceTokens]
  obtain ⟨steps, fuel⟩ : ∃ steps,
      4 * (tokensOf ps).length + 4 = steps + 5 + stepsOf ps :=
    ⟨4 * (tokensOf ps).length + 4 - 5 - stepsOf ps, by omega⟩
  obtain ⟨place', widths', read⟩ := readWhole_pieces ps steps
  rw [Expression.parse, String.toList_ofList, scan_written, fuel]
  refine ⟨⟨String.ofList (written ps), sequence (partsOf 1 ps),
    1 + groupsOf ps - 1, []⟩, ?_, rfl, rfl, ?_⟩
  · refine bind_eq_ok.mpr ⟨_, read, rfl⟩
  · exact Nat.add_sub_cancel_left 1 _

/-! Groups. -/

theorem groupsOf_append (ps qs : List Piece) : groupsOf (ps ++ qs) = groupsOf ps + groupsOf qs := by
  induction ps with
  | nil => simp [groupsOf]
  | cons p ps ih => simp [groupsOf, ih, Nat.add_assoc]

theorem groupsOf_word (w : Word) : groupsOf w.pieces = 0 := by
  rw [Word.pieces]
  induction w.letters with
  | nil => rfl
  | cons l letters ih => simpa [groupsOf, pieceGroups] using ih

theorem groupsOf_phrase (p : Phrase) : groupsOf p.pieces = 0 := by
  have others (more : List (Gap × Word)) : groupsOf (spacedPieces more) = 0 := by
    induction more with
    | nil => rfl
    | cons m more ih =>
      simpa [spacedPieces, groupsOf, groupsOf_append, pieceGroups, groupsOf_word] using ih
  rw [Phrase.pieces, groupsOf_append, groupsOf_word, others]

theorem groupsOf_piecesOf (phrases : List Phrase) :
    groupsOf (piecesOf phrases) = phrases.length + 1 := by
  induction phrases with
  | nil => rfl
  | cons p rest ih =>
    simp [piecesOf, groupsOf, groupsOf_append, groupsOf_phrase, pieceGroups, ih, Nat.add_comm]

end Colloquy.Regex
