import Colloquy.Proofs.Rules.Descent

/-! Rules of a script that can be made ready, known from the characters of their expressions. -/

namespace Colloquy

namespace Regex

def readChars (chars : List Char) (ignoreCase : Bool) : Except Error (Regex × Reading) :=
  let tokens := Token.scan chars
  (readWhole (4 * tokens.length + 4)).run
    { rest := tokens, place := 0, groups := 1, names := [], widths := [], behindFrom := none
      flags := { Flags.none with ignoreCase }, conditions := [], loose := false, depth := 0 }

theorem parse_eq_readChars (source : String) (ignoreCase : Bool) :
    Expression.parse source ignoreCase = (readChars source.toList ignoreCase).map fun p =>
      ⟨source, p.1, p.2.groups - 1, p.2.names⟩ := by
  rw [Expression.parse, readChars]
  dsimp only
  generalize StateT.run _ _ = read
  cases read <;> rfl

def isReadable (chars : List Char) (ignoreCase : Bool) : Bool :=
  (readChars chars ignoreCase).toOption.isSome

/-- What is readable by its characters is an expression. -/
theorem exists_parse_of_isReadable {source : String} {ignoreCase : Bool}
    (readable : isReadable source.toList ignoreCase = true) :
    ∃ e, Expression.parse source ignoreCase = .ok e := by
  rw [parse_eq_readChars]
  rw [isReadable] at readable
  cases read : readChars source.toList ignoreCase with
  | error fault =>
    rw [read] at readable
    contradiction
  | ok p => exact ⟨_, rfl⟩

end Regex

namespace Pattern

def expressionOf (synonyms : List Synonym) (pattern : String) : List Char :=
  widenGaps (expand (expandReferences synonyms (unmarked pattern.toList)))

theorem compile_source (synonyms : List Synonym) (pattern : String) :
    (compile synonyms pattern).source = String.ofList (expressionOf synonyms pattern) := rfl

theorem compile_wild (synonyms : List Synonym) : compile synonyms "*" = ⟨String.ofList capture, false⟩ := by
  rfl

end Pattern

namespace Rules
open Log (Noted)

variable {synonyms : List Pattern.Synonym}

theorem compileExpression_of_isReadable {expression : String} {ignoreCase : Bool}
    (readable : Regex.isReadable expression.toList ignoreCase = true) (keyword pattern : String) :
    ∃ e, compileExpression expression keyword pattern ignoreCase = .ok e := by
  obtain ⟨e, parsed⟩ := Regex.exists_parse_of_isReadable readable
  exact ⟨e, by rw [compileExpression, parsed]⟩

theorem compileDecomposition_of_isReadable {d : Script.Decomposition} (answered : d.reassemblies ≠ [])
    (readable : Regex.isReadable (Pattern.expressionOf synonyms d.pattern) false = true)
    (keyword : String) : ∃ d', (compileDecomposition synonyms keyword d).outcome = .ok d' := by
  have some_ : d.reassemblies.isEmpty = false := by simpa using answered
  rw [← String.toList_ofList (l := Pattern.expressionOf synonyms d.pattern)] at readable
  obtain ⟨e, read⟩ := compileExpression_of_isReadable readable keyword d.pattern
  rw [← Pattern.compile_source] at read
  simp only [compileDecomposition, some_, Bool.false_eq_true, if_false, Noted.outcome_bind,
    Noted.outcome_note, Noted.outcome_ofExcept, Noted.outcome_pure, read]
  exact ⟨_, rfl⟩

/-- A rule can be made ready if its keyword and all its patterns are readable. -/
theorem makeReady_of_isReadable {w : Script.Rule}
    (keyword : Regex.isReadable (matcherSource w.keyword).toList true = true)
    (each : ∀ d ∈ w.decompositions, d.reassemblies ≠ [] ∧
      Regex.isReadable (Pattern.expressionOf synonyms d.pattern) false = true) :
    ∃ r, makeReady synonyms w = .ok r := by
  obtain ⟨matcher, read⟩ := compileExpression_of_isReadable keyword w.keyword w.keyword
  have compiled : ∀ d ∈ w.decompositions,
      ∃ d', (compileDecomposition synonyms w.keyword d).outcome = .ok d' ∧ True := by
    intro d member
    obtain ⟨answered, readable⟩ := each d member
    obtain ⟨d', made⟩ := compileDecomposition_of_isReadable answered readable w.keyword
    exact ⟨d', made, trivial⟩
  obtain ⟨ds, all, _⟩ := exists_mapM_ok compiled
  simp only [makeReady, compileRule, Noted.outcome_bind, Noted.outcome_ofExcept, Noted.outcome_mapM,
    Noted.outcome_pure, read, all]
  exact ⟨_, rfl⟩

end Rules
end Colloquy
