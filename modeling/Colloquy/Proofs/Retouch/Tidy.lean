import Colloquy.Proofs.Text.Departure

/-! Tidied texts have narrow gaps, and none before a period. Tidying takes away or narrows gaps and
nothing else, so that a tidied text stays as it is, with a capital at its start as well as without. -/

namespace Colloquy

namespace Text

variable {text : List Char} {c d : Char}

/-- Whether two neighbours in a text are neither a wide gap nor a gap before a period. -/
def Neat (c d : Char) : Prop := isBlank c = true → isBlank d = false ∧ d ≠ '.'

def solid (text : List Char) : List Char := text.filter fun c => !isBlank c

theorem solid_cons (c : Char) (text : List Char) :
    solid (c :: text) = if isBlank c then solid text else c :: solid text := by
  cases blank : isBlank c <;> simp [solid, blank]

theorem solid_collapse (text : List Char) : solid (collapse text) = solid text := by
  induction text with
  | nil => rfl
  | cons c rest ih =>
    rcases collapse_cons_or c rest with ⟨_, stays⟩ | ⟨first, h, more, blank, others, joins⟩
    · rw [stays, solid_cons, solid_cons, ih]
    · have space : isBlank ' ' = true := by decide
      rw [others, solid_cons, if_pos blank] at ih
      rw [joins, solid_cons, solid_cons, if_pos space, if_pos first, ih]

/-! Gaps before periods. -/

/-- A text with narrow gaps, without the gaps before periods. -/
def closed (text : List Char) : List Char := closePeriods (runs isBlank text)

theorem tidy_eq (text : List Char) : tidy text = closed (collapse text) := rfl

theorem closed_nil : closed [] = [] := rfl

/-- A blank before a period is left out. Every other character stays. -/
theorem closed_cons (narrow : ∀ d ∈ text.head?, Narrow c d) :
    closed (c :: text) =
      if isBlank c = true ∧ text.head? = some '.' then closed text else c :: closed text := by
  cases text with
  | nil => simp [closed, runs, closePeriods]
  | cons d rest =>
    have second : isBlank c = true → isBlank d = false := narrow d rfl
    by_cases period : isBlank c = true ∧ d = '.'
    · obtain ⟨blank, rfl⟩ := period
      obtain ⟨more, others, begins⟩ := exists_runs_cons isBlank '.' rest
      have solid : isBlank '.' = false := by decide
      rw [closed, closed, runs, begins]
      simp [blank, solid, closePeriods]
    · have stays : (!isBlank c || keepsGap (d :: rest)) = true := by
        cases blank : isBlank c with
        | false => rfl
        | true =>
          have other : d ≠ '.' := fun same => period ⟨blank, same⟩
          simp [keepsGap, second blank, other]
      rw [if_neg (by simpa using period)]
      exact closePeriods_runs_cons stays

theorem closed_cons_solid (here : isBlank c = false) (text : List Char) :
    closed (c :: text) = c :: closed text := by
  rw [closed_cons (by simp [Narrow, here]), if_neg (by simp [here])]

theorem solid_closed (narrow : text.IsChain Narrow) : solid (closed text) = solid text := by
  induction text with
  | nil => rfl
  | cons c rest ih =>
    obtain ⟨next, narrow⟩ := List.isChain_cons.mp narrow
    rw [closed_cons next]
    split
    · next dropped => rw [ih narrow, solid_cons, if_pos dropped.1]
    · rw [solid_cons, solid_cons, ih narrow]

/-- Closing up the blanks before marks leaves a text neat, as after a blank comes a character that is not
blank and stays first. -/
theorem neat_closed (narrow : text.IsChain Narrow) : (closed text).IsChain Neat := by
  induction text with
  | nil => exact .nil
  | cons c rest ih =>
    obtain ⟨next, narrow⟩ := List.isChain_cons.mp narrow
    rw [closed_cons next]
    split
    · exact ih narrow
    · next stays =>
      rw [List.isChain_cons]
      refine ⟨?_, ih narrow⟩
      intro d found blank
      cases rest with
      | nil => simp [closed_nil] at found
      | cons e rest =>
        have solid : isBlank e = false := next e rfl blank
        rw [closed_cons_solid solid] at found
        cases found
        refine ⟨solid, ?_⟩
        rintro rfl
        exact stays ⟨blank, rfl⟩

theorem closed_of_neat (neat : text.IsChain Neat) : closed text = text := by
  induction text with
  | nil => rfl
  | cons c rest ih =>
    obtain ⟨next, neat⟩ := List.isChain_cons.mp neat
    have open_ : ¬(isBlank c = true ∧ rest.head? = some '.') := by
      rintro ⟨blank, period⟩
      exact (next '.' period blank).2 rfl
    have narrow : ∀ d ∈ rest.head?, Narrow c d := fun d found blank => (next d found blank).1
    rw [closed_cons narrow, if_neg open_, ih neat]

/-! Tidied texts. -/

/-- Tidying leaves all characters that are not blank. -/
theorem solid_tidy (text : List Char) : solid (tidy text) = solid text := by
  rw [tidy_eq, solid_closed (narrow_collapse text), solid_collapse]

/-- A tidied text is neat. -/
theorem neat_tidy (text : List Char) : (tidy text).IsChain Neat :=
  neat_closed (narrow_collapse text)

/-- A neat text is left alone. -/
theorem tidy_of_neat (neat : text.IsChain Neat) : tidy text = text := by
  have narrow : text.IsChain Narrow := neat.imp fun _ _ apart blank => (apart blank).1
  rw [tidy_eq, collapse_of_narrow narrow, closed_of_neat neat]

theorem tidy_cons_solid (here : isBlank c = false) (text : List Char) :
    tidy (c :: text) = c :: tidy text := tidy_cons (by rw [here]; rfl)

/-- What a tidied text begins with after a gap is the gap, or the period after it. -/
theorem head?_tidy_blank (blank : isBlank c = true) (text : List Char) :
    ∀ d ∈ (tidy (c :: text)).head?, isBlank d = true ∨ d = '.' := by
  intro d found
  have first := head?_collapse (c :: text)
  have narrow := narrow_collapse (c :: text)
  rw [tidy_eq] at found
  cases collapsed : collapse (c :: text) with
  | nil => simp [collapsed, closed_nil] at found
  | cons e rest =>
    rw [collapsed] at first narrow found
    have gap : isBlank e = true := (isBlank_of_even (by simpa using first)).trans blank
    obtain ⟨next, _⟩ := List.isChain_cons.mp narrow
    rw [closed_cons next] at found
    split at found
    · next dropped =>
      obtain ⟨more, rfl⟩ := List.head?_eq_some_iff.mp dropped.2
      rw [closed_cons_solid (by decide)] at found
      exact .inr (Option.some.inj found).symm
    · exact .inl (Option.some.inj found ▸ gap)

/-! Capitals. -/

theorem capitalOne_of_not_small (other : isSmallLatin c = false) : capitalOne c = c := by
  rw [capitalOne, other, if_neg Bool.false_ne_true]

theorem isSmallLatin_of_isBlank (blank : isBlank c = true) : isSmallLatin c = false :=
  of_isBlank (fun c => isSmallLatin c = false) blank (by decide)

/-- A small letter and its capital are solid, and the capital is no small letter. -/
theorem capitalOne_small (small : isSmallLatin c = true) :
    isBlank c = false ∧ isBlank (capitalOne c) = false ∧ isSmallLatin (capitalOne c) = false := by
  have bounded : c.toNat < 123 := by
    simp only [isSmallLatin, Bool.and_eq_true, decide_eq_true_eq] at small
    omega
  have all : ∀ n < 123, isSmallLatin (Char.ofNat n) = true → isBlank (Char.ofNat n) = false ∧
      isBlank (capitalOne (Char.ofNat n)) = false ∧
        isSmallLatin (capitalOne (Char.ofNat n)) = false := by decide
  exact of_toNat_lt (fun c => isSmallLatin c = true → isBlank c = false ∧
    isBlank (capitalOne c) = false ∧ isSmallLatin (capitalOne c) = false) bounded all small

theorem isBlank_capitalOne (c : Char) : isBlank (capitalOne c) = isBlank c := by
  cases small : isSmallLatin c with
  | false => rw [capitalOne_of_not_small small]
  | true =>
    obtain ⟨before, after, _⟩ := capitalOne_small small
    rw [before, after]

end Text

namespace Retouch

open Text

variable {text : List Char}

theorem capitalize_of_not_small (other : ∀ c ∈ text.head?, isSmallLatin c = false) :
    capitalize text = text := by
  cases text with
  | nil => rfl
  | cons c rest => rw [capitalize, capitalOne_of_not_small (other c rfl)]

theorem not_small_capitalize (text : List Char) :
    ∀ c ∈ (capitalize text).head?, isSmallLatin c = false := by
  cases text with
  | nil => simp [capitalize]
  | cons d rest =>
    rintro c ⟨rfl⟩
    cases small : isSmallLatin d with
    | false => rw [capitalOne_of_not_small small, small]
    | true => exact (capitalOne_small small).2.2

theorem neat_capitalize (neat : text.IsChain Neat) : (capitalize text).IsChain Neat := by
  cases text with
  | nil => exact .nil
  | cons c rest =>
    obtain ⟨next, neat⟩ := List.isChain_cons.mp neat
    refine List.isChain_cons.mpr ⟨?_, neat⟩
    intro d found blank
    rw [isBlank_capitalOne] at blank
    exact next d found blank

/-- Tidying puts no other character to the start of a text than a period, so that the capital can be
put before it or after it. -/
theorem solid_capitalize_tidy (text : List Char) :
    solid (capitalize (tidy text)) = solid (capitalize text) := by
  cases text with
  | nil => rfl
  | cons c rest =>
    cases blank : isBlank c with
    | false =>
      have raised : isBlank (capitalOne c) = false := (isBlank_capitalOne c).trans blank
      simp [tidy_cons_solid blank, capitalize, solid_cons, raised, solid_tidy]
    | true =>
      have first := head?_tidy_blank blank rest
      have kept : capitalize (tidy (c :: rest)) = tidy (c :: rest) := by
        refine capitalize_of_not_small ?_
        intro d found
        rcases first d found with gap | rfl
        · exact isSmallLatin_of_isBlank gap
        · decide
      have same : capitalize (c :: rest) = c :: rest := by
        refine capitalize_of_not_small ?_
        rintro d ⟨rfl⟩
        exact isSmallLatin_of_isBlank blank
      rw [kept, same, solid_tidy]

/-- A text with its last touches, if there are no retouchings. -/
def touched (capital : Bool) (text : List Char) : List Char :=
  if capital then capitalize (tidy text) else tidy text

theorem polish_nil (capital : Bool) (reply : String) :
    polish [] capital reply = .ok (String.ofList (touched capital reply.toList)) := rfl

theorem neat_touched (capital : Bool) (text : List Char) : (touched capital text).IsChain Neat := by
  cases capital with
  | false => exact neat_tidy text
  | true => exact neat_capitalize (neat_tidy text)

/-- The last touches do nothing more the second time. -/
theorem touched_touched (capital : Bool) (text : List Char) :
    touched capital (touched capital text) = touched capital text := by
  have tidied := tidy_of_neat (neat_touched capital text)
  cases capital with
  | false => exact tidied
  | true =>
    have begins := not_small_capitalize (tidy text)
    rw [touched, if_pos rfl, tidied]
    exact capitalize_of_not_small begins

/-- Without retouchings the last touches can always be made, and made again they change nothing. They
leave no wide gap, no gap before a period and, where it is wanted, no small letter at the start. What is
not blank stays, but for a capital at the start. -/
theorem polish_neat (capital : Bool) (reply : String) :
    ∃ polished, polish [] capital reply = .ok polished ∧ polish [] capital polished = .ok polished ∧
      (polished.toList.IsChain fun c d => isBlank c = true → isBlank d = false ∧ d ≠ '.') ∧
      (capital = true → ∀ c ∈ polished.toList.head?, isSmallLatin c = false) ∧
      solid polished.toList =
        solid (if capital then capitalize reply.toList else reply.toList) := by
  refine ⟨String.ofList (touched capital reply.toList), polish_nil capital reply, ?_, ?_, ?_, ?_⟩
  · rw [polish_nil, String.toList_ofList, touched_touched]
  · rw [String.toList_ofList]
    exact neat_touched capital reply.toList
  · rintro rfl
    rw [String.toList_ofList]
    exact not_small_capitalize (tidy reply.toList)
  · rw [String.toList_ofList]
    cases capital with
    | false => exact solid_tidy reply.toList
    | true => exact solid_capitalize_tidy reply.toList

end Retouch
end Colloquy
