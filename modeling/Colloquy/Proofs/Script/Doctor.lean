import Colloquy.Proofs.Conversation.Distinctive
import Colloquy.Proofs.Conversation.Remembered
import Colloquy.Script.Doctor

/-! The bundled script is never at a loss. All that has to be known about the doctor is looked up in
its templates, retouchings and final words; the rest holds of all scripts of which that is so. -/

namespace Colloquy

open Turn

/-- After a reply no more replies are kept than there is room for. -/
theorem Engine.reply_size_le {e : Engine} {c : Conversation} {capacity : Nat}
    (begun : c.session.memory = .empty capacity) (calls : List Call) (input : String) :
    ((e.reply input).apply (e.after c calls)).2.session.memory.size ≤ capacity := by
  have last : e.after c (calls ++ [.reply input]) = ((e.reply input).apply (e.after c calls)).2 := by
    rw [Engine.after, List.foldl_append, List.foldl_cons, List.foldl_nil, ← Engine.after,
      Engine.perform_apply, Engine.answer_reply_apply]
  have room : 0 ≤ c.session.memory.capacity := begun ▸ Int.natCast_nonneg capacity
  obtain ⟨same, _⟩ := Engine.after_memory (e := e) (calls ++ [.reply input]) room
  rw [last, begun] at same
  rw [same]
  exact (Memory.accounted capacity _).fits

namespace Script

/-- The level of a keyword of the doctor: the lowest one if its rule redirects nowhere and others to it. -/
def doctorLevel (keyword : String) : Nat :=
  if keyword ∈ ["sorry", "hello", "what", "you", Rules.fallbackKeyword] then 0 else 1

def Spells (text : String) (chars : List Char) : Prop :=
  text = String.ofList chars

/-- What is asked of a decomposition of the doctor is looked up in the characters of its texts: a text
itself is taken apart into bytes to be looked at, which takes too long. -/
theorem distinctive_of_spells {d : Decomposition} {keyword words : String} {other : List Char}
    {spelled : List (List Char)} (words' : Spells words other)
    (same : List.Forall₂ Spells d.reassemblies spelled)
    (fits : (!spelled.isEmpty && spelled.length < countLimit &&
      Regex.isReadable (Pattern.expressionOf doctor.synonyms d.pattern) false &&
      spelled.all (Reassembly.suits doctorLevel keyword other)) = true) :
    d.Distinctive doctor.synonyms doctorLevel keyword words.toList := by
  simp only [Bool.and_eq_true, Bool.not_eq_true', decide_eq_true_eq, List.all_eq_true] at fits
  obtain ⟨⟨⟨some_, few⟩, readable⟩, each⟩ := fits
  refine ⟨?_, same.length_eq ▸ few, readable, fun text written => ?_⟩
  · rintro none
    rw [none, List.forall₂_nil_left_iff] at same
    simp [same] at some_
  · obtain ⟨chars, member, rfl⟩ := exists_of_mem_right same.flip written
    rw [words', String.toList_ofList, String.toList_ofList]
    exact each chars member

/-- Every decomposition of the script is distinctive among the rules and against the words for a loss.
The characters of each text are found on the way; what is left of a decomposition is a check. -/
theorem doctor_decompositions : ∀ w ∈ doctor.rules, ∀ d ∈ w.decompositions,
    d.Distinctive doctor.synonyms doctorLevel w.keyword Engine.lossForWords.toList := by
  rw [doctor, Doctor.rules]
  repeat' first
    | exact List.forall_mem_nil _
    | refine List.forall_mem_cons.mpr ⟨?_, ?_⟩
    | apply distinctive_of_spells rfl
    | exact List.Forall₂.nil
    | apply List.Forall₂.cons (R := Spells) rfl
  all_goals decide +kernel

/-- The bundled script is distinctive. -/
theorem doctor_distinctive : doctor.Distinctive doctorLevel Engine.lossForWords.toList where
  keywords := by decide +kernel
  decompositions := doctor_decompositions
  lowest := by decide +kernel
  fallback := by
    have checked : (Rules.checkFallback doctor.rules).toOption.any fun _ => true := by decide +kernel
    obtain ⟨_, done, _⟩ := exists_of_any checked
    exact done
  wild := by decide +kernel
  retouches := by
    have checked : (doctor.retouches.mapM Retouch.compile).toOption.any fun rs =>
        decide (∀ r ∈ rs, r.departs Engine.lossForWords.toList = true) := by decide +kernel
    obtain ⟨rs, made, fit⟩ := exists_of_any checked
    exact ⟨rs, made, of_decide_eq_true fit⟩
  initials := by decide
  parts := by decide
  finals := by decide +kernel

end Script

/-- The doctor has a reply to every input, whatever was said before: some words, and never those that
stand for a loss of words. -/
theorem doctor_replies : ∃ s, Script.doctor.compile.outcome = .ok s ∧
    ∀ source : RandomSource, source.DrawsInUnit →
    ∀ (settings : EngineSettings) (options : Options), settings.check = .ok options →
      ∃ e c, Engine.start s (.source source) settings = .ok (e, c) ∧
        ∀ calls input result after, (e.reply input).apply (e.after c calls) = (result, after) →
          after.session.memory.size < countLimit →
            ∃ text, result = .ok text ∧ text ≠ "" ∧ text ≠ Engine.lossForWords := by
  obtain ⟨s, made, replies⟩ := Script.doctor_distinctive.replies
  refine ⟨s, made, fun source unit settings options accepted => ?_⟩
  obtain ⟨e, c, started, replies⟩ := replies source unit settings options accepted
  refine ⟨e, c, started, fun calls input result after said held => ?_⟩
  obtain ⟨text, given, apart⟩ := replies calls input result after said held
  refine ⟨text, given, ?_, ?_⟩
  · rintro rfl
    exact Text.ne_nil_of_departs apart rfl
  · rintro rfl
    exact Text.ne_of_departs apart rfl

/-- What is said to the doctor: something to be kept, something to be asked back, and nothing. -/
def troubles : List Call :=
  [.greet, .reply "My job is hard. (1) $ goto xnone", .reply "Why?", .reply ""]

theorem troubles_answered : ∃ s e c text, Script.doctor.compile.outcome = .ok s ∧
    halves.DrawsInUnit ∧ Engine.start s (.source halves) .default = .ok (e, c) ∧
    ((e.reply "...").apply (e.after c troubles)).1 = .ok text ∧
    text ≠ "" ∧ text ≠ Engine.lossForWords := by
  obtain ⟨s, made, starts⟩ := doctor_replies
  obtain ⟨e, c, started, replies⟩ := starts halves halves_inUnit .default ⟨true, 20, 16, false⟩ rfl
  obtain ⟨⟨_, _, ready⟩, _, _⟩ := Rules.compileSet_ok made
  obtain ⟨_, i, _, found, _⟩ := ready.fallback
  have accepted : EngineSettings.default.check = .ok ⟨true, 20, 16, false⟩ := rfl
  cases (Rules.start_eq_ok found accepted halves).symm.trans started
  have fits := Engine.reply_size_le (e := ⟨s, i, ⟨true, 20, 16, false⟩⟩)
    (c := ⟨halves, .start s (20 : Nat), []⟩) rfl troubles "..."
  have few : 20 < countLimit := by decide
  obtain ⟨text, given, some_, words⟩ := replies troubles "..." _ _ Prod.mk.eta.symm (fits.trans_lt few)
  exact ⟨s, _, _, text, made, halves_inUnit, started, given, some_, words⟩

end Colloquy
