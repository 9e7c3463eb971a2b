import Colloquy.Proofs.Conversation.Hops

/-! The history against the choices that have been made: for each decomposition it has the last one
since it began anew, or nothing. Nothing also stands for the first reassembly when the choice went past
the last one, so that just then the same reassembly may be chosen twice in a row. -/

namespace Colloquy

namespace History

variable {h : History} {slot slot' : Slot} {entries : List (Slot × Int)} {choice : Int}

/-! Entries. -/

theorem put_slots (known : slot ∈ entries.map Prod.fst) :
    (put slot choice entries).map Prod.fst = entries.map Prod.fst := by
  induction entries with
  | nil => simp at known
  | cons entry rest ih =>
    obtain ⟨s, c⟩ := entry
    rw [put]
    split
    · rfl
    · next other =>
      have known : slot ∈ rest.map Prod.fst := by simpa [Ne.symm other] using known
      rw [List.map_cons, ih known, List.map_cons]

/-- The entry for a decomposition after a choice has been put in for one. -/
theorem lookup_put : (put slot choice entries).lookup slot' =
    if slot' = slot then some choice else entries.lookup slot' := by
  induction entries with
  | nil =>
    rw [put, List.lookup_cons, List.lookup_nil]
    by_cases asked : slot' = slot
    · simp [asked]
    · rw [beq_false_of_ne asked, if_neg asked]
  | cons entry rest ih =>
    obtain ⟨s, c⟩ := entry
    rw [put]
    by_cases same : s = slot
    · subst same
      rw [if_pos rfl, List.lookup_cons, List.lookup_cons]
      by_cases asked : slot' = s
      · simp [asked]
      · rw [beq_false_of_ne asked, if_neg asked]
    · rw [if_neg same, List.lookup_cons, List.lookup_cons, ih]
      by_cases asked : slot' = s
      · simp [asked, same]
      · rw [beq_false_of_ne asked]

theorem last_note : (h.note slot choice).last slot' =
    if slot' = slot then choice else h.last slot' := by
  rw [last, note, lookup_put]
  split <;> rfl

theorem last_of_mem {last : Int} (distinct : (h.entries.map Prod.fst).Nodup)
    (member : (slot, last) ∈ h.entries) : h.last slot = last := by
  obtain ⟨entries⟩ := h
  rw [History.last]
  induction entries with
  | nil => contradiction
  | cons entry rest ih =>
    obtain ⟨s, c⟩ := entry
    obtain ⟨fresh, distinct⟩ := List.nodup_cons.mp distinct
    rw [List.lookup_cons]
    rcases List.mem_cons.mp member with same | further
    · cases same
      simp
    · have other : slot ≠ s := by
        rintro rfl
        exact fresh (List.mem_map.mpr ⟨_, further, rfl⟩)
      rw [beq_false_of_ne other]
      exact ih distinct further

theorem fresh_slots (s : RuleSet) : (fresh s).entries.map Prod.fst = slots s := by
  simp [fresh, Function.comp_def]

theorem last_fresh (s : RuleSet) (slot : Slot) : (fresh s).last slot = none := by
  have nothing (l : List Slot) : ((l.map fun slot => (slot, none)).lookup slot).getD none = none := by
    induction l with
    | nil => rfl
    | cons first rest ih =>
      rw [List.map_cons, List.lookup_cons]
      split
      · rfl
      · exact ih
  exact nothing (slots s)

/-! Decompositions of a rule set, by position. -/

/-- The decomposition at a position, with the position of its rule first. -/
def decompositionAt? (s : RuleSet) (slot : Slot) : Option Rules.Decomposition :=
  (s.rules[slot.1]?).bind fun r => r.decompositions[slot.2]?

/-- The slots are just the positions at which there is a decomposition. -/
theorem mem_slots {s : RuleSet} : slot ∈ slots s ↔ (decompositionAt? s slot).isSome := by
  obtain ⟨i, j⟩ := slot
  simp only [slots, decompositionAt?, List.mem_flatMap, List.mem_map, List.mem_range]
  constructor
  · rintro ⟨⟨r, i⟩, member, j, inside, same⟩
    cases same
    rw [List.mk_mem_zipIdx_iff_getElem?.mp member]
    simpa using inside
  · intro found
    cases at_i : s.rules[i]? with
    | none => simp [at_i] at found
    | some r =>
      rw [at_i] at found
      exact ⟨(r, i), List.mk_mem_zipIdx_iff_getElem?.mpr at_i, j, by simpa using found, rfl⟩

theorem slots_nodup (s : RuleSet) : (slots s).Nodup := by
  rw [slots, List.nodup_flatMap]
  constructor
  · intro p _
    exact (List.nodup_map_iff fun i j same => (Prod.mk.inj same).2).mpr List.nodup_range
  · have positions : (s.rules.zipIdx.map Prod.snd).Pairwise (· ≠ ·) := by
      rw [List.zipIdx_map_snd]
      exact List.nodup_range'
    refine (List.pairwise_map.mp positions).imp fun {p q} apart slot first second => ?_
    obtain ⟨_, _, rfl⟩ := List.mem_map.mp first
    obtain ⟨_, _, same⟩ := List.mem_map.mp second
    exact apart (Prod.mk.inj same).1.symm

/-- What a choice is made to be, given the entry for the decomposition, and what becomes of the
entry. -/
theorem choose_cases (h : History) (slot : Slot) {candidate count : Int} (inside : candidate < count) :
    candidate ≠ h.last slot ∧ h.choose slot candidate count = (candidate, h.note slot candidate) ∨
      candidate = h.last slot ∧ candidate + 1 < count ∧
        h.choose slot candidate count = (candidate + 1, h.note slot (candidate + 1)) ∨
      candidate = h.last slot ∧ candidate + 1 = count ∧
        h.choose slot candidate count = (0, h.note slot none) := by
  rw [choose]
  split
  · next other => exact .inl ⟨other, rfl⟩
  · next same =>
    have same : candidate = h.last slot := Decidable.of_not_not same
    rw [← same]
    split
    · exact .inr (.inr ⟨rfl, by omega, rfl⟩)
    · exact .inr (.inl ⟨rfl, by omega, rfl⟩)

end History

/-! Choices among what is seen. -/

/-- The choice that is seen, if it is one for a decomposition. -/
def Event.choiceFor? (slot : Slot) : Event → Option Choice
  | .chose x => if x.slot = slot then some x else none
  | _ => none

/-- The choice made last for a decomposition since the history began anew. -/
def latest? (slot : Slot) (past : List Event) : Option Choice :=
  (past.reverse.takeWhile (· != .restarted)).findSome? (Event.choiceFor? slot)

section

variable {slot : Slot} {past : List Event} {event : Event} {x y : Choice}

theorem latest?_concat (other : event ≠ .restarted) :
    latest? slot (past ++ [event]) = (event.choiceFor? slot).or (latest? slot past) := by
  simp only [latest?, List.reverse_concat, List.takeWhile_cons, bne_iff_ne.mpr other, if_true,
    List.findSome?_cons]
  cases event.choiceFor? slot <;> rfl

theorem latest?_restarted : latest? slot (past ++ [.restarted]) = none := by
  simp [latest?]

/-- A choice is still the latest one after events that neither start anew nor choose for its
decomposition. -/
theorem latest?_append_chose (same : x.slot = slot) {between : List Event}
    (apart : ∀ event ∈ between, event ≠ .restarted ∧ event.choiceFor? slot = none) :
    latest? slot (past ++ .chose x :: between) = some x := by
  induction between using List.reverseRecOn with
  | nil => rw [latest?_concat (by simp), Event.choiceFor?, if_pos same, Option.some_or]
  | append_singleton between event ih =>
    obtain ⟨apart, last⟩ := List.forall_mem_append.mp apart
    obtain ⟨other, elsewhere⟩ := last event List.mem_cons_self
    rw [← List.cons_append, ← List.append_assoc, latest?_concat other, elsewhere, Option.none_or,
      ih apart]

theorem chose_of_latest? (latest : latest? slot past = some x) : .chose x ∈ past ∧ x.slot = slot := by
  obtain ⟨event, member, found⟩ := List.exists_of_findSome?_eq_some latest
  have seen : event ∈ past := by
    simpa using (List.takeWhile_sublist _).subset member
  cases event with
  | chose y =>
    rw [Event.choiceFor?] at found
    split at found
    · next same =>
      cases found
      exact ⟨seen, same⟩
    · contradiction
  | _ => contradiction

/-- What the history has for a decomposition, given the choice made last: that choice, or nothing
after one that went past the end. -/
def Recalls : Option Choice → Int → Prop
  | none, entry => entry = History.none
  | some x, entry => entry = x.index ∧ x.candidate ≤ x.index ∨
      entry = History.none ∧ x.candidate + 1 = x.count ∧ x.index = 0

/-- Which reassembly a choice takes, given what the history has for the decomposition. -/
def Takes (entry : Int) (x : Choice) : Prop :=
  x.candidate ≠ entry ∧ x.index = x.candidate ∨
    x.candidate = entry ∧ x.candidate + 1 < x.count ∧ x.index = x.candidate + 1 ∨
    x.candidate = entry ∧ x.candidate + 1 = x.count ∧ x.index = 0

/-- A choice that can be made after what has been seen. -/
structure Made (s : RuleSet) (before : List Event) (x : Choice) : Prop where
  place : ∃ d, History.decompositionAt? s x.slot = some d ∧ x.count = d.reassemblies.length
  candidate : 0 ≤ x.candidate ∧ x.candidate < x.count
  index : 0 ≤ x.index ∧ x.index < x.count
  taken : ∃ entry, Recalls (latest? x.slot before) entry ∧ Takes entry x

/-- The choice made last is repeated just if it went past the end and the first one is drawn. -/
theorem Made.index_eq_iff {s : RuleSet} (made : Made s past y) (latest : latest? y.slot past = some x)
    (count : x.count = y.count) (several : 2 ≤ y.count) :
    y.index = x.index ↔ x.candidate + 1 = x.count ∧ x.index = 0 ∧ y.candidate = 0 := by
  obtain ⟨entry, recalls, takes⟩ := made.taken
  have inside := made.candidate
  rw [latest] at recalls
  simp only [Recalls, Takes, History.none] at recalls takes
  omega

end

/-- The history and what has been seen, at any moment. -/
structure Faithful (s : RuleSet) (past : List Event) (h : History) : Prop where
  slots : h.entries.map Prod.fst = History.slots s
  recalls : ∀ slot, Recalls (latest? slot past) (h.last slot)
  made : ∀ before x rest, past = before ++ .chose x :: rest → Made s before x

namespace Faithful

variable {s : RuleSet} {past : List Event} {h : History} {event : Event} {slot : Slot}

theorem start (s : RuleSet) : Faithful s [] (.fresh s) :=
  ⟨History.fresh_slots s, History.last_fresh s, by simp⟩

/-- A choice among what is seen was made before, or it is what is seen last. -/
theorem made_concat (faithful : Faithful s past h) (last : ∀ x, event = .chose x → Made s past x)
    (before : List Event) (x : Choice) (rest : List Event)
    (split : past ++ [event] = before ++ .chose x :: rest) : Made s before x := by
  rcases List.eq_nil_or_concat rest with rfl | ⟨rest, _, rfl⟩
  · obtain ⟨rfl, same⟩ := List.append_inj' split rfl
    exact last x (List.cons.inj same).1
  · rw [List.concat_eq_append, ← List.cons_append, ← List.append_assoc] at split
    exact faithful.made before x rest (List.append_inj' split rfl).1

theorem see (faithful : Faithful s past h) (other : event ≠ .restarted)
    (nothing : ∀ x, event ≠ .chose x) : Faithful s (past ++ [event]) h := by
  refine ⟨faithful.slots, fun slot => ?_, faithful.made_concat fun x same => absurd same (nothing x)⟩
  have elsewhere : event.choiceFor? slot = none := by
    cases event with
    | chose x => exact absurd rfl (nothing x)
    | _ => rfl
  rw [latest?_concat other, elsewhere]
  exact faithful.recalls slot

theorem restart (faithful : Faithful s past h) : Faithful s (past ++ [.restarted]) (.fresh s) where
  slots := History.fresh_slots s
  recalls slot := by
    rw [latest?_restarted]
    exact History.last_fresh s slot
  made := faithful.made_concat fun _ same => nomatch same

/-- What a choice does to the history, given the choice itself. -/
theorem choose_eq (h : History) (slot : Slot) {candidate : Int} {count : Nat}
    (least : 0 ≤ candidate) (inside : candidate < count) : ∃ x entry,
      x = ⟨slot, candidate, count, (h.choose slot candidate count).1⟩ ∧
      (h.choose slot candidate count).2 = h.note slot entry ∧
      0 ≤ x.index ∧ x.index < x.count ∧ Takes (h.last slot) x ∧ Recalls (some x) entry := by
  rcases h.choose_cases slot inside with ⟨other, made⟩ | ⟨same, more, made⟩ | ⟨same, wrapped, made⟩
  · rw [made]
    exact ⟨_, _, rfl, rfl, least, inside, .inl ⟨other, rfl⟩, .inl ⟨rfl, le_rfl⟩⟩
  · rw [made]
    refine ⟨_, _, rfl, rfl, ?_, more, .inr (.inl ⟨same, more, rfl⟩), .inl ⟨rfl, ?_⟩⟩ <;> grind
  · rw [made]
    refine ⟨_, _, rfl, rfl, le_rfl, ?_, .inr (.inr ⟨same, wrapped, rfl⟩),
      .inr ⟨rfl, wrapped, rfl⟩⟩
    grind

/-- A choice from the reassemblies of a decomposition keeps the history faithful. -/
theorem choose {d : Rules.Decomposition} (known : History.decompositionAt? s slot = some d)
    (answered : d.reassemblies ≠ []) :
    Watched.Keeps (Faithful s) (.choose slot d.reassemblies.length) := by
  refine Watched.choose_keeps fun past h number candidate picked faithful => ?_
  obtain ⟨n, rfl, inside⟩ := pickIndex_inside (List.length_pos_iff.mpr answered) picked
  obtain ⟨x, entry, same, noted, least, most, takes, recalls⟩ :=
    choose_eq h slot (Int.natCast_nonneg n) (Int.ofNat_lt.mpr inside)
  have here : x.slot = slot := by rw [same]
  have candidate : x.candidate = n := by rw [same]
  have count : x.count = d.reassemblies.length := by rw [same]
  rw [← same, noted]
  refine ⟨?_, fun slot' => ?_, faithful.made_concat ?_⟩
  · rw [History.note, History.put_slots, faithful.slots]
    rw [faithful.slots, History.mem_slots, known]
    rfl
  · rw [latest?_concat (by simp), Event.choiceFor?, History.last_note, here]
    by_cases asked : slot = slot'
    · rw [if_pos asked, if_pos asked.symm]
      exact recalls
    · rw [if_neg asked, if_neg (Ne.symm asked)]
      exact faithful.recalls slot'
  · intro y same'
    cases same'
    refine ⟨⟨d, here ▸ known, count⟩, ?_, ⟨least, most⟩, h.last slot, ?_, takes⟩
    · rw [candidate, count]
      omega
    · exact here ▸ faithful.recalls slot

end Faithful

namespace Engine

open Watched (Keeps)

variable {e : Engine} {fragment : List Char} {hops index : Nat}

/-- The history stays faithful while a rule is carried out: each redirection that is followed leaves
fewer of them for the rule it leads to. -/
theorem watchRule_faithful
    (answered : ∀ r ∈ e.rules.rules, ∀ d ∈ r.decompositions, d.reassemblies ≠ []) :
    Keeps (Faithful e.rules) (e.watchRule fragment hops index) := by
  induction hops using Nat.strong_induction_on generalizing index with
  | _ hops ih =>
    refine watchRule_leads (fun _ _ faithful => faithful) ?_ ?_ ?_
    · intro r found p member
      have known : History.decompositionAt? e.rules (index, p.2) = some p.1 := by
        rw [History.decompositionAt?, found]
        exact List.mk_mem_zipIdx_iff_getElem?.mp member
      exact Faithful.choose known
        (answered r (List.mem_of_getElem? found) p.1 (List.fst_mem_of_mem_zipIdx member))
    · rintro i _ fewer rfl
      refine Keeps.bind (.see fun _ _ faithful => faithful.see (by simp) (by simp)) fun _ => ?_
      exact ih fewer (Nat.lt_succ_self _)
    · exact fun _ i _ => .see fun _ _ faithful => faithful.see (by simp) (by simp)

/-- After any calls the history is faithful to what has been seen since the start. -/
theorem events_faithful {synonyms : List Pattern.Synonym} {written : List Script.Rule}
    (ready : Rules.Ready synonyms written e.rules.rules)
    (fallback : e.rules.fallback? = some e.fallback) {c : Conversation}
    (fresh : c.session.history = .fresh e.rules) (calls : List Call) :
    Faithful e.rules (e.events c calls) (e.after c calls).session.history := by
  obtain ⟨_, i, r, found, at_i, _⟩ := ready.fallback
  cases fallback.symm.trans found
  refine events_keep (fun _ _ _ => watchRule_faithful ready.answered)
    (List.getElem?_eq_some_iff.mp at_i).1 (fun _ _ faithful => faithful.restart) calls [] ?_
  rw [fresh]
  exact Faithful.start e.rules

end Engine

/-- At any moment the history has one entry for each decomposition. An entry is nothing, or the choice
made last since the history began anew. Every choice is that of a reassembly which the decomposition
has. -/
theorem history_faithful (entries : List Script.Entry) (tables : Script) (s : RuleSet)
    (made : (Rules.compileSet entries tables).outcome = .ok s) (source : RandomSource)
    (settings : EngineSettings) (options : Options) (accepted : settings.check = .ok options) :
    ∃ e c, Engine.start s (.source source) settings = .ok (e, c) ∧ ∀ calls,
      ((e.after c calls).session.history.entries.map Prod.fst = History.slots s ∧
        (History.slots s).Nodup ∧
        ∀ slot, slot ∈ History.slots s ↔ (History.decompositionAt? s slot).isSome) ∧
      (∀ slot last, (slot, last) ∈ (e.after c calls).session.history.entries →
        last = History.none ∨ ∃ x d, latest? slot (e.events c calls) = some x ∧ last = x.index ∧
          History.decompositionAt? s slot = some d ∧ 0 ≤ last ∧ last < d.reassemblies.length) ∧
      ∀ x : Choice, .chose x ∈ e.events c calls → ∃ d, History.decompositionAt? s x.slot = some d ∧
        x.count = d.reassemblies.length ∧ 0 ≤ x.index ∧ x.index < d.reassemblies.length := by
  obtain ⟨⟨written, _, ready⟩, _, _⟩ := Rules.compileSet_ok made
  obtain ⟨_, i, _, found, _⟩ := ready.fallback
  refine ⟨_, _, Rules.start_eq_ok found accepted source, fun calls => ?_⟩
  have faithful := Engine.events_faithful (e := ⟨s, i, options⟩)
    (c := ⟨source, .start s options.capacity, []⟩) ready found rfl calls
  have chosen (x : Choice)
      (seen : .chose x ∈ Engine.events ⟨s, i, options⟩ ⟨source, .start s options.capacity, []⟩ calls) :
      ∃ d, History.decompositionAt? s x.slot = some d ∧
        x.count = d.reassemblies.length ∧ 0 ≤ x.index ∧ x.index < d.reassemblies.length := by
    obtain ⟨before, rest, split⟩ := List.append_of_mem seen
    obtain ⟨⟨d, known, count⟩, _, ⟨least, most⟩, _⟩ := faithful.made before x rest split
    exact ⟨d, known, count, least, count ▸ most⟩
  refine ⟨⟨faithful.slots, History.slots_nodup s, fun _ => History.mem_slots⟩, ?_, chosen⟩
  intro slot last member
  have recalls := faithful.recalls slot
  rw [History.last_of_mem (faithful.slots ▸ History.slots_nodup s) member] at recalls
  cases latest : latest? slot
      (Engine.events ⟨s, i, options⟩ ⟨source, .start s options.capacity, []⟩ calls) with
  | none =>
    rw [latest] at recalls
    exact .inl recalls
  | some x =>
    rw [latest] at recalls
    rcases recalls with ⟨rfl, _⟩ | ⟨nothing, _⟩
    · obtain ⟨seen, rfl⟩ := chose_of_latest? latest
      obtain ⟨d, known, _, least, most⟩ := chosen x seen
      exact .inr ⟨x, d, rfl, rfl, known, least, most⟩
    · exact .inl nothing

/-- Two reassemblies to choose from, and a fallback rule with one. -/
def shrug : List Script.Entry :=
  [.rule ⟨"well", 1, [⟨"* well *", ["Well?", "And well?"]⟩]⟩,
    .rule ⟨Rules.fallbackKeyword, 0, [⟨"*", ["Go on."]⟩]⟩]

/-- Whether calls lead to such events, under settings as they are by default. -/
def shows (entries : List Script.Entry) (source : RandomSource) (calls : List Call)
    (seen : List Event) : Bool :=
  (Rules.compileSet entries .empty).outcome.toOption.any fun s =>
    (Engine.start s (.source source) .default).toOption.any fun p =>
      decide (p.1.events p.2 calls = seen)

theorem of_shows {entries : List Script.Entry} {source : RandomSource} {calls : List Call}
    {seen : List Event} (shown : shows entries source calls seen = true) :
    ∃ s e c, (Rules.compileSet entries .empty).outcome = .ok s ∧
      Engine.start s (.source source) .default = .ok (e, c) ∧ e.events c calls = seen := by
  obtain ⟨s, made, started⟩ := exists_of_any shown
  obtain ⟨⟨e, c⟩, started, same⟩ := exists_of_any started
  exact ⟨s, e, c, made, started, of_decide_eq_true same⟩

/-- Choices before and after the conversation begins anew, between them one of the fallback rule. -/
def shrugs : List Call := [.reply "Well.", .reset, .reply "Well.", .reply "So?", .reply "Well."]

theorem shrug_faithful : ∃ s e c, (Rules.compileSet shrug .empty).outcome = .ok s ∧
    Engine.start s (.source halves) .default = .ok (e, c) ∧
    (e.after c shrugs).session.history.entries.map Prod.fst = History.slots s ∧
    (∀ last, ((0, 0), last) ∈ (e.after c shrugs).session.history.entries →
      last = History.none ∨ ∃ x, latest? (0, 0) (e.events c shrugs) = some x ∧ last = x.index) ∧
    ∃ d, History.decompositionAt? s (0, 0) = some d ∧ 2 = d.reassemblies.length := by
  have shown : shows shrug halves shrugs [.chose ⟨(0, 0), 1, 2, 1⟩, .restarted,
      .chose ⟨(0, 0), 1, 2, 1⟩, .chose ⟨(1, 0), 0, 1, 0⟩, .chose ⟨(0, 0), 1, 2, 0⟩] := by
    decide +kernel
  obtain ⟨s, e, c, made, started, seen⟩ := of_shows shown
  obtain ⟨e', c', started', holds⟩ :=
    history_faithful shrug .empty s made halves .default ⟨true, 20, 16, false⟩ rfl
  cases started.symm.trans started'
  obtain ⟨⟨slots, _⟩, entries, chosen⟩ := holds shrugs
  refine ⟨s, e, c, made, started, slots, fun last member => ?_, ?_⟩
  · exact (entries (0, 0) last member).imp_right fun ⟨x, _, latest, same, _⟩ => ⟨x, latest, same⟩
  · obtain ⟨d, known, count, _⟩ := chosen ⟨(0, 0), 1, 2, 0⟩ (by simp [seen])
    exact ⟨d, known, count⟩

/-- Two choices for a decomposition of several reassemblies, one after the other, are the same just if
the first went past the end and the second draws the first reassembly. As neither a new beginning nor
another choice comes between the two, the first is the latest one where the second is made. -/
theorem same_choice_iff (entries : List Script.Entry) (tables : Script) (s : RuleSet)
    (made : (Rules.compileSet entries tables).outcome = .ok s) (source : RandomSource)
    (settings : EngineSettings) (options : Options) (accepted : settings.check = .ok options) :
    ∃ e c, Engine.start s (.source source) settings = .ok (e, c) ∧
      ∀ (calls : List Call) (before between rest : List Event) (x y : Choice)
        (d : Rules.Decomposition),
        e.events c calls = before ++ .chose x :: between ++ .chose y :: rest → y.slot = x.slot →
        (∀ event ∈ between, event ≠ .restarted ∧ event.choiceFor? x.slot = none) →
        History.decompositionAt? s x.slot = some d → 2 ≤ d.reassemblies.length →
        (y.index = x.index ↔
          x.candidate + 1 = d.reassemblies.length ∧ x.index = 0 ∧ y.candidate = 0) := by
  obtain ⟨⟨written, _, ready⟩, _, _⟩ := Rules.compileSet_ok made
  obtain ⟨_, i, _, found, _⟩ := ready.fallback
  refine ⟨_, _, Rules.start_eq_ok found accepted source, ?_⟩
  intro calls before between rest x y d seen same apart known several
  have faithful := Engine.events_faithful (e := ⟨s, i, options⟩)
    (c := ⟨source, .start s options.capacity, []⟩) ready found rfl calls
  have first := faithful.made before x (between ++ .chose y :: rest) (by simpa using seen)
  have second := faithful.made (before ++ .chose x :: between) y rest seen
  obtain ⟨d', known', count⟩ := first.place
  cases known.symm.trans known'
  obtain ⟨d', known', count'⟩ := second.place
  cases known.symm.trans (same ▸ known')
  have latest : latest? y.slot (before ++ .chose x :: between) = some x :=
    latest?_append_chose same.symm (same ▸ apart)
  rw [second.index_eq_iff latest (count.trans count'.symm) (count' ▸ several), count]

theorem shrug_same_choice_iff : ∃ s e c d, (Rules.compileSet shrug .empty).outcome = .ok s ∧
    Engine.start s (.source halves) .default = .ok (e, c) ∧
    e.events c [.reply "Well.", .reply "So?", .reply "Well."] =
      [.chose ⟨(0, 0), 1, 2, 1⟩, .chose ⟨(1, 0), 0, 1, 0⟩, .chose ⟨(0, 0), 1, 2, 0⟩] ∧
    History.decompositionAt? s (0, 0) = some d ∧ 2 ≤ d.reassemblies.length ∧
    ((0 : Int) = 1 ↔ (1 : Int) + 1 = d.reassemblies.length ∧ (1 : Int) = 0 ∧ (1 : Int) = 0) := by
  have shown : shows shrug halves [.reply "Well.", .reply "So?", .reply "Well."]
      [.chose ⟨(0, 0), 1, 2, 1⟩, .chose ⟨(1, 0), 0, 1, 0⟩, .chose ⟨(0, 0), 1, 2, 0⟩] := by
    decide +kernel
  obtain ⟨s, e, c, made, started, seen⟩ := of_shows shown
  have kinds : (Rules.compileSet shrug .empty).outcome.toOption.any fun s =>
      (History.decompositionAt? s (0, 0)).any fun d => 2 ≤ d.reassemblies.length := by
    decide +kernel
  obtain ⟨s', made', several⟩ := exists_of_any kinds
  cases made.symm.trans made'
  obtain ⟨d, known, several⟩ := (Option.any_eq_true _ _).mp several
  have several : 2 ≤ d.reassemblies.length := of_decide_eq_true several
  obtain ⟨e', c', started', same⟩ :=
    same_choice_iff shrug .empty s made halves .default ⟨true, 20, 16, false⟩ rfl
  cases started.symm.trans started'
  refine ⟨s, e, c, d, made, started, seen, known, several, ?_⟩
  exact same _ [] [.chose ⟨(1, 0), 0, 1, 0⟩] [] ⟨(0, 0), 1, 2, 1⟩ ⟨(0, 0), 1, 2, 0⟩ d seen rfl
    (by simp [Event.choiceFor?]) known several

def spent : RandomSource :=
  .sequence (Draws.ofList [.finite false 1 (-1), .finite false 1 (-1), .zero]) 0

/-- The same reassembly is chosen twice in a row: past the end the history forgets that it was. -/
theorem first_repeated : ∃ s e c, (Rules.compileSet shrug .empty).outcome = .ok s ∧
    Engine.start s (.source spent) .default = .ok (e, c) ∧ ∃ x y : Choice,
      e.events c [.reply "Well.", .reply "Well.", .reply "Well."] =
        [.chose ⟨(0, 0), 1, 2, 1⟩, .chose x, .chose y] ∧
      x.slot = y.slot ∧ 2 ≤ x.count ∧ x.index = y.index := by
  have shown : shows shrug spent [.reply "Well.", .reply "Well.", .reply "Well."]
      [.chose ⟨(0, 0), 1, 2, 1⟩, .chose ⟨(0, 0), 1, 2, 0⟩, .chose ⟨(0, 0), 0, 2, 0⟩] := by
    decide +kernel
  obtain ⟨s, e, c, made, started, seen⟩ := of_shows shown
  exact ⟨s, e, c, made, started, _, _, seen, rfl, le_rfl, rfl⟩

end Colloquy
