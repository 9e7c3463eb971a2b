import Colloquy.Proofs.Conversation.Anew
import Colloquy.Proofs.Conversation.Remembered

/-! Conversations with numbers from anywhere. A number picks something where its product with the
length is finite, and then what it picks is there. A number whose product is not finite picks nothing,
and the call that drew it breaks down; no source makes a call fail in any other way. -/

namespace Colloquy

/-- What is asked for a text. -/
inductive Engine.Speaks (e : Engine) : Turn String → Prop
  | reply (input : String) : Speaks e (e.reply input)
  | greet : Speaks e e.greet
  | bidFarewell : Speaks e e.bidFarewell

/-- Whether a source has come to be another one by draws, each of one of so many things that there are
to choose from. -/
structure Engine.Drawn (e : Engine) (origin : RandomSource) (counts : List Nat)
    (source : RandomSource) : Prop where
  offered : ∀ count ∈ counts, ∃ kept ≤ e.options.capacity, e.Offers kept count
  source : source = origin.later counts.length

/-- What holds of a conversation in a call as long as all numbers pick something. -/
structure Engine.Follows (e : Engine) (origin : RandomSource) (c : Conversation) : Prop where
  capacity : c.session.memory.capacity = e.options.capacity
  fits : c.session.memory.size ≤ e.options.capacity
  drawn : ∃ counts, e.Drawn origin counts c.source ∧ origin.Picks counts

/-- How a call may fail: with an excuse, or with the first number that picks nothing. -/
inductive Engine.Stops (e : Engine) (origin : RandomSource) : Failure → Conversation → Prop
  | excused {counts : List Nat} {f : Failure} {c : Conversation}
      (drawn : e.Drawn origin counts c.source) (picks : origin.Picks counts)
      (excused : e.rules.Excuses f) : Stops e origin f c
  | unpicked {counts : List Nat} {count : Nat} {b : Breakdown} {c : Conversation}
      (drawn : e.Drawn origin (counts ++ [count]) c.source) (picks : origin.Picks counts)
      (unpicked : pickIndex (origin.later counts.length).next.1 count = .error b) :
      Stops e origin (.breakdown b) c

/-- How a call ends that has drawn one of so many things each time: with a text or an excuse where all
its numbers pick something, and otherwise broken down with the first one that does not. -/
structure Engine.Decided (e : Engine) (before : Conversation) (counts : List Nat)
    (result : Except Failure String) (after : Conversation) : Prop where
  drawn : e.Drawn before.source counts after.source
  told : before.source.Picks counts →
    (∃ text, result = .ok text) ∨ ∃ f, result = .error f ∧ e.rules.Excuses f
  stopped : ¬ before.source.Picks counts →
    ∃ (earlier : List Nat) (count : Nat) (b : Breakdown), counts = earlier ++ [count] ∧
      before.source.Picks earlier ∧
      pickIndex (before.source.later earlier.length).next.1 count = .error b ∧
      result = .error (.breakdown b)

namespace Engine

open Turn

variable {e : Engine} {t : Turn String} {origin source : RandomSource} {counts : List Nat}
  {c c' : Conversation}

/-! A call from its start to its end. -/

theorem Drawn.start (e : Engine) (origin : RandomSource) : e.Drawn origin [] origin :=
  ⟨fun _ member => absurd member List.not_mem_nil, rfl⟩

/-- One more draw from things that there are to choose from. -/
theorem Drawn.draw (drawn : e.Drawn origin counts source) {kept count : Nat}
    (fits : kept ≤ e.options.capacity) (offers : e.Offers kept count) :
    e.Drawn origin (counts ++ [count]) source.next.2 := by
  constructor
  · intro other member
    rcases List.mem_append.mp member with earlier | last
    · exact drawn.offered other earlier
    · exact List.mem_singleton.mp last ▸ ⟨kept, fits, offers⟩
  · rw [List.length_append, List.length_singleton, RandomSource.later_succ, drawn.source]

/-- As long as all numbers pick something the source is known by the draws so far, and otherwise the call
stops there. -/
theorem grounds_follows (e : Engine) (origin : RandomSource) :
    e.Grounds (e.Follows origin) (e.Stops origin) where
  room c follows := by
    rw [follows.capacity]
    exact Int.natCast_nonneg _
  record c records follows := ⟨follows.capacity, follows.fits, follows.drawn⟩
  session c session within follows := by
    refine ⟨within.capacity.trans follows.capacity, ?_, follows.drawn⟩
    have most := within.fits
    rw [follows.capacity, Int.toNat_natCast, max_eq_right follows.fits] at most
    exact most
  picked c count i offers picked follows := by
    obtain ⟨counts, drawn, picks⟩ := follows.drawn
    have scales : (origin.later counts.length).next.1.ScalesTo count := by
      rw [← drawn.source]
      exact pickIndex_ok_iff.mp ⟨i, picked⟩
    exact ⟨follows.capacity, follows.fits, _, drawn.draw follows.fits offers,
      RandomSource.picks_concat.mpr ⟨picks, scales⟩⟩
  unpicked c count b offers unpicked follows := by
    obtain ⟨counts, drawn, picks⟩ := follows.drawn
    rw [drawn.source] at unpicked
    exact .unpicked (drawn.draw follows.fits offers) picks unpicked
  excused c f excused follows := by
    obtain ⟨counts, drawn, picks⟩ := follows.drawn
    exact .excused drawn picks excused

theorem speaks_lands (complete : e.Complete) (speaks : e.Speaks t)
    (capacity : c.session.memory.capacity = e.options.capacity)
    (fits : c.session.memory.size ≤ e.options.capacity) :
    Lands (e.Follows c.source) (fun _ => True) (e.Stops c.source) (t.apply c) := by
  have grounds := grounds_follows e c.source
  have start : e.Follows c.source c := ⟨capacity, fits, [], .start e c.source, trivial⟩
  cases speaks with
  | reply input => exact reply_sound grounds complete input c start
  | greet => exact greet_sound grounds c start
  | bidFarewell => exact bidFarewell_sound grounds c start

/-- A turn that ends in a text or an excuse is decided by the numbers it has drawn: all of them pick
something, but the last one need not. -/
theorem speaks_decided (complete : e.Complete) (speaks : e.Speaks t)
    (capacity : c.session.memory.capacity = e.options.capacity)
    (fits : c.session.memory.size ≤ e.options.capacity) {result : Except Failure String}
    (said : t.apply c = (result, c')) : ∃ counts, e.Decided c counts result c' := by
  have lands := speaks_lands complete speaks capacity fits
  rw [said] at lands
  cases lands with
  | ok follows _ =>
    obtain ⟨counts, drawn, picks⟩ := follows.drawn
    exact ⟨counts, drawn, fun _ => .inl ⟨_, rfl⟩, fun stuck => absurd picks stuck⟩
  | error stops =>
    cases stops with
    | excused drawn picks excused =>
      exact ⟨_, drawn, fun _ => .inr ⟨_, rfl, excused⟩, fun stuck => absurd picks stuck⟩
    | unpicked drawn picks unpicked =>
      refine ⟨_, drawn, fun all => ?_, fun _ => ⟨_, _, _, rfl, picks, unpicked, rfl⟩⟩
      have scales := (RandomSource.picks_concat.mp all).2
      exact absurd scales (not_scalesTo_of_error unpicked)

/-- With moderate numbers every call gives a text or has an excuse. -/
theorem Decided.told_of_moderate {result : Except Failure String}
    (decided : e.Decided c counts result c') (holdable : e.rules.Holdable)
    (held : e.options.capacity < countLimit) (moderate : c.source.DrawsModerate) :
    (∃ text, result = .ok text) ∨ ∃ f, result = .error f ∧ e.rules.Excuses f := by
  refine decided.told (moderate.picks fun count member => ?_)
  obtain ⟨kept, within, offers⟩ := decided.drawn.offered count member
  exact offers.lt holdable (within.trans_lt held)

theorem enduring_moderate : Conversation.Enduring fun c => c.source.DrawsModerate where
  draw _ moderate := moderate.next
  choice _ _ moderate := moderate
  record _ _ moderate := moderate
  save _ _ moderate := moderate
  mark _ _ moderate := moderate
  take _ _ _ moderate := moderate
  reset _ _ moderate := moderate
  reseed _ _ state' _ _ := (RandomSource.drawsInUnit_seeded state').moderate

theorem after_fits (s : RuleSet) (i : Nat) (options : Options) (source : RandomSource)
    (calls : List Call) :
    (after ⟨s, i, options⟩ ⟨source, .start s options.capacity, []⟩ calls).session.memory.capacity =
        options.capacity ∧
      (after ⟨s, i, options⟩ ⟨source, .start s options.capacity, []⟩ calls).session.memory.size ≤
        options.capacity := by
  obtain ⟨same, _⟩ := after_memory (e := ⟨s, i, options⟩)
    (c := ⟨source, .start s options.capacity, []⟩) calls (Int.natCast_nonneg _)
  rw [same]
  exact ⟨Memory.after_capacity _, (Memory.accounted options.capacity _).fits⟩

end Engine

/-- A number picks something, and something that is there, just where its product with the length is
finite: that of a moderate number always is, and that of an infinity or of no number never. In a
conversation with rules that can be made ready, a call gives a text, or has an excuse, where all the
numbers that it draws pick something, as moderate ones do, and otherwise it breaks down with the first
one that does not. -/
theorem calls_drawn (entries : List Script.Entry) (tables : Script) (s : RuleSet)
    (made : (Rules.compileSet entries tables).outcome = .ok s) (source : RandomSource)
    (settings : EngineSettings) (options : Options) (accepted : settings.check = .ok options) :
    (∀ (x : Double) (length : Nat), 0 < length →
      ((∃ i, pickIndex x length = .ok i) ↔ x.ScalesTo length) ∧
      (x.Moderate → length < countLimit → x.ScalesTo length) ∧
      (x.ScalesTo length → ∃ q, x.toRat? = some q) ∧
      ∀ i, pickIndex x length = .ok i → ∃ n : Nat, i = n ∧ n < length ∧
        ∀ (h : History) (slot : Slot), ∃ k : Nat, (h.choose slot n length).1 = k ∧ k < length) ∧
    ∃ e c, Engine.start s (.source source) settings = .ok (e, c) ∧
      ∀ calls t, e.Speaks t → ∀ result after, t.apply (e.after c calls) = (result, after) →
        (∃ counts, e.Decided (e.after c calls) counts result after) ∧
        (source.DrawsModerate → s.Holdable → options.capacity < countLimit →
          (∃ text, result = .ok text) ∨ ∃ f, result = .error f ∧ s.Excuses f) := by
  constructor
  · intro x length some_
    refine ⟨pickIndex_ok_iff, fun moderate held => moderate.scalesTo held,
      Double.ScalesTo.toRat?_eq_some, ?_⟩
    intro i picked
    obtain ⟨n, same, inside⟩ := pickIndex_inside some_ picked
    exact ⟨n, same, inside, fun h slot => Engine.choose_inside h slot inside⟩
  · obtain ⟨⟨written, _, ready⟩, _, _⟩ := Rules.compileSet_ok made
    obtain ⟨_, i, _, found, _⟩ := ready.fallback
    refine ⟨_, _, Rules.start_eq_ok found accepted source, ?_⟩
    intro calls t speaks result after said
    have complete : Engine.Complete ⟨s, i, options⟩ := ready.complete found
    obtain ⟨capacity, fits⟩ := Engine.after_fits s i options source calls
    obtain ⟨counts, decided⟩ := Engine.speaks_decided complete speaks capacity fits said
    refine ⟨⟨counts, decided⟩, ?_⟩
    intro moderate holdable held
    have still := Engine.after_keeps (e := ⟨s, i, options⟩) Engine.enduring_moderate calls
      (c := ⟨source, .start s options.capacity, []⟩) moderate
    exact decided.told_of_moderate holdable held still

def strayNumbers : List Double := [.finite true 1 (-1), .finite false 15 (-1), .finite false 1 0]

def strays : RandomSource := .sequence (.ofList strayNumbers) 0

theorem strayNumbers_moderate : ∀ x ∈ strayNumbers, x.Moderate := by
  simp only [strayNumbers, List.forall_mem_cons, List.not_mem_nil, false_imp_iff, implies_true,
    and_true]
  exact ⟨Double.moderate_of_le (by norm_num), Double.moderate_of_le (by norm_num),
    Double.moderate_of_le (by norm_num)⟩

theorem strays_moderate : strays.DrawsModerate :=
  RandomSource.next_sequence 0 fun i =>
    strayNumbers_moderate _ (Draws.number_mem (List.cons_ne_nil _ _) i)

/-- Seven and a half picks one of three things, and numbers that are no shares of a whole leave no call
without a text or an excuse. -/
theorem strays_drawn : ∃ s e c, (Rules.compileSet Rules.quarrel .empty).outcome = .ok s ∧
    s.Holdable ∧ Engine.start s (.source strays) .default = .ok (e, c) ∧
    (∃ n : Nat, pickIndex (.finite false 15 (-1)) 3 = .ok n ∧ n < 3) ∧
    ∃ result after, (e.reply "Never, but always.").apply (e.after c bickering) = (result, after) ∧
      (∃ counts, e.Decided (e.after c bickering) counts result after) ∧
      ((∃ text, result = .ok text) ∨ ∃ f, result = .error f ∧ s.Excuses f) := by
  have checked : (Rules.compileSet Rules.quarrel .empty).outcome.toOption.any fun s =>
      decide s.Holdable := by
    decide +kernel
  obtain ⟨s, made, holdable⟩ := exists_of_any checked
  have holdable : s.Holdable := of_decide_eq_true holdable
  obtain ⟨picks, e, c, started, decides⟩ :=
    calls_drawn Rules.quarrel .empty s made strays .default ⟨true, 20, 16, false⟩ rfl
  obtain ⟨counts, told⟩ := decides bickering _ (.reply "Never, but always.") _ _ Prod.mk.eta.symm
  have moderate := strayNumbers_moderate (.finite false 15 (-1)) (by decide)
  obtain ⟨iff_scales, scales, _, inside⟩ := picks (.finite false 15 (-1)) 3 (by decide)
  obtain ⟨i, picked⟩ := iff_scales.mpr (scales moderate (by decide))
  obtain ⟨n, rfl, below, _⟩ := inside i picked
  exact ⟨s, e, c, made, holdable, started, ⟨n, picked, below⟩, _, _, Prod.mk.eta.symm, counts,
    told strays_moderate holdable (by decide)⟩

def blanks : RandomSource := .sequence ⟨fun _ => .nan⟩ 0

/-- A script with one greeting, one farewell and one reply, and nothing to retouch. -/
def terse : Script :=
  { Script.empty with
    rules := [⟨Rules.fallbackKeyword, 0, [⟨"*", ["Go on."]⟩]⟩]
    initials := ["Hello."], finals := ["Goodbye."] }

def breakdown? : Except Failure String → Option Breakdown
  | .error (.breakdown b) => some b
  | _ => none

theorem eq_of_breakdown? {result : Except Failure String} {b : Breakdown}
    (broken : breakdown? result = some b) : result = .error (.breakdown b) := by
  rcases result with (p | b') | text
  · cases broken
  · cases broken
    rfl
  · cases broken

/-- No number and an infinite one pick nothing, not even the only thing there is, and nothing is said. -/
theorem blanks_unpicked : pickIndex .nan 1 = .error .badValue ∧
    pickIndex (.infinite true) 1 = .error .tooLarge ∧
    ∃ s e c, terse.compile.outcome = .ok s ∧ s.retouches = [] ∧
      Engine.start s (.source blanks) .default = .ok (e, c) ∧
      ∀ t ∈ [e.greet, e.bidFarewell, e.reply "Hello."],
        (t.apply c).1 = .error (.breakdown .badValue) := by
  have checked : terse.compile.outcome.toOption.any fun s => decide (s.retouches = []) &&
      (Engine.start s (.source blanks) .default).toOption.any fun p =>
        [p.1.greet, p.1.bidFarewell, p.1.reply "Hello."].all fun t =>
          breakdown? (t.apply p.2).1 = some .badValue := by
    decide +kernel
  obtain ⟨s, made, runs⟩ := exists_of_any checked
  obtain ⟨none_, runs⟩ := (Bool.and_eq_true _ _).mp runs
  obtain ⟨⟨e, c⟩, started, broken⟩ := exists_of_any runs
  refine ⟨by decide +kernel, by decide +kernel, s, e, c, made, of_decide_eq_true none_, started, ?_⟩
  intro t member
  exact eq_of_breakdown? (of_decide_eq_true (List.all_eq_true.mp broken t member))

end Colloquy
