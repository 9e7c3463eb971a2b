import Colloquy.Proofs.Conversation.Farewell

/-! Where an input ends the conversation. It does so at its first farewell, if no keyword replies to a
fragment before; what those fragments did stays done, and the rest of the input is not heard. -/

namespace Colloquy

namespace Engine

open Turn

variable {e : Engine} {c c' : Conversation} {fragments : List String} {f : String}
  {holds : Conversation → Prop}

/-! Fragments one after another. -/

/-- What the rules make of a fragment. Keywords are looked for after the substitutions. -/
def hear (e : Engine) (fragment : String) : Turn (Option String) :=
  e.tryRules (e.rules.pres.applyTo fragment.toList) e.rules.rules.zipIdx

/-- The conversation after fragments, of which some may have failed. -/
def heard (e : Engine) (c : Conversation) (fragments : List String) : Conversation :=
  fragments.foldl (fun c f => ((e.hear f).apply c).2) c

/-- What the rules make of the fragment at a position, after those before it. -/
def upshotAt (e : Engine) (c : Conversation) (fragments : List String) (i : Nat) :
    Option (Except Failure (Option String)) :=
  fragments[i]?.map fun f => ((e.hear f).apply (e.heard c (fragments.take i))).1

/-- Whether there is a farewell at a position, and no keyword has replied to a fragment before. -/
def LeavesAt (e : Engine) (c : Conversation) (fragments : List String) (i : Nat) : Prop :=
  (∃ f ∈ fragments[i]?, f ∈ e.rules.quits) ∧
    ∀ j < i, ∀ text, e.upshotAt c fragments j ≠ some (.ok (some text))

/-- Whether the fragment at a position is no farewell, and comes to nothing. -/
def PassedAt (e : Engine) (c : Conversation) (fragments : List String) (i : Nat) : Prop :=
  (∀ f ∈ fragments[i]?, f ∉ e.rules.quits) ∧ e.upshotAt c fragments i = some (.ok none)

/-- Whether the first farewell is at a position, and all fragments before it come to nothing. -/
def PartsAt (e : Engine) (c : Conversation) (fragments : List String) (i : Nat) : Prop :=
  (∃ f ∈ fragments[i]?, f ∈ e.rules.quits) ∧ ∀ j < i, e.PassedAt c fragments j

theorem upshotAt_zero : e.upshotAt c (f :: fragments) 0 = some ((e.hear f).apply c).1 := rfl

theorem upshotAt_succ (i : Nat) :
    e.upshotAt c (f :: fragments) (i + 1) = e.upshotAt ((e.hear f).apply c).2 fragments i := by
  rw [upshotAt, List.getElem?_cons_succ]
  rfl

theorem leavesAt_zero : e.LeavesAt c (f :: fragments) 0 ↔ f ∈ e.rules.quits := by
  simp [LeavesAt]

theorem leavesAt_succ (i : Nat) : e.LeavesAt c (f :: fragments) (i + 1) ↔
    (∀ text, ((e.hear f).apply c).1 ≠ .ok (some text)) ∧
      e.LeavesAt ((e.hear f).apply c).2 fragments i := by
  rw [LeavesAt, LeavesAt, Nat.forall_lt_succ_left, List.getElem?_cons_succ]
  simp only [upshotAt_zero, upshotAt_succ, ne_eq, Option.some.injEq]
  exact and_left_comm

theorem passedAt_zero : e.PassedAt c (f :: fragments) 0 ↔
    f ∉ e.rules.quits ∧ ((e.hear f).apply c).1 = .ok none := by
  simp [PassedAt, upshotAt_zero]

theorem passedAt_succ (i : Nat) : e.PassedAt c (f :: fragments) (i + 1) ↔
    e.PassedAt ((e.hear f).apply c).2 fragments i := by
  rw [PassedAt, PassedAt, upshotAt_succ, List.getElem?_cons_succ]

theorem partsAt_zero : e.PartsAt c (f :: fragments) 0 ↔ f ∈ e.rules.quits := by
  simp [PartsAt]

theorem partsAt_succ (i : Nat) : e.PartsAt c (f :: fragments) (i + 1) ↔
    (f ∉ e.rules.quits ∧ ((e.hear f).apply c).1 = .ok none) ∧
      e.PartsAt ((e.hear f).apply c).2 fragments i := by
  rw [PartsAt, PartsAt, Nat.forall_lt_succ_left, List.getElem?_cons_succ, passedAt_zero]
  simp only [passedAt_succ]
  exact and_left_comm

/-- Fragments are tried from the first one on, up to a farewell or a reply. -/
theorem tryFragments_cons : e.tryFragments (f :: fragments) =
    if f ∈ e.rules.quits then return .farewell
    else do
      match ← e.hear f with
      | none => e.tryFragments fragments
      | some reply => return .reply reply := by
  rw [tryFragments]
  simp only [List.contains_iff_mem]
  split
  · rfl
  · refine bind_congr fun reply => ?_
    cases reply with
    | none => rfl
    | some text => rfl

/-- Fragments that do not fail lead to a farewell just where one ends the conversation. By induction on
the fragments: one that comes to nothing shifts the position by one. -/
theorem tryFragments_farewell_iff {outcome : Outcome}
    (tried : (e.tryFragments fragments).apply c = (.ok outcome, c')) :
    outcome = .farewell ↔ ∃ i, e.LeavesAt c fragments i := by
  induction fragments generalizing c with
  | nil =>
    cases tried
    exact iff_of_false Outcome.noConfusion fun ⟨i, leaves⟩ => by simp [LeavesAt] at leaves
  | cons f rest ih =>
    rw [tryFragments_cons] at tried
    split at tried
    · next said =>
      cases tried
      exact iff_of_true rfl ⟨0, leavesAt_zero.mpr said⟩
    · next unsaid =>
      have first : (∃ i, e.LeavesAt c (f :: rest) i) ↔ ∃ i, e.LeavesAt c (f :: rest) (i + 1) := by
        constructor
        · rintro ⟨i | i, leaves⟩
          · exact absurd (leavesAt_zero.mp leaves) unsaid
          · exact ⟨i, leaves⟩
        · exact fun ⟨i, leaves⟩ => ⟨i + 1, leaves⟩
      rw [first]
      simp only [leavesAt_succ]
      rw [apply_bind] at tried
      rcases ran : (e.hear f).apply c with ⟨failure | _ | text, c₁⟩ <;> rw [ran] at tried
      · cases tried
      · simpa using ih tried
      · cases tried
        exact iff_of_false Outcome.noConfusion fun ⟨i, quiet, _⟩ => quiet text rfl

/-- A farewell is the first one, and all fragments before it come to nothing. -/
theorem tryFragments_parts_iff : (e.tryFragments fragments).apply c = (.ok .farewell, c') ↔
    ∃ i, e.PartsAt c fragments i ∧ c' = e.heard c (fragments.take i) := by
  induction fragments generalizing c with
  | nil => exact iff_of_false nofun fun ⟨i, parts, _⟩ => by simp [PartsAt] at parts
  | cons f rest ih =>
    rw [tryFragments_cons]
    split
    · next said =>
      constructor
      · intro tried
        cases tried
        exact ⟨0, partsAt_zero.mpr said, rfl⟩
      · rintro ⟨i | i, parts, rfl⟩
        · rfl
        · exact absurd said ((partsAt_succ i).mp parts).1.1
    · next unsaid =>
      have later : (∃ i, e.PartsAt c (f :: rest) i ∧ c' = e.heard c ((f :: rest).take i)) ↔
          ((e.hear f).apply c).1 = .ok none ∧ ∃ i, e.PartsAt ((e.hear f).apply c).2 rest i ∧
            c' = e.heard ((e.hear f).apply c).2 (rest.take i) := by
        constructor
        · rintro ⟨i | i, parts, left⟩
          · exact absurd (partsAt_zero.mp parts) unsaid
          · obtain ⟨⟨_, nothing⟩, parts⟩ := (partsAt_succ i).mp parts
            exact ⟨nothing, i, parts, left⟩
        · rintro ⟨nothing, i, parts, left⟩
          exact ⟨i + 1, (partsAt_succ i).mpr ⟨⟨unsaid, nothing⟩, parts⟩, left⟩
      rw [later, apply_bind]
      rcases (e.hear f).apply c with ⟨failure | _ | text, c₁⟩
      · exact iff_of_false nofun fun nothing => nomatch nothing.1
      · exact ih.trans (and_iff_right rfl).symm
      · exact iff_of_false nofun fun nothing => nomatch nothing.1

/-! What fragments keep. -/

section

variable (lasting : Conversation.Lasting holds)
include lasting

theorem keeps_tryRules (fragment : List Char) (rs : List (Rules.Rule × Nat)) :
    Keeps holds (e.tryRules fragment rs) := by
  induction rs with
  | nil => exact keeps_pure _
  | cons p rest ih =>
    obtain ⟨r, index⟩ := p
    rw [tryRules]
    split
    · refine (keeps_answerBy lasting fragment index).bind fun reply => ?_
      cases reply with
      | some text => exact keeps_pure _
      | none => exact ih
    · exact ih

theorem keeps_tryFragments (fragments : List String) : Keeps holds (e.tryFragments fragments) := by
  induction fragments with
  | nil => exact keeps_pure _
  | cons f rest ih =>
    rw [tryFragments_cons]
    split
    · exact keeps_pure _
    · refine (keeps_tryRules lasting _ _).bind fun reply => ?_
      cases reply with
      | some text => exact keeps_pure _
      | none => exact ih

end

/-- What is replied to an input that has led to nothing leaves the mark of a farewell alone. -/
theorem fallBack_quit (c : Conversation) : (e.fallBack.apply c).2.session.quit = c.session.quit := by
  have same := lasting_quit c.session.quit
  have fetches : Keeps (fun c' => c'.session.quit = c.session.quit) fetchKept? :=
    fun c' before => ⟨(fetchKept?_quit c').trans before, by split <;> trivial⟩
  have finishes (text : String) : Keeps (fun c' => c'.session.quit = c.session.quit) (e.finish text) := by
    intro c' before
    rw [finish_apply]
    exact ⟨before, by split <;> trivial⟩
  refine (fetches.bind fun kept => ?_).keeps rfl
  cases kept with
  | some reply =>
    refine Keeps.bind .read fun c' => ?_
    exact (keeps_note same.toSteady _ _ _).bind fun _ => finishes reply
  | none =>
    refine (keeps_answerBy same _ _).bind fun reply => ?_
    cases reply with
    | some text => exact finishes text
    | none => exact keeps_pure _

/-! The last word. -/

/-- One of some texts is drawn with one number, and nothing from none. -/
theorem pickText_apply {texts : List String} (held : texts.length < countLimit)
    (unit : c.source.DrawsInUnit) :
    texts = [] ∧ (pickText texts).apply c = (.ok "", c) ∨
      ∃ (n : Nat) (inside : n < texts.length), pickIndex c.source.next.1 texts.length = .ok n ∧
        (pickText texts).apply c = (.ok texts[n], { c with source := c.source.next.2 }) := by
  by_cases empty : texts = []
  · subst empty
    exact .inl ⟨rfl, rfl⟩
  · have some_ : 0 < texts.length := List.length_pos_iff.mpr empty
    obtain ⟨i, picked⟩ := pickIndex_ok unit.first held
    obtain ⟨n, rfl, inside⟩ := pickIndex_inside some_ picked
    refine .inr ⟨n, inside, picked, ?_⟩
    have listed : ¬ texts.isEmpty := by simpa using empty
    rw [pickText, if_neg listed, apply_bind, pick_apply, picked]
    simp only [Except.mapError, Int.toNat_natCast, List.getElem?_eq_getElem inside, apply_pure]

/-- Whether this is what is said and left at the end of a conversation: nothing where there are no final
words, and otherwise one of them as it is written, for one number drawn. -/
inductive Bids (e : Engine) (c : Conversation) : Except Failure String → Conversation → Prop
  | silent (none : e.rules.finals = []) : Bids e c (.ok "") c
  | spoken {n : Nat} (inside : n < e.rules.finals.length)
      (picked : pickIndex c.source.next.1 e.rules.finals.length = .ok n) :
      Bids e c (.ok e.rules.finals[n]) { c with source := c.source.next.2 }

/-- A farewell is one of the final words, chosen by one number, if numbers are shares. -/
theorem bidFarewell_bids (held : e.rules.finals.length < countLimit) (unit : c.source.DrawsInUnit) :
    e.Bids c (e.bidFarewell.apply c).1 (e.bidFarewell.apply c).2 := by
  rw [bidFarewell]
  rcases pickText_apply held unit with ⟨none, said⟩ | ⟨n, inside, picked, said⟩
  · rw [said]
    exact .silent none
  · rw [said]
    exact .spoken inside picked

theorem Bids.quit {result : Except Failure String} (bids : e.Bids c result c') :
    c'.session.quit = c.session.quit := by
  cases bids <;> rfl

/-- An input leads to a farewell, which ends the conversation, or else the conversation goes on. -/
theorem reply_farewell_or {input : String} {result : Except Failure String} {after : Conversation}
    (held : e.rules.finals.length < countLimit) (unit : c.source.DrawsInUnit)
    (said : (e.reply input).apply c = (result, after)) :
    (∃ c', (e.tryFragments (Fragment.split input)).apply c.resumed = (.ok .farewell, c') ∧
        e.Bids c'.ended result after) ∨
      after.session.quit = false ∧
        (∀ c', (e.tryFragments (Fragment.split input)).apply c.resumed ≠ (.ok .farewell, c')) ∧
        ∀ text, result = .ok text → ∃ outcome c',
          (e.tryFragments (Fragment.split input)).apply c.resumed = (.ok outcome, c') := by
  rw [reply, apply_bind, apply_changeSession] at said
  change (_ : Turn String).apply c.resumed = _ at said
  rw [apply_bind] at said
  have quit := (keeps_tryFragments (e := e) (lasting_quit false) (Fragment.split input) c.resumed rfl).1
  have draws := (keeps_tryFragments (e := e) lasting_unit (Fragment.split input) c.resumed unit).1
  rcases tried : (e.tryFragments (Fragment.split input)).apply c.resumed with
    ⟨failure | _ | text | _, c'⟩
  · rw [tried] at said quit
    cases said
    refine .inr ⟨quit, fun c₁ same => ?_, fun text same => ?_⟩
    · cases same
    · cases same
  · rw [tried] at said draws
    have bids := bidFarewell_bids held (c := c'.ended) draws
    dsimp only at said
    rw [apply_bind, apply_changeSession] at said
    change e.bidFarewell.apply c'.ended = _ at said
    rw [said] at bids
    exact .inl ⟨c', rfl, bids⟩
  · rw [tried] at said quit
    dsimp only at said
    rw [finish_apply] at said
    cases said
    refine .inr ⟨quit, fun c₁ same => ?_, fun _ _ => ⟨_, _, rfl⟩⟩
    cases same
  · rw [tried] at said quit
    have same := fallBack_quit (e := e) c'
    dsimp only at said
    rw [said] at same
    refine .inr ⟨same.trans quit, fun c₁ other => ?_, fun _ _ => ⟨_, _, rfl⟩⟩
    cases other

end Engine

/-- After an input, whatever was said before, the conversation is over just if a farewell is among the
fragments and all fragments before it come to nothing; for an input that has a reply, just if no keyword
has replied to a fragment before a farewell. Then nothing is left behind but what the fragments before it
have done, the mark of the farewell and the number that was drawn for the final word. -/
theorem leaves_iff (entries : List Script.Entry) (tables : Script) (s : RuleSet)
    (made : (Rules.compileSet entries tables).outcome = .ok s) (holdable : s.Holdable)
    (source : RandomSource) (unit : source.DrawsInUnit) (settings : EngineSettings)
    (options : Options) (accepted : settings.check = .ok options) :
    ∃ e c, Engine.start s (.source source) settings = .ok (e, c) ∧ e.rules = s ∧
      ∀ calls input result after, (e.reply input).apply (e.after c calls) = (result, after) →
        (after.session.quit = true ↔
          ∃ i, e.PartsAt (e.after c calls).resumed (Fragment.split input) i) ∧
        ((∃ text, result = .ok text) → (after.session.quit = true ↔
          ∃ i, e.LeavesAt (e.after c calls).resumed (Fragment.split input) i)) ∧
        (after.session.quit = true → ∃ i,
          e.PartsAt (e.after c calls).resumed (Fragment.split input) i ∧
          e.Bids (e.heard (e.after c calls).resumed ((Fragment.split input).take i)).ended
            result after) := by
  obtain ⟨⟨written, _, ready⟩, _, _⟩ := Rules.compileSet_ok made
  obtain ⟨_, i, _, found, _⟩ := ready.fallback
  refine ⟨⟨s, i, options⟩, ⟨source, .start s options.capacity, []⟩,
    Rules.start_eq_ok found accepted source, rfl, ?_⟩
  intro calls input result after said
  have able : Engine.Able ⟨s, i, options⟩ := ready.able found holdable
  have underway := Engine.after_underway able calls
    (c := ⟨source, .start s options.capacity, []⟩) ⟨unit, Int.natCast_nonneg _⟩
  rcases Engine.reply_farewell_or holdable.finals underway.unit said with
    ⟨c', tried, bids⟩ | ⟨still, unsaid, others⟩
  · have finished : after.session.quit = true := bids.quit
    have leaves := (Engine.tryFragments_farewell_iff tried).mp rfl
    obtain ⟨i, parts, rfl⟩ := Engine.tryFragments_parts_iff.mp tried
    exact ⟨iff_of_true finished ⟨i, parts⟩, fun _ => iff_of_true finished leaves,
      fun _ => ⟨i, parts, bids⟩⟩
  · have goes := ne_true_of_eq_false still
    refine ⟨iff_of_false goes ?_, fun ⟨text, given⟩ => iff_of_false goes ?_,
      fun finished => absurd finished goes⟩
    · rintro ⟨i, parts⟩
      exact unsaid _ (Engine.tryFragments_parts_iff.mpr ⟨i, parts, rfl⟩)
    · intro leaves
      obtain ⟨outcome, c', tried⟩ := others text given
      cases (Engine.tryFragments_farewell_iff tried).mpr leaves
      exact unsaid c' tried

def confiding : Script :=
  { Script.empty with
    rules := [⟨"my", 1, [⟨"$* my *", ["Your (2)."]⟩]⟩,
      ⟨Rules.fallbackKeyword, 0, [⟨"*", ["Go on."]⟩]⟩]
    quits := ["Bye"], finals := ["Goodbye."] }

theorem confiding_left : ∃ s e c after, confiding.compile.outcome = .ok s ∧ s.Holdable ∧
    halves.DrawsInUnit ∧ Engine.start s (.source halves) .default = .ok (e, c) ∧
    (e.reply "I miss my cat. Bye, dear!").apply (e.after c []) = (.ok "Goodbye.", after) ∧
    (∃ i, e.LeavesAt c.resumed (Fragment.split "I miss my cat. Bye, dear!") i) ∧
    ∃ i, e.PartsAt c.resumed (Fragment.split "I miss my cat. Bye, dear!") i ∧
      e.Bids (e.heard c.resumed ((Fragment.split "I miss my cat. Bye, dear!").take i)).ended
        (.ok "Goodbye.") after := by
  have checked : confiding.compile.outcome.toOption.any fun s => decide s.Holdable := by
    decide +kernel
  obtain ⟨s, made, holdable⟩ := exists_of_any checked
  have holdable : s.Holdable := of_decide_eq_true holdable
  obtain ⟨e, c, started, _, leaves⟩ := leaves_iff (confiding.rules.map .rule) confiding s made holdable
    halves halves_inUnit .default ⟨true, 20, 16, false⟩ rfl
  have replied : confiding.firstReply? "I miss my cat. Bye, dear!" =
      some ("Goodbye.".toList, true) := by decide +kernel
  obtain ⟨s', e', c', after, made', started', said, finished⟩ := of_firstReply? replied
  cases made.symm.trans made'
  cases started.symm.trans started'
  obtain ⟨_, over_iff, left⟩ := leaves [] "I miss my cat. Bye, dear!" _ _ said
  exact ⟨s, e, c, after, made, holdable, halves_inUnit, started, said,
    (over_iff ⟨_, rfl⟩).mp finished, left finished⟩

end Colloquy
