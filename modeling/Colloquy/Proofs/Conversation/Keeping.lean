import Colloquy.Proofs.Conversation.Watched

/-! What is kept of the events seen so far and the history, through every step of a conversation. Only
choices and new starts touch the history, so that whatever rules keep is kept by calls. -/

namespace Colloquy

variable {α β : Type} {holds middle result : List Event → History → Prop}

namespace Turn

def Silent (t : Turn α) : Prop := ∀ c, (t.apply c).2.session.history = c.session.history

theorem Silent.bind {t : Turn α} {f : α → Turn β} (first : t.Silent) (next : ∀ a, (f a).Silent) :
    (t >>= f).Silent := by
  intro c
  have before := first c
  rw [apply_bind]
  rcases applied : t.apply c with ⟨_ | a, c'⟩
  · rwa [applied] at before
  · rw [applied] at before
    exact (next a c').trans before

theorem silent_pure (a : α) : (pure a : Turn α).Silent := fun _ => rfl

theorem silent_get : (get : Turn Conversation).Silent := fun _ => rfl

theorem silent_breakDown (b : Breakdown) : (breakDown b : Turn α).Silent := fun _ => rfl

theorem silent_note (level : Log.Level) (message : String) (trace : List (String × Log.TraceValue)) :
    (note level message trace).Silent := fun _ => rfl

theorem silent_changeSession {change : Session → Session}
    (same : ∀ s, (change s).history = s.history) : (changeSession change).Silent :=
  fun c => same c.session

theorem silent_pick (count : Int) : (pick count).Silent := by
  intro c
  rw [Engine.pick_apply]

theorem silent_pickText (texts : List String) : (pickText texts).Silent := by
  rw [pickText]
  split
  · exact silent_pure _
  · refine (silent_pick _).bind fun i => ?_
    split
    · exact silent_pure _
    · exact silent_breakDown _

theorem silent_remember (reply : String) : (remember reply).Silent := by
  refine .bind (silent_changeSession ?_) fun _ => silent_get.bind fun c => ?_
  · exact fun _ => rfl
  · dsimp only
    split
    · exact (silent_breakDown _).bind fun _ => silent_note _ _ _
    · exact silent_note _ _ _

theorem silent_fetchKept? : fetchKept?.Silent := by
  refine silent_get.bind fun c => ?_
  dsimp only
  split
  · exact silent_pure _
  · refine (silent_pick _).bind fun i => ?_
    split
    · exact .bind (silent_changeSession fun _ => rfl) fun _ => silent_pure _
    · exact silent_breakDown _

end Turn

namespace Watched

/-- Whether a step leads from what holds of the events so far and the history to something that holds
after it. -/
def Leads (holds result : List Event → History → Prop) (w : Watched α) : Prop :=
  ∀ past c, holds past c.session.history →
    result (past ++ w.events c) (w.step.apply c).2.session.history

abbrev Keeps (holds : List Event → History → Prop) (w : Watched α) : Prop := Leads holds holds w

namespace Leads

variable {w : Watched α} {f : α → Watched β}

theorem quiet {t : Turn α} (silent : t.Silent) : Keeps holds (quiet t) := by
  intro past c before
  simpa [Watched.quiet, silent c] using before

theorem pure (a : α) : Keeps holds (Pure.pure a : Watched α) := quiet (Turn.silent_pure a)

theorem see {event : Event} (leads : ∀ past h, holds past h → result (past ++ [event]) h) :
    Leads holds result (see event) := fun past _ before => leads past _ before

theorem weaken (leads : Leads holds middle w) (weaker : ∀ past h, middle past h → result past h) :
    Leads holds result w := fun past c before => weaker _ _ (leads past c before)

theorem bind (first : Leads holds middle w) (fails : ∀ past h, middle past h → result past h)
    (next : ∀ a, Leads middle result (f a)) : Leads holds result (w >>= f) := by
  intro past c before
  have after := first past c before
  rw [step_bind, Turn.apply_bind, events_bind]
  rcases applied : w.step.apply c with ⟨failed | a, c'⟩
  · rw [applied] at after
    simpa using fails _ _ after
  · rw [applied] at after
    rw [← List.append_assoc]
    exact next a _ c' after

end Leads

/-- A choice keeps what holds if it does so whatever candidate is drawn. -/
theorem choose_keeps {slot : Slot} {count : Nat}
    (keeps : ∀ past h x candidate, pickIndex x count = .ok candidate → holds past h →
      holds (past ++ [.chose ⟨slot, candidate, count, (h.choose slot candidate count).1⟩])
        (h.choose slot candidate count).2) :
    Keeps holds (choose slot count) := by
  intro past c before
  simp only [choose, Turn.choose, Turn.apply_bind, Engine.pick_apply]
  cases picked : pickIndex c.source.next.1 count with
  | error _ => simpa [Except.mapError] using before
  | ok candidate => exact keeps past _ _ candidate picked before

/-- Two steps keep what each of them keeps. -/
theorem Keeps.bind {w : Watched α} {f : α → Watched β} (first : Keeps holds w)
    (next : ∀ a, Keeps holds (f a)) : Keeps holds (w >>= f) :=
  Leads.bind first (fun _ _ before => before) next

end Watched

namespace Engine

open Turn Watched

variable {e : Engine}

theorem silent_assemble (d : Rules.Decomposition) (m : Regex.Match) (template : String) :
    (e.assemble d m template).Silent := by
  rw [assemble]
  split
  · exact silent_pure _
  · exact silent_breakDown _

theorem silent_noteChoice (r : Rules.Rule) (d : Rules.Decomposition) (chosen : Reassembly) :
    (e.noteChoice r d chosen).Silent := by
  rw [noteChoice]
  split
  · exact silent_note _ _ _
  · exact silent_pure _

theorem silent_finish (reply : String) : (e.finish reply).Silent := by
  rw [finish]
  split
  · exact silent_pure _
  · exact silent_breakDown _

/-- A new seed is refused and changes nothing, or everything starts anew. -/
theorem reseed_apply (seed : Data) (c : Conversation) :
    (∃ f, (e.reseed seed).apply c = (.error f, c)) ∨
      ∃ source, (e.reseed seed).apply c =
        (.ok (), { c with source, session := c.session.reset e.rules }) := by
  simp only [reseed, apply_bind, apply_get]
  split
  · exact .inl ⟨_, rfl⟩
  · split
    · exact .inl ⟨_, rfl⟩
    · exact .inr ⟨_, rfl⟩

/-- Where a rule leads if choices and redirections that are left keep what holds, and redirections
that are followed lead there. -/
theorem watchDecompositions_leads {fragment : List Char} {r : Rules.Rule} {index depth : Nat}
    {hop : Option (Nat → Watched (Option String))} {ds : List (Rules.Decomposition × Nat)}
    (weaker : ∀ past h, holds past h → result past h)
    (chosen : ∀ p ∈ ds, Keeps holds (Watched.choose (index, p.2) p.1.reassemblies.length))
    (followed : ∀ p ∈ ds, ∀ target i, .redirect target (some i) ∈ p.1.reassemblies →
      ∀ follow, hop = some follow → Leads holds result do
        Watched.see (.followed index i)
        follow i)
    (left : ∀ p ∈ ds, ∀ target i, .redirect target (some i) ∈ p.1.reassemblies →
      hop = none → Keeps holds (Watched.see (.left index i))) :
    Leads holds result (e.watchDecompositions fragment r index depth hop ds) := by
  induction ds with
  | nil => exact (Leads.pure _).weaken weaker
  | cons p rest ih =>
    obtain ⟨d, position⟩ := p
    have later := ih (fun p member => chosen p (List.mem_cons_of_mem _ member))
      (fun p member => followed p (List.mem_cons_of_mem _ member))
      (fun p member => left p (List.mem_cons_of_mem _ member))
    rw [watchDecompositions]
    split
    · exact later
    · refine .bind (chosen (d, position) List.mem_cons_self) weaker fun choice => ?_
      split
      · exact (Leads.quiet (silent_breakDown _)).weaken weaker
      · next reassembly found =>
        have member := List.mem_of_getElem? found
        refine .bind (.quiet (silent_noteChoice r d _)) weaker fun _ => ?_
        cases reassembly with
        | literal template =>
          refine .bind (.quiet (silent_assemble d _ _)) weaker fun reply => ?_
          split
          · exact .bind (.quiet (silent_remember reply)) weaker fun _ => later
          · exact (Leads.pure _).weaken weaker
        | redirect target place =>
          cases place with
          | none => exact .bind (.quiet (silent_note _ _ _)) weaker fun _ => later
          | some i =>
            cases hop with
            | some follow => exact followed _ List.mem_cons_self target i member follow rfl
            | none =>
              refine .bind (left _ List.mem_cons_self target i member rfl) weaker fun _ => ?_
              exact .bind (.quiet (silent_note _ _ _)) weaker fun _ => later

/-! What rules keep is kept by calls. -/

section

variable (ruled : ∀ fragment, ∀ index < e.rules.rules.length,
  Keeps holds (e.watchRule fragment e.options.hopLimit index))
include ruled

theorem watchRules_keeps {fragment : List Char} {rs : List (Rules.Rule × Nat)}
    (inside : ∀ p ∈ rs, p.2 < e.rules.rules.length) : Keeps holds (e.watchRules fragment rs) := by
  induction rs with
  | nil => exact .pure _
  | cons p rest ih =>
    obtain ⟨r, index⟩ := p
    have later := ih fun p member => inside p (List.mem_cons_of_mem _ member)
    rw [watchRules]
    split
    · refine .bind (ruled fragment index (inside _ List.mem_cons_self)) fun reply => ?_
      cases reply with
      | none => exact later
      | some reply => exact .pure _
    · exact later

theorem watchFragments_keeps (fragments : List String) :
    Keeps holds (e.watchFragments fragments) := by
  induction fragments with
  | nil => exact .pure _
  | cons fragment rest ih =>
    rw [watchFragments]
    split
    · exact .pure _
    · refine .bind (watchRules_keeps ruled fun p => List.snd_lt_of_mem_zipIdx) fun reply => ?_
      cases reply with
      | none => exact ih
      | some reply => exact .pure _

theorem watchFallBack_keeps (inside : e.fallback < e.rules.rules.length) :
    Keeps holds e.watchFallBack := by
  refine .bind (.quiet silent_fetchKept?) fun kept => ?_
  cases kept with
  | some reply =>
    refine .bind (.quiet silent_get) fun c => .bind (.quiet (silent_note _ _ _)) fun _ => ?_
    exact .quiet (silent_finish reply)
  | none =>
    refine .bind (ruled _ _ inside) fun reply => ?_
    cases reply with
    | some reply => exact .quiet (silent_finish reply)
    | none => exact .pure _

theorem watchReply_keeps (inside : e.fallback < e.rules.rules.length) (input : String) :
    Keeps holds (e.watchReply input) := by
  refine .bind (.quiet (silent_changeSession fun _ => rfl)) fun _ => ?_
  refine .bind (watchFragments_keeps ruled _) fun outcome => ?_
  cases outcome with
  | farewell =>
    exact .bind (.quiet (silent_changeSession fun _ => rfl)) fun _ => .quiet (silent_pickText _)
  | reply text => exact .quiet (silent_finish text)
  | nothing => exact watchFallBack_keeps ruled inside

/-- A call keeps what its rules keep, if that also holds after a new beginning. -/
theorem watch_keeps (inside : e.fallback < e.rules.rules.length)
    (restarts : ∀ past h, holds past h → holds (past ++ [.restarted]) (.fresh e.rules))
    (call : Call) : Keeps holds (e.watch call) := by
  cases call with
  | reply input => exact .bind (watchReply_keeps ruled inside input) fun _ => .pure _
  | greet => exact .bind (.quiet (silent_pickText _)) fun _ => .pure _
  | bidFarewell => exact .bind (.quiet (silent_pickText _)) fun _ => .pure _
  | reset => exact fun past c before => restarts past _ before
  | reseed seed =>
    intro past c before
    rw [watch, step_bind, events_bind, Turn.apply_bind, step_quiet]
    rcases reseed_apply (e := e) seed c with ⟨f, refused⟩ | ⟨source, begun⟩
    · rw [refused]
      simpa [Watched.quiet] using before
    · rw [begun]
      exact restarts past _ before

/-- What rules and new starts keep holds after calls, if it holds before them. -/
theorem events_keep (inside : e.fallback < e.rules.rules.length)
    (restarts : ∀ past h, holds past h → holds (past ++ [.restarted]) (.fresh e.rules))
    (calls : List Call) (past : List Event) {c : Conversation}
    (before : holds past c.session.history) :
    holds (past ++ e.events c calls) (e.after c calls).session.history := by
  induction calls generalizing past c with
  | nil => simpa [events] using before
  | cons call rest ih =>
    have kept := watch_keeps ruled inside restarts call past c before
    rw [watch_step] at kept
    rw [events, after_cons, ← List.append_assoc]
    exact ih _ kept

end

end Engine
end Colloquy
