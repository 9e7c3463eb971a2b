import Colloquy.Proofs.Conversation.Hops
import Colloquy.Proofs.Conversation.Remembered

/-! Decompositions whose replies are kept. The decompositions after them have their turn as if they did
not match, unless a redirection is chosen that can be followed: then the run of the rule ends with what
the other rule makes of the fragment. -/

namespace Colloquy

/-- Whether a reassembly leads to another rule: its keyword has one, and a redirection is left. -/
def Reassembly.IsFollowed (hops : Nat) (a : Reassembly) : Prop :=
  0 < hops ∧ ∃ target i, a = .redirect target (some i)

namespace Engine

open Turn

/-- A decomposition tried on a fragment, with so many redirections left. -/
def step (e : Engine) (fragment : List Char) (r : Rules.Rule) (index hops : Nat)
    (p : Rules.Decomposition × Nat) : Turn Upshot :=
  e.attempt r index (e.options.hopLimit - hops) (decide (0 < hops)) fragment p

/-- Decompositions of a rule tried one after the other, with so many redirections left. -/
def scan (e : Engine) (fragment : List Char) (r : Rules.Rule) (index hops : Nat)
    (ds : List (Rules.Decomposition × Nat)) : Turn (Option String) :=
  e.tryDecompositions r index (e.options.hopLimit - hops) (e.hop? fragment hops) fragment ds

/-- Decompositions that are passed one after another, from one conversation to the next: each of them
comes to nothing or to a reply that is kept. -/
inductive Passes (e : Engine) (fragment : List Char) (r : Rules.Rule) (index hops : Nat) :
    Conversation → List (Rules.Decomposition × Nat) → Conversation → Prop
  | nil {c : Conversation} : Passes e fragment r index hops c [] c
  | idle {c c' c'' : Conversation} {p : Rules.Decomposition × Nat}
      {rest : List (Rules.Decomposition × Nat)}
      (tried : (e.step fragment r index hops p).apply c = (.ok .nothing, c'))
      (others : Passes e fragment r index hops c' rest c'') :
      Passes e fragment r index hops c (p :: rest) c''
  | kept {c c' c'' : Conversation} {p : Rules.Decomposition × Nat}
      {rest : List (Rules.Decomposition × Nat)} {reply : String}
      (tried : (e.step fragment r index hops p).apply c = (.ok (.kept reply), c'))
      (others : Passes e fragment r index hops c' rest c'') :
      Passes e fragment r index hops c (p :: rest) c''

/-- How a decomposition leaves the run of its rule, which begins in one conversation and has come to
another, to the decompositions after it: its reply is kept, or its redirection is not followed. A number
with too many digits in its template stops the run. -/
inductive Defers (e : Engine) (fragment : List Char) (r : Rules.Rule) (index hops : Nat)
    (c c₁ : Conversation) (p : Rules.Decomposition × Nat) (rest : List (Rules.Decomposition × Nat))
    (chosen : Reassembly) : Prop
  | kept {template reply : String} {m : Regex.Match} {c₂ : Conversation}
      (literal : chosen = .literal template) (found : p.1.match? fragment = some m)
      (filled : ∀ c, (e.assemble p.1 m template).apply c = (.ok reply, c))
      (tried : (e.step fragment r index hops p).apply c₁ = (.ok (.kept reply), c₂))
      (saved : c₂.session.memory = c₁.session.memory.save reply)
      (goes : (e.runRule fragment hops index).apply c = (e.scan fragment r index hops rest).apply c₂)
  | idle {target : String} {place : Option Nat} {c₂ : Conversation}
      (redirect : chosen = .redirect target place)
      (tried : (e.step fragment r index hops p).apply c₁ = (.ok .nothing, c₂))
      (same : c₂.session.memory = c₁.session.memory)
      (goes : (e.runRule fragment hops index).apply c = (e.scan fragment r index hops rest).apply c₂)
  | stopped {template : String} {f : Failure} {c₂ : Conversation} (literal : chosen = .literal template)
      (excused : e.rules.Excuses f)
      (tried : (e.step fragment r index hops p).apply c₁ = (.error f, c₂))
      (ends : (e.runRule fragment hops index).apply c = (.error f, c₂))

variable {e : Engine} {r : Rules.Rule} {index hops : Nat} {fragment : List Char} {c c₁ : Conversation}
  {p : Rules.Decomposition × Nat} {ran rest : List (Rules.Decomposition × Nat)}

/-! The run of a rule as a scan. -/

theorem runRule_scan (found : e.rules.rules[index]? = some r) :
    e.runRule fragment hops index = e.scan fragment r index hops r.decompositions.zipIdx := by
  rw [runRule_eq, found]
  rfl

/-- What follows a decomposition in a scan, given what it has come to. -/
def proceed (e : Engine) (fragment : List Char) (r : Rules.Rule) (index hops : Nat)
    (rest : List (Rules.Decomposition × Nat)) : Upshot → Turn (Option String)
  | .nothing | .kept _ => e.scan fragment r index hops rest
  | .redirected target => (e.hop? fragment hops).elim (return none) fun follow => follow target
  | .answered reply => return some reply

theorem scan_cons : e.scan fragment r index hops (p :: rest) =
    e.step fragment r index hops p >>= e.proceed fragment r index hops rest := by
  have some_ : (e.hop? fragment hops).isSome = decide (0 < hops) := by
    cases hops with
    | zero => rfl
    | succ fewer => simp [hop?]
  rw [scan, tryDecompositions_cons, some_]
  refine bind_congr ?_
  intro upshot
  cases upshot <;> rfl

/-- A scan goes on from what the first decomposition comes to. -/
theorem scan_step {upshot : Upshot} {c' : Conversation}
    (tried : (e.step fragment r index hops p).apply c = (.ok upshot, c')) :
    (e.scan fragment r index hops (p :: rest)).apply c =
      (e.proceed fragment r index hops rest upshot).apply c' := by
  rw [scan_cons, apply_bind, tried]

/-- A scan goes on behind the decompositions that it has passed. -/
theorem Passes.scan (passed : e.Passes fragment r index hops c ran c₁) :
    (e.scan fragment r index hops (ran ++ rest)).apply c =
      (e.scan fragment r index hops rest).apply c₁ := by
  induction passed with
  | nil => rfl
  | idle tried _ ih =>
    rw [List.cons_append, scan_step tried]
    exact ih
  | kept tried _ ih =>
    rw [List.cons_append, scan_step tried]
    exact ih

/-- What lasts through the trial of decompositions lasts through those that are passed. -/
theorem Passes.keeps {holds : Conversation → Prop} (lasting : Conversation.Lasting holds)
    (passed : e.Passes fragment r index hops c ran c₁) (before : holds c) : holds c₁ := by
  have step (p : Rules.Decomposition × Nat) : Keeps holds (e.step fragment r index hops p) :=
    keeps_attempt lasting p
  induction passed with
  | nil => exact before
  | @idle c c' _ p _ tried _ ih =>
    have after := (step p c before).1
    rw [tried] at after
    exact ih after
  | @kept c c' _ p _ _ tried _ ih =>
    have after := (step p c before).1
    rw [tried] at after
    exact ih after

theorem lasting_underway : Conversation.Lasting Conversation.Underway where
  draw _ underway := ⟨underway.unit.next, underway.room⟩
  choice _ _ underway := ⟨underway.unit, underway.room⟩
  record _ _ underway := ⟨underway.unit, underway.room⟩
  save _ _ underway := ⟨underway.unit, underway.room⟩

/-! A decomposition that matches. -/

theorem noteChoice_apply (chosen : Reassembly) (c : Conversation) :
    ∃ records, (e.noteChoice r p.1 chosen).apply c = (.ok (), { c with records }) := by
  rw [noteChoice]
  split
  · exact ⟨_, rfl⟩
  · exact ⟨c.records, rfl⟩

/-- A reassembly is always found for a decomposition. The memory is left alone. -/
theorem draw_apply (index : Nat) (able : e.Able) (rule : r ∈ e.rules.rules)
    (decomposition : p.1 ∈ r.decompositions) (underway : c.Underway) : ∃ chosen c', (e.draw r index p).apply c = (.ok chosen, c') ∧
      chosen ∈ p.1.reassemblies ∧ c'.session.memory = c.session.memory ∧ c'.Underway := by
  have some_ : 0 < p.1.reassemblies.length :=
    List.length_pos_iff.mpr (able.answered r rule p.1 decomposition)
  have held := able.holdable.reassemblies r rule p.1 decomposition
  obtain ⟨i, picked⟩ := pickIndex_ok underway.unit.first held
  obtain ⟨n, rfl, inside⟩ := pickIndex_inside some_ picked
  obtain ⟨k, chosen, within⟩ := choose_inside c.session.history (index, p.2) inside
  have drawn : ∃ c', (choose (index, p.2) p.1.reassemblies.length).apply c = (.ok (k : Int), c') ∧
      c'.session.memory = c.session.memory ∧ c'.Underway := by
    simp only [choose, apply_bind, pick_apply, picked, Except.mapError, apply_get,
      apply_changeSession, apply_pure, chosen]
    exact ⟨_, rfl, rfl, underway.unit.next, underway.room⟩
  obtain ⟨c', drawn, same, still⟩ := drawn
  obtain ⟨records, noted⟩ := noteChoice_apply (e := e) (r := r) (p := p) p.1.reassemblies[k] c'
  refine ⟨p.1.reassemblies[k], { c' with records }, ?_, List.getElem_mem within, same,
    still.unit, still.room⟩
  rw [draw, apply_bind, drawn]
  simp only [Int.toNat_natCast, List.getElem?_eq_getElem within, apply_bind, noted, apply_pure]

theorem step_apply {m : Regex.Match} {chosen : Reassembly} {c₂ : Conversation}
    (found : p.1.match? fragment = some m) (drawn : (e.draw r index p).apply c₁ = (.ok chosen, c₂)) :
    (e.step fragment r index hops p).apply c₁ =
      (e.carryOut r (e.options.hopLimit - hops) (decide (0 < hops)) p.1 m chosen).apply c₂ := by
  rw [step, attempt, found]
  simp only [apply_bind, drawn]

/-- What a decomposition whose replies are kept comes to with a text. -/
theorem carryOut_literal (rule : r ∈ e.rules.rules) (decomposition : p.1 ∈ r.decompositions)
    {template : String} (reassembly : .literal template ∈ p.1.reassemblies) (kept : p.1.kept = true)
    (depth : Nat) (follows : Bool) (m : Regex.Match) (underway : c.Underway) :
    (∃ reply c', (∀ c, (e.assemble p.1 m template).apply c = (.ok reply, c)) ∧
      (e.carryOut r depth follows p.1 m (.literal template)).apply c = (.ok (.kept reply), c') ∧
        c'.session.memory = c.session.memory.save reply) ∨
    ∃ f, e.rules.Excuses f ∧
      (e.carryOut r depth follows p.1 m (.literal template)).apply c = (.error f, c) := by
  cases filled : Template.fill (e.echo p.1.expression.groups m) (Template.pieces template) with
  | ok text =>
    have assembled (c : Conversation) : (e.assemble p.1 m template).apply c =
        (.ok (String.ofList (Text.tidy text)), c) := by
      rw [assemble, filled]
      rfl
    obtain ⟨records, remembered⟩ := remember_apply (String.ofList (Text.tidy text)) underway.room
    have saved : (e.carryOut r depth follows p.1 m (.literal template)).apply c =
        (.ok (.kept (String.ofList (Text.tidy text))), { c with
          session := { c.session with
            memory := c.session.memory.save (String.ofList (Text.tidy text)) }, records }) := by
      rw [carryOut, apply_bind, assembled]
      simp only [kept, if_true, apply_bind, remembered, apply_pure]
    exact .inl ⟨_, _, assembled, saved, rfl⟩
  | error b =>
    obtain ⟨rfl, digits, inside, unread⟩ :=
      Template.unread_of_fill_error (echo_ok p.1.expression.groups m) filled
    have long := Template.long_of_mem_pieces inside unread
    refine .inr ⟨_, .number rule decomposition reassembly inside long, ?_⟩
    rw [carryOut, apply_bind, assemble, filled]
    rfl

theorem carryOut_redirect {target : String} {place : Option Nat} (depth : Nat) (m : Regex.Match)
    (stays : ¬ (Reassembly.redirect target place).IsFollowed hops) (c : Conversation) :
    ∃ records, (e.carryOut r depth (decide (0 < hops)) p.1 m (.redirect target place)).apply c =
      (.ok .nothing, { c with records }) := by
  cases place with
  | none => exact ⟨_, rfl⟩
  | some i =>
    have none_left : ¬ 0 < hops := fun left => stays ⟨left, target, i, rfl⟩
    rw [carryOut, decide_eq_false none_left, if_neg Bool.false_ne_true]
    exact ⟨_, rfl⟩

section

variable {m : Regex.Match} {chosen : Reassembly} {c₂ : Conversation}
  (found : e.rules.rules[index]? = some r)
  (parted : r.decompositions.zipIdx = ran ++ p :: rest)
  (passed : e.Passes fragment r index hops c ran c₁)
  (matched : p.1.match? fragment = some m)
  (drawn : (e.draw r index p).apply c₁ = (.ok chosen, c₂))

include found parted passed

/-- The run of a rule once it has come to a decomposition. -/
theorem runRule_passed : (e.runRule fragment hops index).apply c =
    (e.scan fragment r index hops (p :: rest)).apply c₁ := by
  rw [runRule_scan found, parted]
  exact passed.scan

include matched drawn

/-- A decomposition that keeps its replies defers unless a redirection is followed. -/
theorem defers_of_not_followed (rule : r ∈ e.rules.rules) (decomposition : p.1 ∈ r.decompositions)
    (kept : p.1.kept = true) (reassembly : chosen ∈ p.1.reassemblies)
    (memory : c₂.session.memory = c₁.session.memory) (underway : c₂.Underway)
    (stays : ¬ chosen.IsFollowed hops) : e.Defers fragment r index hops c c₁ p rest chosen := by
  have run := runRule_passed found parted passed
  have tried : (e.step fragment r index hops p).apply c₁ = _ := step_apply matched drawn
  cases chosen with
  | redirect target place =>
    obtain ⟨records, idle⟩ := carryOut_redirect (e := e) (r := r) (p := p)
      (e.options.hopLimit - hops) m stays c₂
    rw [idle] at tried
    exact .idle rfl tried memory (run.trans (scan_step tried))
  | literal template =>
    rcases carryOut_literal rule decomposition reassembly kept (e.options.hopLimit - hops)
        (decide (0 < hops)) m underway with ⟨reply, c₃, filled, keeps, saved⟩ | ⟨f, excused, fails⟩
    · rw [keeps] at tried
      rw [memory] at saved
      exact .kept rfl matched filled tried saved (run.trans (scan_step tried))
    · rw [fails] at tried
      refine .stopped rfl excused tried ?_
      rw [run, scan_cons, apply_bind, tried]

/-- A redirection that is followed ends the run of its rule, and nothing is kept. -/
theorem redirected_of_followed {target : String} {i fewer : Nat}
    (redirect : chosen = .redirect target (some i)) (left : hops = fewer + 1) :
    (e.step fragment r index hops p).apply c₁ = (.ok (.redirected i), c₂) ∧
      (e.runRule fragment hops index).apply c = (e.runRule fragment fewer i).apply c₂ := by
  subst redirect left
  have tried : (e.step fragment r index (fewer + 1) p).apply c₁ = (.ok (.redirected i), c₂) := by
    rw [step_apply matched drawn]
    simp [carryOut]
  refine ⟨tried, ?_⟩
  rw [runRule_passed found parted passed, scan_step tried]
  rfl

theorem not_followed_of_defers (defers : e.Defers fragment r index hops c c₁ p rest chosen) :
    ¬ chosen.IsFollowed hops := by
  rintro ⟨left, target, i, redirect⟩
  obtain ⟨fewer, more⟩ := Nat.exists_eq_add_one_of_ne_zero (Nat.ne_of_gt left)
  obtain ⟨followed, _⟩ := redirected_of_followed found parted passed matched drawn redirect more
  cases defers with
  | kept literal _ _ tried => cases followed.symm.trans tried
  | idle _ tried => cases followed.symm.trans tried
  | stopped literal _ tried => cases followed.symm.trans tried

end

end Engine

/-- Whatever the state of a conversation is, a decomposition whose replies are kept leaves the run of
its rule to the decompositions after it, and its reply to the memory, unless a redirection is chosen
for it that can be followed. Then the run ends with that of the other rule. -/
theorem kept_deferred_iff (entries : List Script.Entry) (tables : Script) (s : RuleSet)
    (made : (Rules.compileSet entries tables).outcome = .ok s) (holdable : s.Holdable)
    (source : RandomSource) (settings : EngineSettings) (options : Options)
    (accepted : settings.check = .ok options) :
    ∃ e c₀, Engine.start s (.source source) settings = .ok (e, c₀) ∧ e.rules = s ∧
      ∀ (fragment : List Char) (index hops : Nat) (r : Rules.Rule)
        (ran rest : List (Rules.Decomposition × Nat)) (p : Rules.Decomposition × Nat)
        (c c₁ : Conversation), s.rules[index]? = some r →
        r.decompositions.zipIdx = ran ++ p :: rest → c.Underway →
        e.Passes fragment r index hops c ran c₁ → p.1.kept = true →
        (p.1.match? fragment).isSome = true →
        ∃ chosen c₂, (e.draw r index p).apply c₁ = (.ok chosen, c₂) ∧ chosen ∈ p.1.reassemblies ∧
          (e.Defers fragment r index hops c c₁ p rest chosen ↔ ¬ chosen.IsFollowed hops) ∧
          ∀ target i fewer, chosen = .redirect target (some i) → hops = fewer + 1 →
            (e.runRule fragment hops index).apply c = (e.runRule fragment fewer i).apply c₂ := by
  obtain ⟨⟨_, _, ready⟩, _, _⟩ := Rules.compileSet_ok made
  obtain ⟨_, i, _, fallback, _⟩ := ready.fallback
  have able : Engine.Able ⟨s, i, options⟩ := ready.able fallback holdable
  refine ⟨⟨s, i, options⟩, _, Rules.start_eq_ok fallback accepted source, rfl, ?_⟩
  intro fragment index hops r ran rest p c c₁ found parted underway passed kept matched
  obtain ⟨m, matched⟩ := Option.isSome_iff_exists.mp matched
  have rule : r ∈ s.rules := List.mem_of_getElem? found
  have member : p ∈ r.decompositions.zipIdx := by simp [parted]
  have decomposition : p.1 ∈ r.decompositions := List.fst_mem_of_mem_zipIdx member
  have reached := passed.keeps Engine.lasting_underway underway
  obtain ⟨chosen, c₂, drawn, reassembly, memory, still⟩ :=
    Engine.draw_apply index able rule decomposition reached
  refine ⟨chosen, c₂, drawn, reassembly, ⟨?_, ?_⟩, ?_⟩
  · exact Engine.not_followed_of_defers found parted passed matched drawn
  · exact Engine.defers_of_not_followed found parted passed matched drawn rule decomposition kept
      reassembly memory still
  · intro target i fewer redirect left
    exact (Engine.redirected_of_followed found parted passed matched drawn redirect left).2

/-- A script whose one keyword keeps a text for later, or what another keyword replies. -/
def deferring : Script :=
  { Script.empty with
    rules := [⟨"my", 1, [⟨"$ * my *", ["Your (2).", "goto dog"]⟩, ⟨"* my *", ["Why your (2)?"]⟩]⟩,
      ⟨"dog", 0, [⟨"*", ["Tell me about dogs."]⟩]⟩,
      ⟨Rules.fallbackKeyword, 0, [⟨"*", ["Go on."]⟩]⟩] }

/-- The first rule, and its first decomposition if that matches a fragment and its replies are kept. -/
def RuleSet.firstKept? (s : RuleSet) (fragment : List Char) :
    Option (Rules.Rule × (Rules.Decomposition × Nat)) :=
  match s.rules with
  | r :: _ =>
    match r.decompositions.zipIdx with
    | p :: _ => if p.1.kept && (p.1.match? fragment).isSome then some (r, p) else none
    | [] => none
  | [] => none

theorem RuleSet.of_firstKept? {s : RuleSet} {fragment : List Char} {r : Rules.Rule}
    {p : Rules.Decomposition × Nat} (first : s.firstKept? fragment = some (r, p)) :
    s.rules[0]? = some r ∧ p.1.kept = true ∧ (p.1.match? fragment).isSome = true ∧
      ∃ rest, r.decompositions.zipIdx = [] ++ p :: rest := by
  rw [firstKept?] at first
  split at first
  · next r' others rules =>
    split at first
    · next p' rest parted =>
      split at first
      · next fits =>
        cases first
        rw [Bool.and_eq_true] at fits
        exact ⟨by rw [rules]; rfl, fits.1, fits.2, rest, parted⟩
      · contradiction
    · contradiction
  · contradiction

theorem deferring_deferred : ∃ s e c, deferring.compile.outcome = .ok s ∧ s.Holdable ∧
    Engine.start s (.source halves) .default = .ok (e, c) ∧ c.Underway ∧
    ∃ r p rest, s.rules[0]? = some r ∧ r.decompositions.zipIdx = [] ++ p :: rest ∧
      p.1.kept = true ∧ (p.1.match? "my cat".toList).isSome = true ∧
      ∃ chosen c₂, (e.draw r 0 p).apply c = (.ok chosen, c₂) ∧
        (e.Defers "my cat".toList r 0 16 c c p rest chosen ↔ ¬ chosen.IsFollowed 16) := by
  have checked : deferring.compile.outcome.toOption.any
      fun s => decide s.Holdable && (s.firstKept? "my cat".toList).isSome := by decide +kernel
  obtain ⟨s, made, fits⟩ := exists_of_any checked
  obtain ⟨holdable, fits⟩ := (Bool.and_eq_true _ _).mp fits
  have holdable : s.Holdable := of_decide_eq_true holdable
  obtain ⟨⟨r, p⟩, first⟩ := Option.isSome_iff_exists.mp fits
  obtain ⟨found, kept, matched, rest, parted⟩ := RuleSet.of_firstKept? first
  obtain ⟨e, c, started, rules, deferred⟩ := kept_deferred_iff (deferring.rules.map .rule) deferring s
    made holdable halves .default ⟨true, 20, 16, false⟩ rfl
  have underway : c.Underway := by
    obtain ⟨⟨_, _, ready⟩, _, _⟩ := Rules.compileSet_ok made
    obtain ⟨_, _, _, fallback, _⟩ := ready.fallback
    cases started.symm.trans (Rules.start_eq_ok fallback rfl halves)
    exact ⟨halves_inUnit, Int.natCast_nonneg 20⟩
  obtain ⟨chosen, c₂, drawn, _, defers_iff, _⟩ :=
    deferred "my cat".toList 0 16 r [] rest p c c found parted underway .nil kept matched
  exact ⟨s, e, c, made, holdable, started, underway, r, p, rest, found, parted, kept, matched,
    chosen, c₂, drawn, defers_iff⟩

/-- What the first rule replies to a fragment at the start of a conversation if its first decomposition
keeps replies and is redirected, and how many replies are kept then. -/
def RuleSet.redirectedReply? (s : RuleSet) (fragment : List Char) : Option (List Char × Nat) :=
  match Engine.start s (.source halves) .default with
  | .error _ => none
  | .ok (e, c) =>
    match s.firstKept? fragment with
    | none => none
    | some (r, p) =>
      match (e.step fragment r 0 16 p).apply c with
      | (.ok (.redirected _), _) =>
        match (e.runRule fragment 16 0).apply c with
        | (.ok (some reply), c') => some (reply.toList, c'.session.memory.size)
        | _ => none
      | _ => none

theorem RuleSet.of_redirectedReply? {s : RuleSet} {fragment : List Char} {text : String} {size : Nat}
    (replied : s.redirectedReply? fragment = some (text.toList, size)) :
    ∃ e c r p, Engine.start s (.source halves) .default = .ok (e, c) ∧
      s.firstKept? fragment = some (r, p) ∧
      (∃ i c₂, (e.step fragment r 0 16 p).apply c = (.ok (.redirected i), c₂)) ∧
      ∃ c', (e.runRule fragment 16 0).apply c = (.ok (some text), c') ∧
        c'.session.memory.size = size := by
  rw [redirectedReply?] at replied
  split at replied
  · cases replied
  · next e c started =>
    split at replied
    · cases replied
    · next r p first =>
      split at replied
      · next i c₂ tried =>
        split at replied
        · next reply c' run =>
          obtain ⟨same, kept⟩ := Prod.mk.inj (Option.some.inj replied)
          cases String.toList_inj.mp same
          exact ⟨e, c, r, p, started, first, ⟨i, c₂, tried⟩, c', run, kept⟩
        · cases replied
      · cases replied

/-- What another keyword replies is given at once, though it was to be kept, and the decompositions
after the redirection have no turn. -/
theorem dogs_not_kept : ∃ s e c c', deferring.compile.outcome = .ok s ∧
    Engine.start s (.source halves) .default = .ok (e, c) ∧
    ∃ r p rest, s.rules[0]? = some r ∧ r.decompositions.zipIdx = p :: rest ∧ p.1.kept = true ∧
      (p.1.match? "my cat".toList).isSome = true ∧
      (e.runRule "my cat".toList 16 0).apply c = (.ok (some "Tell me about dogs."), c') ∧
      c'.session.memory.size = 0 ∧
      ∀ chosen, ¬ e.Defers "my cat".toList r 0 16 c c p rest chosen := by
  have checked : deferring.compile.outcome.toOption.any fun s =>
      s.redirectedReply? "my cat".toList == some ("Tell me about dogs.".toList, 0) := by
    decide +kernel
  obtain ⟨s, made, replied⟩ := exists_of_any checked
  obtain ⟨e, c, r, p, started, first, ⟨i, c₂, redirected⟩, c', run, kept⟩ :=
    RuleSet.of_redirectedReply? (beq_iff_eq.mp replied)
  obtain ⟨found, keeps, matched, rest, parted⟩ := RuleSet.of_firstKept? first
  refine ⟨s, e, c, c', made, started, r, p, rest, found, parted, keeps, matched, run, kept, ?_⟩
  intro chosen defers
  cases defers with
  | kept _ _ _ tried => cases redirected.symm.trans tried
  | idle _ tried => cases redirected.symm.trans tried
  | stopped _ _ tried => cases redirected.symm.trans tried

end Colloquy
