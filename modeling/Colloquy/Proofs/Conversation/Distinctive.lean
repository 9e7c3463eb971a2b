import Colloquy.Proofs.Conversation.Voiced
import Colloquy.Proofs.Retouch
import Colloquy.Proofs.Rules.Readable

/-! Scripts that are never at a loss. Whether no reply of a script can be a certain text can be read off
its templates, its retouchings and its final words, without what is said to it. -/

namespace Colloquy

namespace Rules

/-- Whether a rule is sure to reply to a fragment: its first decomposition matches, keeps no reply and
redirects nowhere. -/
def Rule.isSureOf (fragment : List Char) (r : Rule) : Bool :=
  r.decompositions.head?.any fun d =>
    (d.match? fragment).isSome && !d.kept && d.reassemblies.all fun a => !a.isRedirect

/-- Whether a rule never replies with a certain text, and is sure to reply to a blank if it is the
fallback rule. -/
structure Rule.Distinctive (r : Rule) (other : List Char) : Prop where
  held : ∀ d ∈ r.decompositions, d.reassemblies.length < countLimit
  reassemblies : ∀ d ∈ r.decompositions, ∀ a ∈ d.reassemblies, a.departs other = true
  fallback : r.keyword = fallbackKeyword → r.isSureOf [' '] = true

variable {rules : List Rule} {r : Rule} {other : List Char}

/-- Where a redirection leads to changes nothing. -/
theorem Rule.Distinctive.link (distinctive : r.Distinctive other) :
    (r.link rules).Distinctive other := by
  refine ⟨fun d linked => ?_, fun d linked a chosen => ?_, fun keyword => ?_⟩
  · obtain ⟨d', inside, rfl⟩ := List.mem_map.mp linked
    rw [Decomposition.resolve, List.length_map]
    exact distinctive.held d' inside
  · obtain ⟨d', inside, rfl⟩ := List.mem_map.mp linked
    obtain ⟨a', among, rfl⟩ := List.mem_map.mp chosen
    have departs := distinctive.reassemblies d' inside a' among
    cases a' with
    | literal template => exact departs
    | redirect target place => rfl
  · have sure := distinctive.fallback keyword
    have redirects (a : Reassembly) : (resolveReassembly rules a).isRedirect = a.isRedirect := by
      cases a <;> rfl
    cases ds : r.decompositions with
    | nil => simp [isSureOf, ds] at sure
    | cons d rest =>
      simpa [isSureOf, ds, Rule.link, Decomposition.resolve, Decomposition.match?, redirects,
        Function.comp_def] using sure

end Rules

/-- Whether a rule set always has a reply, and never a certain text. -/
structure RuleSet.Distinctive (s : RuleSet) (other : List Char) : Prop where
  rules : ∀ r ∈ s.rules, r.Distinctive other
  retouches : ∀ r ∈ s.retouches, r.departs other = true
  parts : s.finals ≠ []
  finals : ∀ text ∈ s.finals, Text.departs text.toList other = true

namespace Engine

open Turn

variable {e : Engine} {fits : String → Prop} {r : Rules.Rule} {index depth : Nat} {hops : Bool}
  {fragment : List Char} {other : List Char}

/-! A rule that is sure to reply. -/

theorem attempt_answers (voices : e.Voices fits) (rule : r ∈ e.rules.rules)
    {d : Rules.Decomposition} (decomposition : d ∈ r.decompositions) {m : Regex.Match}
    (matched : d.match? fragment = some m) (given : d.kept = false)
    (literal : ∀ a ∈ d.reassemblies, a.isRedirect = false) (position : Nat) :
    Gives fits (e.attempt r index depth hops fragment (d, position))
      fun upshot => ∃ reply, upshot = .answered reply ∧ fits reply := by
  simp only [attempt, matched]
  refine Safe.bind (draw_gives (d, position)) fun chosen reassembly => ?_
  cases chosen with
  | redirect target place => exact absurd (literal _ reassembly) Bool.true_eq_false.mp
  | literal template =>
    rw [carryOut, given]
    refine Safe.bind (assemble_gives voices rule decomposition m reassembly) fun reply fitting => ?_
    exact .done ⟨reply, rfl, fitting⟩

/-- A rule that is sure to reply to a fragment replies, and the text fits. -/
theorem runRule_answers (voices : e.Voices fits) (found : e.rules.rules[index]? = some r)
    (sure : r.isSureOf fragment = true) (hops : Nat) :
    Gives fits (e.runRule fragment hops index) fun reply => ∃ text, reply = some text ∧ fits text := by
  have rule := List.mem_of_getElem? found
  cases ds : r.decompositions with
  | nil => simp [Rules.Rule.isSureOf, ds] at sure
  | cons d rest =>
    simp only [Rules.Rule.isSureOf, ds, List.head?_cons, Option.any_some, Bool.and_eq_true,
      Bool.not_eq_true', List.all_eq_true] at sure
    obtain ⟨⟨matched, given⟩, literal⟩ := sure
    obtain ⟨m, matched⟩ := Option.isSome_iff_exists.mp matched
    have decomposition : d ∈ r.decompositions := ds ▸ List.mem_cons_self
    rw [runRule_eq, found]
    dsimp only
    rw [ds, List.zipIdx_cons, tryDecompositions_cons]
    refine Safe.bind (attempt_answers voices rule decomposition matched given literal _) ?_
    rintro _ ⟨reply, rfl, fitting⟩
    exact .done ⟨reply, rfl, fitting⟩

/-! Replies that depart from a text. -/

section

variable (distinctive : e.rules.Distinctive other)
include distinctive

theorem voices_apart : e.Voices fun text => Text.Apart other text.toList := by
  intro r rule d decomposition template reassembly m text filled
  have apart := (distinctive.rules r rule).reassemblies d decomposition _ reassembly
  rw [String.toList_ofList]
  exact Template.apart_of_fill apart filled

theorem backs_apart (fallback : e.rules.fallback? = some e.fallback) :
    e.Backs fun text => Text.Apart other text.toList := by
  have first := Rules.indexOf?_firstAt e.rules.rules Rules.fallbackKeyword
  rw [RuleSet.fallback?, RuleSet.indexOf?] at fallback
  rw [fallback] at first
  obtain ⟨⟨r, found, keyword⟩, _⟩ := first
  have sure := (distinctive.rules r (List.mem_of_getElem? found)).fallback keyword
  exact runRule_answers (voices_apart distinctive) found sure e.options.hopLimit

/-- What is said departs from the text from which all replies depart. -/
theorem departs_of_says {text : String} (said : e.Says (fun text => Text.Apart other text.toList) text) :
    Text.departs text.toList other = true := by
  cases said with
  | farewell member => exact distinctive.finals text member
  | @reply reply apart polished =>
    obtain ⟨text', touched, departs⟩ :=
      Retouch.polish_departs distinctive.retouches e.options.capitalize apart
    rw [Engine.polished, touched] at polished
    cases polished
    exact departs

end

end Engine

/-- Nothing stops a reply of such a rule set. -/
theorem RuleSet.Distinctive.not_excuses {s : RuleSet} {other : List Char} (distinctive : s.Distinctive other)
    (f : Failure) : ¬ s.Excuses f := by
  rintro (⟨member, failed⟩ | ⟨rule, decomposition, reassembly, inside, long⟩)
  · obtain ⟨touched, done⟩ := Retouch.apply_ok_of_departs (distinctive.retouches _ member) _
    rw [done] at failed
    contradiction
  · have short := (distinctive.rules _ rule).reassemblies _ decomposition _ reassembly
    rw [Reassembly.departs, Template.departs, Bool.and_eq_true, List.all_eq_true] at short
    have few := of_decide_eq_true (short.1 _ inside)
    exact absurd long (Nat.not_lt.mpr few)

/-! Scripts. -/

/-- Whether a reassembly as it is written never gives a certain text, and leads to lower levels only. -/
def Reassembly.suits (level : String → Nat) (keyword : String) (other chars : List Char) : Bool :=
  if (chars.take announcement.length).map Text.lowerOne = announcement then
    level (String.ofList (chars.drop announcement.length)) < level keyword
  else Template.departs other chars

theorem Reassembly.of_suits {level : String → Nat} {keyword text : String} {other : List Char}
    (suits : Reassembly.suits level keyword other text.toList = true) :
    (parse text).departs other = true ∧ (parse text).descends level keyword = true := by
  rw [Reassembly.suits] at suits
  rw [parse]
  split
  · next redirects =>
    rw [if_pos redirects] at suits
    exact ⟨rfl, suits⟩
  · next literal =>
    rw [if_neg literal] at suits
    exact ⟨suits, rfl⟩

/-- Whether a decomposition of a keyword can be made ready, and its replies are never a certain text. -/
structure Script.Decomposition.Distinctive (d : Script.Decomposition) (synonyms : List Pattern.Synonym)
    (level : String → Nat) (keyword : String) (other : List Char) : Prop where
  answered : d.reassemblies ≠ []
  held : d.reassemblies.length < countLimit
  readable : Regex.isReadable (Pattern.expressionOf synonyms d.pattern) false = true
  reassemblies : ∀ text ∈ d.reassemblies, Reassembly.suits level keyword other text.toList = true

/-- Whether the parts of a script can be made ready one by one, and always have a reply, and never a
certain text. The fallback rule has the lowest level, so that it redirects nowhere, and tries any text. -/
structure Script.Distinctive (script : Script) (level : String → Nat) (other : List Char) : Prop where
  keywords : ∀ w ∈ script.rules, Regex.isReadable (Rules.matcherSource w.keyword).toList true = true
  decompositions : ∀ w ∈ script.rules, ∀ d ∈ w.decompositions,
    d.Distinctive script.synonyms level w.keyword other
  lowest : level Rules.fallbackKeyword = 0
  fallback : Rules.checkFallback script.rules = .ok ()
  wild : ∀ w ∈ script.rules, w.keyword = Rules.fallbackKeyword →
    ∃ d ∈ w.decompositions.head?, d.pattern = "*"
  retouches : ∃ rs, script.retouches.mapM Retouch.compile = .ok rs ∧ ∀ r ∈ rs, r.departs other = true
  initials : script.initials.length < countLimit
  parts : script.finals ≠ [] ∧ script.finals.length < countLimit
  finals : ∀ text ∈ script.finals, Text.departs text.toList other = true

namespace Rules

variable {synonyms : List Pattern.Synonym} {level : String → Nat} {r : Rule} {d : Decomposition}
  {other : List Char}

theorem departs_unlinked (a : Reassembly) : a.unlinked.departs other = a.departs other := by
  cases a <;> rfl

theorem descends_unlinked (keyword : String) (a : Reassembly) :
    a.unlinked.descends level keyword = a.descends level keyword := by
  cases a <;> rfl

/-- What a decomposition that is ready has from the one that is written. -/
theorem Decomposition.Renders.suits {w : Script.Decomposition} {keyword : String}
    (renders : d.Renders synonyms w) (distinctive : w.Distinctive synonyms level keyword other)
    {a : Reassembly} (chosen : a ∈ d.reassemblies) :
    a.departs other = true ∧ a.descends level keyword = true := by
  have among : a.unlinked ∈ w.reassemblies.map Reassembly.parse :=
    renders.reassemblies ▸ List.mem_map_of_mem chosen
  obtain ⟨text, written, same⟩ := List.mem_map.mp among
  have suits := Reassembly.of_suits (distinctive.reassemblies text written)
  rwa [same, departs_unlinked, descends_unlinked] at suits

theorem match?_wild (parsed : Regex.Expression.parse (String.ofList Pattern.capture) false =
    .ok d.expression) : (d.match? [' ']).isSome = true := by
  have checked : (Regex.Expression.parse (String.ofList Pattern.capture) false).toOption.any fun e =>
      (Decomposition.match? ⟨"", e, [], false⟩ [' ']).isSome := by decide +kernel
  obtain ⟨e, parsed', matched⟩ := exists_of_any checked
  cases parsed.symm.trans parsed'
  exact matched

theorem Rule.Renders.isSureOf {w : Script.Rule} (renders : r.Renders synonyms w)
    (distinctive : ∀ d ∈ w.decompositions, d.Distinctive synonyms level w.keyword other)
    (lowest : level w.keyword = 0) (wild : ∃ d ∈ w.decompositions.head?, d.pattern = "*") :
    r.isSureOf [' '] = true := by
  obtain ⟨written, first, pattern⟩ := wild
  obtain ⟨rest, ds⟩ := List.head?_eq_some_iff.mp first
  have decompositions := renders.decompositions
  rw [ds] at decompositions
  obtain ⟨d, rest', renders, _, ds'⟩ := List.forall₂_cons_right_iff.mp decompositions
  have parsed := renders.expression
  have kept := renders.kept
  rw [pattern, Pattern.compile_wild] at parsed kept
  have literal : ∀ a ∈ d.reassemblies, a.isRedirect = false := by
    intro a chosen
    have falls := (renders.suits (distinctive written (ds ▸ List.mem_cons_self)) chosen).2
    cases a with
    | literal template => rfl
    | redirect target place => simp [Reassembly.descends, lowest] at falls
  simpa [Rule.isSureOf, ds', match?_wild parsed, kept] using literal

theorem Rule.Renders.distinctive {w : Script.Rule} (renders : r.Renders synonyms w)
    (distinctive : ∀ d ∈ w.decompositions, d.Distinctive synonyms level w.keyword other)
    (lowest : level fallbackKeyword = 0)
    (wild : w.keyword = fallbackKeyword → ∃ d ∈ w.decompositions.head?, d.pattern = "*") :
    r.descends level = true ∧ r.Distinctive other := by
  have rendered {d : Decomposition} (inside : d ∈ r.decompositions) :
      ∃ written ∈ w.decompositions, d.Renders synonyms written :=
    exists_of_mem_right renders.decompositions.flip inside
  refine ⟨?_, fun d inside => ?_, fun d inside a chosen => ?_, fun keyword => ?_⟩
  · refine List.all_eq_true.mpr fun d inside => List.all_eq_true.mpr fun a chosen => ?_
    obtain ⟨written, member, here⟩ := rendered inside
    rw [renders.keyword]
    exact (here.suits (distinctive written member) chosen).2
  · obtain ⟨written, member, here⟩ := rendered inside
    have length := congrArg List.length here.reassemblies
    rw [List.length_map, List.length_map] at length
    rw [length]
    exact (distinctive written member).held
  · obtain ⟨written, member, here⟩ := rendered inside
    exact (here.suits (distinctive written member) chosen).1
  · have same : w.keyword = fallbackKeyword := renders.keyword.symm.trans keyword
    exact renders.isSureOf distinctive (same ▸ lowest) (wild same)

end Rules

/-- A distinctive script can be made ready, and the rule set is distinctive too. -/
theorem Script.Distinctive.compile {script : Script} {level : String → Nat} {other : List Char}
    (distinctive : script.Distinctive level other) :
    ∃ s, script.compile.outcome = .ok s ∧ s.Holdable ∧ s.Distinctive other := by
  have rules : ∀ w ∈ script.rules, ∃ r, Rules.makeReady script.synonyms w = .ok r ∧
      r.descends level = true ∧ r.Distinctive other := by
    intro w member
    have each := distinctive.decompositions w member
    obtain ⟨r, ready⟩ := Rules.makeReady_of_isReadable (distinctive.keywords w member)
      fun d inside => ⟨(each d inside).answered, (each d inside).readable⟩
    have renders := (Rules.compileRule_ok ready).1
    exact ⟨r, ready, renders.distinctive each distinctive.lowest (distinctive.wild w member)⟩
  obtain ⟨found, ready, each⟩ := exists_mapM_ok rules
  obtain ⟨retouches, touched, retouching⟩ := distinctive.retouches
  have compiled := Rules.compileRules_of_descends level distinctive.fallback ready
    fun r member => (each r member).1
  obtain ⟨s, made, rules, same, initials, finals⟩ := Script.compile_eq_ok compiled touched
  have fine : ∀ r ∈ s.rules, r.Distinctive other := by
    intro r member
    rw [rules, Rules.resolve_eq_map] at member
    obtain ⟨placed, among, rfl⟩ := List.mem_map.mp member
    obtain ⟨r, inside, position, rfl⟩ := Rules.exists_of_mem_arrange among
    have here := (each r inside).2
    exact Rules.Rule.Distinctive.link ⟨here.held, here.reassemblies, here.fallback⟩
  refine ⟨s, made, ⟨fun r member => (fine r member).held, ?_, ?_⟩, fine, ?_, ?_, ?_⟩
  · exact initials ▸ distinctive.initials
  · exact finals ▸ distinctive.parts.2
  · exact same ▸ retouching
  · exact finals ▸ distinctive.parts.1
  · exact finals ▸ distinctive.finals

/-- A script of which that is so makes a rule set that replies to every input after any calls, and never
with the text. -/
theorem Script.Distinctive.replies {script : Script} {level : String → Nat} {other : List Char}
    (distinctive : script.Distinctive level other) : ∃ s, script.compile.outcome = .ok s ∧
      ∀ source : RandomSource, source.DrawsInUnit →
      ∀ (settings : EngineSettings) (options : Options), settings.check = .ok options →
        ∃ e c, Engine.start s (.source source) settings = .ok (e, c) ∧
          ∀ calls input result after, (e.reply input).apply (e.after c calls) = (result, after) →
            after.session.memory.size < countLimit →
              ∃ text, result = .ok text ∧ Text.departs text.toList other = true := by
  obtain ⟨s, made, holdable, distinctive⟩ := distinctive.compile
  refine ⟨s, made, fun source unit settings options accepted => ?_⟩
  obtain ⟨⟨written, _, ready⟩, _, _⟩ := Rules.compileSet_ok made
  obtain ⟨_, i, _, found, _⟩ := ready.fallback
  refine ⟨_, _, Rules.start_eq_ok found accepted source, ?_⟩
  intro calls input result after said held
  have able : Engine.Able ⟨s, i, options⟩ := ready.able found holdable
  have underway := Engine.after_underway able calls
    (c := ⟨source, .start s options.capacity, []⟩) ⟨unit, Int.natCast_nonneg _⟩
  have voices := Engine.voices_apart (e := ⟨s, i, options⟩) distinctive
  have backs := Engine.backs_apart (e := ⟨s, i, options⟩) distinctive found
  have only := Engine.after_keepsOnly voices backs distinctive.parts calls
    (c := ⟨source, .start s options.capacity, []⟩) fun _ member => absurd member List.not_mem_nil
  have safe := Engine.reply_safe able input _ underway
  have gives := Engine.reply_gives voices backs distinctive.parts input _ only
  rw [said] at safe gives
  cases result with
  | ok text => exact ⟨text, rfl, Engine.departs_of_says distinctive gives.2⟩
  | error f =>
    rcases safe.2 with excused | full
    · exact absurd excused (distinctive.not_excuses f)
    · exact absurd held (Nat.not_lt.mpr full)

end Colloquy
