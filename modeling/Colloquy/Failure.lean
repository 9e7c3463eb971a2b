import Colloquy.Data.Shown
import Colloquy.Regex.Error

/-! Everything that can go wrong, by cause, and how it is reported. -/

namespace Colloquy

/-- Families of reported problems. Each belongs to the one named after `of`. -/
inductive Family where
  | any
  | settings
  | script
  | rules
deriving DecidableEq

def Family.ancestry : Family → List Family
  | .any => [.any]
  | .settings => [.settings, .any]
  | .script => [.script, .settings, .any]
  | .rules => [.rules, .script, .settings, .any]

/-- What a user is told of a problem. -/
structure Report where
  family : Family
  message : String
  details : Data

def Report.text (r : Report) : String :=
  if r.details.isTruthy then r.message ++ " | Details: " ++ r.details.plain else r.message

/-- Why a keyword entry in the form of a list cannot be taken apart. -/
inductive EntryFault where
  | listEnds
  | textEnds
  | bytesEnd
  | pairEnds
  | notIndexed (kind : String)
  | notIterable (kind : String)
  | missingKey (key : Nat)
deriving DecidableEq

def EntryFault.text : EntryFault → String
  | .listEnds => "list index out of range"
  | .textEnds => "string index out of range"
  | .bytesEnd => "index out of range"
  | .pairEnds => "tuple index out of range"
  | .notIndexed kind => s!"'{kind}' object is not subscriptable"
  | .notIterable kind => s!"'{kind}' object is not iterable"
  | .missingKey key => toString key

/-- Why the operating system refuses to work with a file. -/
inductive FileFault where
  | exists (path : String)
  | notDirectory (path : String)
  | isDirectory (path : String)
  | missing (path : String)
  | nameTooLong (path : String)
deriving DecidableEq

def FileFault.text : FileFault → String
  | .missing path => s!"[Errno 2] No such file or directory: {Text.quoted path}"
  | .exists path => s!"[Errno 17] File exists: {Text.quoted path}"
  | .notDirectory path => s!"[Errno 20] Not a directory: {Text.quoted path}"
  | .isDirectory path => s!"[Errno 21] Is a directory: {Text.quoted path}"
  | .nameTooLong path => s!"[Errno 36] File name too long: {Text.quoted path}"

/-- What is wrong with a script. -/
inductive ScriptProblem where
  | malformedEntry (why : EntryFault) (entry : Data)
  | notRule (entry : Data)
  | notDecomposition (keyword entry : Data)
  | badKeyword (keyword : Data)
  | badRank (keyword : String) (rank : Data)
  | badPattern (keyword : String) (pattern : Data)
  | badReassemblies (keyword pattern : String)
  | notMapping
  | keywordsNotList
  | synonymsNotMapping
  | notPairs (part : String)
  | transformsNotList
  | badTransform (item : Data)
  | notList (part : String)
  | noFile (path : String)
  | notYaml (path : String)
  | unreadable (path : String) (why : FileFault)

/-- What is wrong with the rules of a script. -/
inductive RuleProblem where
  | fallbackCount (count : Nat)
  | fallbackRank (rank : Int)
  | noReassemblies (keyword pattern : String)
  | badPattern (why keyword pattern source : String)
  | cycle (keywords : List String)
  | badTransform (why pattern : String)
  | missingGroup (pattern replacement : String) (group : Nat)

/-- What is wrong with the settings, or with how a conversation is set up. -/
inductive SettingsProblem where
  | badCapacity (value : Data)
  | badHopLimit (value : Data)
  | noScript (path : String)
  | badSeed (value : Data)
  | badLevel (level : String)
  | noFile (path : String)
  | notYaml (path : String)
  | unreadable (path : String) (why : FileFault)
  | notMapping (path : String)
  | sectionNotMapping (part : String)
  | badVariable (name value : String)
  | unwritable (path : String) (why : FileFault)
  | noRandomSource (got : Data)
  | notReseedable (source : String)
  | noFallback

/-- A problem that is reported. -/
inductive Problem where
  | script (p : ScriptProblem)
  | rules (p : RuleProblem)
  | settings (p : SettingsProblem)

def details (entries : List (String × Data)) : Data := .map (entries.map fun p => (.text p.1, p.2))

def ScriptProblem.report (p : ScriptProblem) : Report :=
  match p with
  | .malformedEntry why entry =>
    make s!"Malformed keyword entry: {why.text}" [("entry", .text entry.shown)]
  | .notRule entry =>
    make "Keyword rule must be a mapping with a 'keyword'" [("entry", .text entry.shown)]
  | .notDecomposition keyword entry =>
    make "Decomposition must be a mapping with a 'pattern'"
      [("keyword", keyword), ("entry", .text entry.shown)]
  | .badKeyword keyword => make s!"Keyword must be a non-empty string, got {keyword.shown}" []
  | .badRank keyword rank =>
    make s!"Rank must be an integer, got {rank.shown}" [("keyword", .text keyword)]
  | .badPattern keyword pattern =>
    make "Pattern must be a string" [("keyword", .text keyword), ("pattern", .text pattern.shown)]
  | .badReassemblies keyword pattern =>
    make "Reassemblies must be strings" [("keyword", .text keyword), ("pattern", .text pattern)]
  | .notMapping => make "Script must be a mapping" []
  | .keywordsNotList => make "'keywords' must be a list" []
  | .synonymsNotMapping => make "'synonyms' must be a mapping" []
  | .notPairs part => make s!"'{part}' must be a mapping or a list of pairs" []
  | .transformsNotList => make "'post_transforms' must be a list" []
  | .badTransform item => make "Invalid post-transform entry" [("entry", .text item.shown)]
  | .notList part => make s!"'{part}' must be a list" []
  | .noFile path => make s!"Script file not found: {path}" [("path", .text path)]
  | .notYaml path => make "Failed to parse script" [("path", .text path)]
  | .unreadable path why => make s!"Failed to read script: {why.text}" [("path", .text path)]
where
  make (message : String) (entries : List (String × Data)) : Report :=
    ⟨.script, message, details entries⟩

def RuleProblem.report (p : RuleProblem) : Report :=
  match p with
  | .fallbackCount count => make s!"Exactly one 'xnone' rule is required, found {count}" []
  | .fallbackRank rank => make "The 'xnone' rule must have rank 0" [("rank", .int rank)]
  | .noReassemblies keyword pattern =>
    make "Decomposition has no reassemblies" [("keyword", .text keyword), ("pattern", .text pattern)]
  | .badPattern why keyword pattern source =>
    make s!"Pattern does not compile: {why}"
      [("keyword", .text keyword), ("pattern", .text pattern), ("compiled", .text source)]
  | .cycle keywords =>
    make "goto redirections form a cycle" [("cycle", .text (" -> ".intercalate keywords))]
  | .badTransform why pattern =>
    make s!"Invalid post-transform pattern: {why}" [("pattern", .text pattern)]
  | .missingGroup pattern replacement group =>
    make "Post-transform replacement references a missing group"
      [("pattern", .text pattern), ("replacement", .text replacement), ("group", .int group)]
where
  make (message : String) (entries : List (String × Data)) : Report :=
    ⟨.rules, message, details entries⟩

def SettingsProblem.report (p : SettingsProblem) : Report :=
  match p with
  | .badCapacity value => make s!"mem_size must be a non-negative integer, got {value.shown}" []
  | .badHopLimit value => make s!"max_goto_depth must be a positive integer, got {value.shown}" []
  | .noScript path => make s!"Script file not found: {path}" [("path", .text path)]
  | .badSeed value => make s!"seed must be an integer, got {value.shown}" []
  | .badLevel level => make s!"Invalid log level: {level}" []
  | .noFile path => make s!"Config file not found: {path}" [("path", .text path)]
  | .notYaml path => make "Failed to parse config file" [("path", .text path)]
  | .unreadable path why => make s!"Failed to read config file: {why.text}" [("path", .text path)]
  | .notMapping path => make "Config file must contain a mapping" [("path", .text path)]
  | .sectionNotMapping part => make s!"Config section '{part}' must be a mapping" []
  | .badVariable name value => make s!"Invalid value for {name}: {Text.quoted value}" []
  | .unwritable path why => make s!"Failed to save config file: {why.text}" [("path", .text path)]
  | .noRandomSource got => make "Random function is required" [("got", .text got.shown)]
  | .notReseedable source =>
    make "Random source cannot be reseeded" [("source", .text source)]
  | .noFallback => make "Rule set has no fallback rule" []
where
  make (message : String) (entries : List (String × Data)) : Report :=
    ⟨.settings, message, details entries⟩

/-- The values that the report of a problem with a script shows in full. -/
def ScriptProblem.shownValues : ScriptProblem → List Data
  | .malformedEntry _ entry => [entry]
  | .notRule entry => [entry]
  | .notDecomposition _ entry => [entry]
  | .badKeyword keyword => [keyword]
  | .badRank _ rank => [rank]
  | .badPattern _ pattern => [pattern]
  | .badTransform item => [item]
  | _ => []

/-- The values that the report of a problem with settings shows in full. -/
def SettingsProblem.shownValues : SettingsProblem → List Data
  | .badCapacity value => [value]
  | .badHopLimit value => [value]
  | .badSeed value => [value]
  | .noRandomSource got => [got]
  | _ => []

def Problem.shownValues : Problem → List Data
  | .script p => p.shownValues
  | .rules _ => []
  | .settings p => p.shownValues

def Problem.report : Problem → Report
  | .script p => p.report
  | .rules p => p.report
  | .settings p => p.report

/-- What stops the work without a report of its own: a value of the wrong kind, a value that cannot
be read or used, a number that is too large, a position that does not exist, a missing part, a word
that is not known, a value without an end or with too much inside one another, a time too far away
for any calendar, bytes that are no text, a replacement that is not well-formed, a home directory
that is not known, or a file that cannot be worked with. -/
inductive Breakdown where
  | wrongKind
  | badValue
  | tooLarge
  | outOfRange
  | missingPart
  | unknownWord
  | tooDeep
  | beyondCalendar
  | notText
  | badTemplate
  | noHome
  | refused (why : FileFault)
deriving DecidableEq

/-- Why something failed. -/
inductive Failure where
  | reported (p : Problem)
  | breakdown (b : Breakdown)

namespace Failure

/-- A failure because of a problem. A report that has to show a value without a text fails itself. -/
def because (p : Problem) : Failure :=
  if p.shownValues.all Data.isShowable then .reported p else .breakdown .badValue

def script (p : ScriptProblem) : Failure := because (.script p)

def rules (p : RuleProblem) : Failure := .reported (.rules p)

def settings (p : SettingsProblem) : Failure := because (.settings p)

end Failure
end Colloquy
