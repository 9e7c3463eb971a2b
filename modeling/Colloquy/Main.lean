import Std.Time.Zoned
import Colloquy.CommandLine.Run

/-! The program. It looks at the files that a call may need, goes through the run step by step, and
carries out what each step has done. -/

namespace Colloquy.Program

def users : IO (List (String × String)) := do
  match ← (IO.FS.lines "/etc/passwd").toBaseIO with
  | .error _ => return []
  | .ok lines =>
    return lines.toList.filterMap fun line =>
      match line.splitOn ":" with
      | name :: _ :: _ :: _ :: _ :: home :: _ => some (name, home)
      | _ => none

def environment : IO Environment := do
  let names := ["HOME", "ELIZA_CONFIG_DIR", "XDG_CONFIG_HOME"] ++ Settings.knownVariables.map (·.name)
  let values ← names.filterMapM fun name => do
    return (← IO.getEnv name).map fun value => (name, value)
  return ⟨values, ← users⟩

def entryOnDisk (p : Path) : IO (Option Entry) := do
  match ← (IO.FS.realPath p.text).toBaseIO with
  | .error _ => return none
  | .ok real =>
    if !(← real.pathExists) then return none
    if ← real.isDir then return some .directory
    let bytes ← IO.FS.readBinFile real
    return some ((String.fromUTF8? bytes).elim .bytes .text)

/-- The files with what stands on the disk at a path and on the way to it. -/
def look (known : Files) (p : Path) : IO Files :=
  (List.range (p.names.length + 1)).foldlM (fun fs count => do
    let part : Path := ⟨p.slashes, p.names.take count⟩
    match fs.placeOf part with
    | .error _ => return fs
    | .ok place =>
      match ← entryOnDisk part with
      | some e => return fs.put place e
      | none => return fs) known

/-- The files that a call may need. The settings are looked at first, because they may name more. -/
def filesFor (env : Environment) (call : Invocation) : IO Files := do
  let first ← (call.paths env .empty).foldlM look .empty
  (call.paths env first).foldlM look first

def stampOf (t : Std.Time.PlainDateTime) : Stamp × Clock :=
  (⟨t.year.toInt.toNat, t.month.toNat, t.day.toNat, none⟩,
    ⟨t.hour.toNat, t.minute.toNat, t.second.toNat, t.nanosecond.toNat / 1000, none⟩)

/-- The present moment. Where the zone of this place is not known, universal time is used. -/
def now : IO Log.Moment := do
  let present := (← Std.Time.Timestamp.now).toDurationSinceUnixEpoch
  let universal := stampOf (.ofWallTime (.ofDuration present))
  let here ← match ← Std.Time.PlainDateTime.now.toBaseIO with
    | .ok t => pure (stampOf t)
    | .error _ => pure universal
  return .at universal.1 universal.2 here.1 here.2

/-- Numbers for a run without a seed, and a name for its conversation. -/
def chance : IO Sitting.Chance := do
  let state ← IO.rand 0 (RandomSource.modulus - 1)
  let session ← IO.rand 0 0xffffffff
  return ⟨.seeded state, String.ofList (Text.hex 8 session)⟩

def carryOut : Change → IO Unit
  | .makeDirectory p => IO.FS.createDirAll p.text
  | .write p content => IO.FS.writeFile p.text content
  | .append p content => do (← IO.FS.Handle.mk p.text .append).putStr content

def take {α : Type} (act : Act α) (s : Sitting) : IO (Except Failure α × Sitting) := do
  let (outcome, s) := StateT.run act.run { s with moment := ← now }
  s.changes.forM carryOut
  (← IO.getStderr).putStr s.logged
  let stdout ← IO.getStdout
  stdout.putStr s.printed
  stdout.flush
  return (outcome, s.settled)

/-- The end of a run: its exit code, after what is left to be printed. -/
def finish (outcome : Except Failure Unit) (s : Sitting) : IO UInt32 := do
  match Sitting.conclude outcome s with
  | .ok (code, s) =>
    (← IO.getStdout).putStr s.printed
    return code.toUInt32
  | .error _ =>
    (← IO.getStderr).putStr "The program cannot go on.\n"
    return 1

/-- Hears inputs until the run is over. -/
partial def listen (e : Engine) (c : Conversation) (s : Sitting) : IO UInt32 := do
  let line ← (← IO.getStdin).getLine
  if line.isEmpty then
    let (outcome, s) ← take (Sitting.leave e c) s
    finish outcome s
  else
    let input := if line.endsWith "\n" then (line.dropEnd 1).toString else line
    match ← take (Sitting.hear e c input) s with
    | (.ok (some c), s) => listen e c s
    | (.ok none, s) => finish (.ok ()) s
    | (.error e, s) => finish (.error e) s

def usage : String := "usage: colloquy [-h] [--say TEXT [TEXT ...] | --write-config PATH]\n" ++
  "                [--config PATH] [--script PATH] [--seed SEED] [--debug]\n"

def run (words : List String) : IO UInt32 := do
  match Invocation.read words with
  | .error refusal =>
    match refusal with
    | .help => (← IO.getStdout).putStr usage
    | .misuse => (← IO.getStderr).putStr usage
    return refusal.exitCode.toUInt32
  | .ok call =>
    let env ← environment
    let s := Sitting.start (← filesFor env call) (← now)
    match ← take (Sitting.begin env call (← chance)) s with
    | (.ok (some (e, c)), s) => listen e c s
    | (.ok none, s) => finish (.ok ()) s
    | (.error e, s) => finish (.error e) s

end Colloquy.Program

def main (words : List String) : IO UInt32 := Colloquy.Program.run words
