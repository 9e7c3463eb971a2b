import Colloquy.Failure
import Colloquy.Files.Path

/-! The files that the program can see: what stands at a path, and how that changes. -/

namespace Colloquy

/-- What stands at a place: a directory, a file with a text, or a file whose bytes are no text. -/
inductive Entry where
  | directory
  | text (content : String)
  | bytes
deriving DecidableEq

def Entry.isFile : Entry → Bool
  | .directory => false
  | _ => true

/-- Files by place. A place is a path in which a step upwards can only stand at the start. -/
structure Files where
  entries : List (Path × Entry)

/-- Why a path leads nowhere. -/
inductive Obstacle where
  | missing
  | file
  | tooLong
deriving DecidableEq

namespace Files

def empty : Files := ⟨[]⟩

/-- What stands at a place. The places that all others start from are directories. -/
def entryAt? (fs : Files) (place : Path) : Option Entry :=
  if place.names.all (· == "..") then some .directory
  else (fs.entries.find? fun e => e.1 = place).map Prod.snd

/-- One step up from a place. The root has nothing above it. -/
def above (place : Path) : Path :=
  if place.names.all (· == "..") then
    if place.slashes = 0 then place.child ".." else place
  else place.parent

/-- The greatest number of bytes that a name may have. -/
def nameLimit : Nat := 255

/-- The greatest number of bytes that a path may have. -/
def pathLimit : Nat := 4095

/-- The place that names lead to from a place. All but the last have to lead to directories. -/
def walk (fs : Files) (place : Path) : List String → Except Obstacle Path
  | [] => .ok place
  | name :: rest =>
    match fs.entryAt? place with
    | none => .error .missing
    | some .directory =>
      if nameLimit < name.utf8ByteSize then .error .tooLong
      else walk fs (if name = ".." then above place else place.child name) rest
    | some _ => .error .file

/-- The place of a path, whether anything stands there or not. -/
def placeOf (fs : Files) (p : Path) : Except Obstacle Path :=
  if pathLimit < p.text.utf8ByteSize then .error .tooLong else fs.walk ⟨p.slashes, []⟩ p.names

def find? (fs : Files) (p : Path) : Option Entry := do
  match fs.placeOf p with
  | .ok place => fs.entryAt? place
  | .error _ => none

/-- What stands at a path, if that can be told. -/
def look (fs : Files) (p : Path) : Except Breakdown (Option Entry) :=
  if !p.isUsable then .ok none
  else
    match fs.placeOf p with
    | .ok place => .ok (fs.entryAt? place)
    | .error .tooLong => .error (.refused (.nameTooLong p.text))
    | .error _ => .ok none

def has (fs : Files) (p : Path) : Except Breakdown Bool := do return (← fs.look p).isSome

def hasFile (fs : Files) (p : Path) : Except Breakdown Bool := do
  return (← fs.look p).any Entry.isFile

/-- Every kind of line end becomes a single line feed. -/
def lineEnds : List Char → List Char
  | [] => []
  | '\r' :: '\n' :: rest => '\n' :: lineEnds rest
  | '\r' :: rest => '\n' :: lineEnds rest
  | c :: rest => c :: lineEnds rest

def read (fs : Files) (p : Path) : Except Breakdown (List Char) :=
  match fs.find? p with
  | some (.text content) => .ok (lineEnds content.toList)
  | some .bytes => .error .notText
  | some .directory => .error (.refused (.isDirectory p.text))
  | none => .error (.refused (.missing p.text))

def put (fs : Files) (place : Path) (e : Entry) : Files :=
  ⟨(place, e) :: fs.entries.filter fun old => old.1 ≠ place⟩

def target (fs : Files) (p : Path) : Except Breakdown Path :=
  if !p.isUsable then .error .badValue
  else
    match fs.placeOf p with
    | .error .missing => .error (.refused (.missing p.text))
    | .error .file => .error (.refused (.notDirectory p.text))
    | .error .tooLong => .error (.refused (.nameTooLong p.text))
    | .ok place =>
      if fs.entryAt? place = some .directory then .error (.refused (.isDirectory p.text))
      else .ok place

def write (fs : Files) (p : Path) (content : String) : Except Breakdown Files := do
  return fs.put (← fs.target p) (.text content)

/-- The files with a text added at the end of one of them, which is made if it is missing. -/
def append (fs : Files) (p : Path) (content : String) : Except Breakdown Files := do
  let place ← fs.target p
  match fs.entryAt? place with
  | some (.text old) => return fs.put place (.text (old ++ content))
  | some _ => return fs
  | none => return fs.put place (.text content)

/-- The files with a directory at names from the last to the first, and at all that lead to it. -/
def makeDirectoryAt (slashes : Nat) : (upwards : List String) → Files → Except Breakdown Files
  | [], fs => .ok fs
  | name :: rest, fs =>
    let p : Path := ⟨slashes, (name :: rest).reverse⟩
    let make (fs : Files) (place : Path) : Except Breakdown Files :=
      match fs.entryAt? place with
      | some .directory => .ok fs
      | some _ => .error (.refused (.exists p.text))
      | none => .ok (fs.put place .directory)
    match fs.placeOf p with
    | .ok place => make fs place
    | .error .file => .error (.refused (.notDirectory p.text))
    | .error .tooLong => .error (.refused (.nameTooLong p.text))
    | .error .missing => do
      let fs ← makeDirectoryAt slashes rest fs
      match fs.placeOf p with
      | .ok place => make fs place
      | .error _ => .error (.refused (.missing p.text))

/-- The files with a directory at a path, and at all that lead to it. -/
def makeDirectory (fs : Files) (p : Path) : Except Breakdown Files :=
  if p.isUsable then makeDirectoryAt p.slashes p.names.reverse fs else .error .badValue

end Files

/-- What is done to files. -/
inductive Change where
  | makeDirectory (p : Path)
  | write (p : Path) (content : String)
  | append (p : Path) (content : String)
deriving DecidableEq

namespace Files

def apply (fs : Files) : Change → Except Breakdown Files
  | .makeDirectory p => fs.makeDirectory p
  | .write p content => fs.write p content
  | .append p content => fs.append p content

def applyAll (fs : Files) (changes : List Change) : Except Breakdown Files := changes.foldlM apply fs

end Files
end Colloquy
