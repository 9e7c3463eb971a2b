import Colloquy.Failure
import Colloquy.Files.Path

/-! What surrounds a run of the program: its variables, the users of the machine, and the places that
they name. -/

namespace Colloquy

/-- The variables by name, and the home directories of users by name. -/
structure Environment where
  entries : List (String × String)
  users : List (String × String)

namespace Environment

def get? (env : Environment) (name : String) : Option String := env.entries.lookup name

/-- The path of a home directory. Slashes at its end do not count. -/
def homeAt (folder : String) : Except Breakdown Path :=
  if folder.toList.head? = some '~' then .error .noHome
  else
    let trimmed := String.ofList (folder.toList.reverse.dropWhile (· == '/')).reverse
    .ok (.parse (if trimmed = "" then "/" else trimmed))

def home (env : Environment) : Except Breakdown Path :=
  match env.get? "HOME" with
  | some folder => homeAt folder
  | none => .error .noHome

/-- A path in which a tilde at the start stands for the home directory, or for that of the user whose
name follows the tilde. -/
def expand (env : Environment) (p : Path) : Except Breakdown Path :=
  match p with
  | ⟨0, name :: rest⟩ =>
    match name.toList with
    | ['~'] => env.home.map fun home => ⟨home.slashes, home.names ++ rest⟩
    | '~' :: user =>
      match env.users.lookup (String.ofList user) with
      | some folder => (homeAt folder).map fun home => ⟨home.slashes, home.names ++ rest⟩
      | none => .error .noHome
    | _ => .ok p
  | _ => .ok p

def settingsFolder (env : Environment) : Except Breakdown Path :=
  match env.get? "ELIZA_CONFIG_DIR", env.get? "XDG_CONFIG_HOME" with
  | some folder, _ => .ok (.parse folder)
  | none, some folder => .ok ((Path.parse folder).child "elizabot")
  | none, none => env.home.map fun home => home.child ".elizabot"

end Environment
end Colloquy
