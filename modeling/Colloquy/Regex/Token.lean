/-! The symbols of a written regular expression: characters, and characters after a backslash. -/

namespace Colloquy.Regex

/-- A symbol of a written regular expression. A backslash at the end stands alone. -/
inductive Token where
  | plain (c : Char)
  | escaped (c : Char)
  | lone
deriving DecidableEq

namespace Token

def width : Token → Nat
  | .escaped _ => 2
  | _ => 1

def chars : Token → List Char
  | .plain c => [c]
  | .escaped c => ['\\', c]
  | .lone => ['\\']

def scan : List Char → List Token
  | [] => []
  | ['\\'] => [.lone]
  | '\\' :: c :: rest => .escaped c :: scan rest
  | c :: rest => .plain c :: scan rest

end Token
end Colloquy.Regex
