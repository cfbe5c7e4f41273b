import Synopsis.Report.Tree

/-!
# JSON reports

JSON with one element or field to a line, two more spaces for each level, and
nothing between the brackets of what is empty. Texts escape quotes, backslashes and
the controls below the space, and nothing else.
-/

namespace Synopsis.Report.Json

def hexPair (n : Nat) : List Char :=
  [Nat.digitChar (n / 16), Nat.digitChar (n % 16)]

def escape (c : Char) : List Char :=
  match c with
  | '"' => ['\\', '"']
  | '\\' => ['\\', '\\']
  | '\x08' => ['\\', 'b']
  | '\x0c' => ['\\', 'f']
  | '\n' => ['\\', 'n']
  | '\r' => ['\\', 'r']
  | '\t' => ['\\', 't']
  | c => if c < ' ' then ['\\', 'u', '0', '0'] ++ hexPair c.toNat else [c]

def string (s : String) : String :=
  String.ofList ('"' :: s.toList.flatMap escape ++ ['"'])

def lineAt (level : Nat) : String :=
  "\n" ++ String.ofList (List.replicate (2 * level) ' ')

def enclose (opening closing : String) (level : Nat) (parts : List String) : String :=
  if parts.isEmpty then opening ++ closing
  else
    opening ++ lineAt (level + 1) ++ String.intercalate ("," ++ lineAt (level + 1)) parts ++
      lineAt level ++ closing

mutual

def print (level : Nat) : Tree → String
  | .null => "null"
  | .bool b => if b then "true" else "false"
  | .number n => toString n
  | .text s => string s
  | .list elements => enclose "[" "]" level (printAll (level + 1) elements)
  | .map fields => enclose "\x7b" "\x7d" level (printFields (level + 1) fields)

def printAll (level : Nat) : List Tree → List String
  | [] => []
  | t :: ts => print level t :: printAll level ts

def printFields (level : Nat) : List (String × Tree) → List String
  | [] => []
  | (name, t) :: rest => (string name ++ ": " ++ print level t) :: printFields level rest

end

end Synopsis.Report.Json
