import Synopsis.Text.Folding
import Synopsis.Text.Scan
import Synopsis.OptionSpec.Basic

/-!
# Option descriptions

A description begins with the names of the option, up to the first two spaces or
the first tab. Names and placeholders are separated by blanks, commas and equals
signs; a placeholder means that the option takes a value. The text after the names
may give a default in the form `[default: value]`, which means the same.
-/

namespace Synopsis.OptionSpec

/-- The text cut before its first two spaces or its first tab. -/
def splitNames : List Char → List Char × List Char
  | [] => ([], [])
  | ' ' :: ' ' :: rest => ([], ' ' :: ' ' :: rest)
  | '\t' :: rest => ([], '\t' :: rest)
  | c :: rest =>
    let (names, text) := splitNames rest
    (c :: names, text)

def isNameSeparator (c : Char) : Bool :=
  c == ',' || c == '=' || Text.isBlank c

structure Names where
  short : Option String := none
  long : Option String := none
  arity : Nat := 0

/-- Of two short or two long names the later one counts. -/
def Names.add (n : Names) (word : List Char) : Names :=
  if ['-', '-'].isPrefixOf word then { n with long := some (String.ofList word) }
  else if ['-'].isPrefixOf word then { n with short := some (String.ofList word) }
  else { n with arity := 1 }

/-- What stands before the last closing bracket of the first line. -/
def uptoBracket? (cs : List Char) : Option (List Char) :=
  (Text.afterLongestRun (· != '\n') (fun r => if r.head? == some ']' then some r else none) cs).map
    (Text.before cs)

/-- The first default that is closed on its line. -/
def default? : List Char → Option (List Char)
  | [] => none
  | c :: cs =>
    match (Text.dropWord? "[default: ".toList (c :: cs)).bind uptoBracket? with
    | some value => some value
    | none => default? cs

def ofDescription (description : String) : OptionSpec :=
  let (names, text) := splitNames (Text.trim description.toList)
  let found := (Text.pieces isNameSeparator names).foldl Names.add {}
  match default? text with
  | some value =>
    { ofNames found.short found.long 1 with
      value := .text (String.ofList value) }
  | none => ofNames found.short found.long found.arity

end Synopsis.OptionSpec
