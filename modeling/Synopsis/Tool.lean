import Synopsis.Application
import Synopsis.Report.Format

/-!
# The command line tool

`match` applies a document to the arguments after `--` and reports the bindings;
`inspect` reports the names of a document. A command line that is neither is
rejected before anything is read.
-/

namespace Synopsis.Tool

inductive Command where
  | matching
  | inspect
  deriving DecidableEq, Repr

def Command.ofName? : String → Option Command
  | "match" => some matching
  | "inspect" => some inspect
  | _ => none

structure Settings where
  doc : Option String := none
  format : Option Report.Format := none
  noHelp : Bool := false
  version : Option String := none
  optionsFirst : Bool := false
  deriving DecidableEq, Repr

structure Request where
  command : Command
  /-- Where the document is: a path, or `-` for the standard input. -/
  doc : String
  format : Report.Format
  config : Config
  argv : List String
  deriving DecidableEq, Repr

namespace Settings

def setValue? (s : Settings) (c : Command) (name value : String) : Option Settings :=
  match c, name with
  | _, "--doc" =>
    if s.doc.isSome || value.isEmpty then none else some { s with doc := some value }
  | _, "--format" =>
    if s.format.isSome then none
    else (Report.Format.ofName? value).map fun f => { s with format := some f }
  | .matching, "--version-text" =>
    if s.version.isSome then none else some { s with version := some value }
  | _, _ => none

def setFlag? (s : Settings) (c : Command) (name : String) : Option Settings :=
  match c, name with
  | .matching, "--no-help" => if s.noHelp then none else some { s with noHelp := true }
  | .matching, "--options-first" =>
    if s.optionsFirst then none else some { s with optionsFirst := true }
  | _, _ => none

def isFlag (name : String) : Bool :=
  name == "--no-help" || name == "--options-first"

/-- A value in a token of its own must not look like an option. -/
def isSeparateValue (value : String) : Bool :=
  value.toList.head? != some '-' || value == "-"

/-- Reads the options up to `--`, and gives what follows it. -/
def read? (c : Command) : List String → Settings → Option (Settings × List String)
  | [], s => some (s, [])
  | token :: rest, s =>
    if token = "--" then some (s, rest)
    else
      match OptionToken.splitValue token with
      | (name, some value) => do read? c rest (← s.setValue? c name value)
      | (name, none) =>
        if isFlag name then do read? c rest (← s.setFlag? c name)
        else
          match rest with
          | value :: rest =>
            if isSeparateValue value then do read? c rest (← s.setValue? c name value) else none
          | [] => none

end Settings

def request? : List String → Option Request
  | [] => none
  | name :: args => do
    let command ← Command.ofName? name
    let (s, argv) ← Settings.read? command args {}
    let doc ← s.doc
    if command = .inspect ∧ argv ≠ [] then none
    else
      return {
        command, doc, argv
        format := s.format.getD .json
        config := { help := !s.noHelp, version := s.version, optionsFirst := s.optionsFirst } }

structure Answer where
  success : Bool
  out : String
  err : String
  deriving DecidableEq, Repr

namespace Answer

def text (s : String) : Answer where
  success := true
  out := if s.toList.getLast? = some '\n' then s else s ++ "\n"
  err := ""

def error (message : String) : Answer where
  success := false
  out := ""
  err := "error: " ++ message ++ "\n"

def trimmed (s : String) : Answer where
  success := true
  out := String.ofList (Text.trimEnd s.toList) ++ "\n"
  err := ""

end Answer

def unreadable (path reason : String) : String :=
  if path = "-" then "Failed to read stdin: " ++ reason
  else "Failed to read '" ++ path ++ "': " ++ reason

def Request.answer (r : Request) : Except String String → Answer
  | .error reason => .error (unreadable r.doc reason)
  | .ok doc =>
    match r.command with
    | .matching =>
      match apply doc r.argv r.config with
      | .matched b => .text (Report.ofBindings b r.format)
      | .help text => .trimmed text
      | .version text => .trimmed text
      | .failed e => .error e.display
    | .inspect =>
      match leafNodes doc with
      | .ok nodes => .text (Report.ofNodes nodes r.format)
      | .error fault => .error fault.message

/-- The tool on a command line, documents being read by `read`. There is no answer to
a command line that makes no request. -/
def answer? (args : List String) (read : String → Except String String) : Option Answer :=
  (request? args).map fun r => r.answer (read r.doc)

end Synopsis.Tool
