import Synopsis.OptionToken
import Synopsis.Occurrence.Basic

/-!
# Reading the arguments

The argument vector becomes a flat list of occurrences. From the first `--` on all
tokens are positional, `--` included, so that a usage line can ask for it. If
options come first, all tokens from the first positional on are positional too.
-/

namespace Synopsis.Occurrence

/-- Reads the tokens when an option may wait for the first of them. -/
def readTokens (optionsFirst : Bool) :
    Option OptionToken.Waiting → List String → EStateM Fault Registry (List Occurrence)
  | none, [] => return []
  | some w, [] => throw (.argumentMissing w.name)
  | some w, token :: rest => do
    if token = "--" then throw (.argumentMissing w.name)
    return option w.id (.text token) :: (← readTokens optionsFirst none rest)
  | none, token :: rest => do
    if token = "--" then return (token :: rest).map positional
    else if OptionToken.isOption token then
      let reading ← OptionToken.read .input token
      let found := reading.complete.map fun (id, v) => option id v
      return found ++ (← readTokens optionsFirst reading.waiting rest)
    else if optionsFirst then return (token :: rest).map positional
    else return positional token :: (← readTokens optionsFirst none rest)

def readArguments (optionsFirst : Bool) (argv : List String) :
    EStateM Fault Registry (List Occurrence) :=
  readTokens optionsFirst none argv

end Synopsis.Occurrence
