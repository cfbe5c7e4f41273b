import Synopsis.Text.LetterCase
import Synopsis.OptionToken
import Synopsis.Pattern.Grouping
import Synopsis.Usage.Token

/-!
# Reading a usage pattern

The grammar of formal usage is

    expression = sequence, { "|", sequence } ;
    sequence   = { atom }, [ "..." ] ;
    atom       = "(", expression, ")" | "[", expression, "]" | word ;

where an ellipsis repeats the atom before it and ends its sequence, and an ellipsis
at the head of a sequence is an ordinary word. A word is the shortcut `options`,
an option, an argument or a command.

The tokens are read from left to right with a stack of open groups. An option that
waits for its value takes the next token, whatever it is, unless that is `--`.
-/

namespace Synopsis.Usage

inductive Lexeme where
  | opening (b : Bracket)
  | closing (b : Bracket)
  | bar
  | ellipsis
  | shortcut
  | option
  | argument
  | command
  deriving DecidableEq, Repr

/-- A placeholder in angle brackets, or a word with upper case and no lower case. -/
def isArgumentName (token : String) : Bool :=
  let cs := token.toList
  (cs.head? == some '<' && cs.getLast? == some '>') ||
    (cs.any Text.isUpper && !cs.any Text.isLower)

def Lexeme.ofToken (token : String) : Lexeme :=
  if token = "(" then opening .round
  else if token = "[" then opening .square
  else if token = ")" then closing .round
  else if token = "]" then closing .square
  else if token = "|" then bar
  else if token = "..." then ellipsis
  else if token = "options" then shortcut
  else if OptionToken.isOption token then option
  else if isArgumentName token then argument
  else command

structure Frame where
  /-- The sequences before the last bar. -/
  sequences : List (List Pattern) := []
  /-- The current sequence without its last atom. -/
  front : List Pattern := []
  /-- The last atom, a cluster of options being several patterns; empty at the head. -/
  atom : List Pattern := []
  /-- An ellipsis has ended the sequence. -/
  ended : Bool := false

namespace Frame

def sequence (f : Frame) : List Pattern :=
  f.front ++ f.atom

def add (f : Frame) (atom : List Pattern) : Frame :=
  { f with front := f.sequence, atom := atom }

def repeatAtom (f : Frame) : Frame :=
  { f with front := f.front ++ [.oneOrMore (.group f.atom)], atom := [], ended := true }

def next (f : Frame) : Frame where
  sequences := f.sequences ++ [f.sequence]

def content (f : Frame) : List Pattern :=
  if f.sequences.isEmpty then f.sequence else Pattern.choice (f.sequences ++ [f.sequence])

end Frame

structure Reader where
  /-- The open groups, the innermost first, with what stands before them. -/
  outer : List (Bracket × Frame) := []
  frame : Frame := {}
  /-- The option that waits for its value. -/
  waiting : Option OptionToken.Waiting := none

namespace Reader

def add (r : Reader) (atom : List Pattern) : Reader :=
  { r with frame := r.frame.add atom }

/-- The fault of tokens that cannot follow: inside a group the group stays open. -/
def stray (r : Reader) (tokens : List String) : Fault :=
  match r.outer with
  | [] => .unexpectedEnding tokens
  | (b, _) :: _ => .unmatched b

def close? (r : Reader) (b : Bracket) : Option Reader :=
  match r.outer with
  | [] => none
  | (opened, f) :: outer =>
    if opened = b then some { outer, frame := f.add [.ofBracket b r.frame.content] } else none

def item (r : Reader) (token : String) : Lexeme → EStateM Fault Registry Reader
  | .opening b => return { outer := (b, r.frame) :: r.outer }
  | .ellipsis =>
    if r.frame.atom.isEmpty then return r.add [.command token]
    else return { r with frame := r.frame.repeatAtom }
  | .shortcut => return r.add [.shortcut]
  | .option => do
    let reading ← OptionToken.read .language token
    return { r.add (reading.ids.map .option) with waiting := reading.waiting }
  | .argument => return r.add [.argument token]
  | _ => return r.add [.command token]

/-- Reads one token, which is not the value of an option. -/
def step (r : Reader) (token : String) (rest : List String) :
    EStateM Fault Registry Reader :=
  match Lexeme.ofToken token with
  | .bar => return { r with frame := r.frame.next }
  | .closing b =>
    match r.close? b with
    | some r => return r
    | none => throw (r.stray (token :: rest))
  | lexeme =>
    if r.frame.ended then throw (r.stray (token :: rest)) else r.item token lexeme

def finish (r : Reader) : Except Fault (List Pattern) :=
  match r.waiting, r.outer with
  | some w, _ => .error (.argumentMissing w.name)
  | none, [] => .ok r.frame.content
  | none, _ => .error (r.stray [])

def read : List String → Reader → EStateM Fault Registry (List Pattern)
  | [], r =>
    match r.finish with
    | .ok ps => return ps
    | .error fault => throw fault
  | token :: rest, r =>
    match r.waiting with
    | some w =>
      if token = "--" then throw (.argumentMissing w.name)
      else read rest { r with waiting := none }
    | none => do read rest (← r.step token rest)

end Reader

def readPattern (source : String) : EStateM Fault Registry Pattern := do
  return .required (← Reader.read (tokens source) {})

end Synopsis.Usage
