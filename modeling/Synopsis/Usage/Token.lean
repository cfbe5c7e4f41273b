import Synopsis.Text.Blank
import Synopsis.Text.Scan
import Synopsis.Fault

/-!
# Tokens

Brackets, bars and ellipses are tokens by themselves, wherever they stand. Other
tokens are words, except that a placeholder in angle brackets, with what touches
it in front, is one token even if there are blanks in it.
-/

namespace Synopsis.Usage

def isGrouping (c : Char) : Bool :=
  c == '[' || c == ']' || c == '(' || c == ')' || c == '|'

/-- The text with a space on either side of each bracket, bar and ellipsis. -/
def pad : List Char → List Char
  | [] => []
  | '.' :: '.' :: '.' :: rest => [' ', '.', '.', '.', ' '] ++ pad rest
  | c :: rest => if isGrouping c then [' ', c, ' '] ++ pad rest else c :: pad rest

/-- What remains after a placeholder that begins here and ends on this line. -/
def dropPlaceholder? : List Char → Option (List Char)
  | '<' :: rest =>
    match rest.dropWhile fun c => c != '>' && c != '\n' with
    | '>' :: rest => some rest
    | _ => none
  | _ => none

/-- What remains after a token: a word that runs into a placeholder, the last one
that it reaches, or else a word. -/
def dropToken? (cs : List Char) : Option (List Char) :=
  match Text.afterLongestRun (!Text.isBlank ·) dropPlaceholder? cs with
  | some rest => some rest
  | none =>
    match cs with
    | c :: _ => if Text.isBlank c then none else some (cs.dropWhile (!Text.isBlank ·))
    | [] => none

def tokens (source : String) : List String :=
  (Text.scan (fun _ => dropToken?) none 0 false (pad source.toList)).map String.ofList

/-- Tokens still to be read, with the phase whose errors they raise. -/
structure Tokens where
  remaining : List String
  phase : Phase
  deriving DecidableEq, Repr

namespace Tokens

def ofPattern (source : String) : Tokens where
  remaining := tokens source
  phase := .language

def ofArguments (argv : List String) : Tokens where
  remaining := argv
  phase := .input

def current? (t : Tokens) : Option String :=
  t.remaining.head?

def advance (t : Tokens) : Option String × Tokens :=
  (t.current?, { t with remaining := t.remaining.tail })

def drain (t : Tokens) : List String × Tokens :=
  (t.remaining, { t with remaining := [] })

def error (t : Tokens) (fault : Fault) : UsageError :=
  .ofPhase t.phase fault

/-- What a reader makes of the tokens that are left, its faults being errors of their phase. -/
def readWith {σ α : Type} (t : Tokens) (reader : List String → EStateM Fault σ α) :
    EStateM UsageError σ α :=
  (reader t.drain.1).adaptExcept t.error

variable {σ α : Type} {t : Tokens} {reader : List String → EStateM Fault σ α} {s s' : σ}

/-- Draining takes what advancing takes, token by token. -/
theorem drain_eq_advance (t : Tokens) :
    t.drain = (t.advance.1.toList ++ t.advance.2.drain.1, t.advance.2.drain.2) := by
  obtain ⟨remaining, phase⟩ := t
  cases remaining <;> rfl

@[simp]
theorem phase?_error (t : Tokens) (fault : Fault) : (t.error fault).phase? = some t.phase :=
  UsageError.phase?_ofPhase _ _

theorem readWith_of_ok {x : α} (h : (reader t.remaining).run s = .ok x s') :
    (t.readWith reader).run s = .ok x s' := by
  change reader t.remaining s = .ok x s' at h
  simp only [readWith, EStateM.run, EStateM.adaptExcept, drain, h]

theorem readWith_of_error {fault : Fault} (h : (reader t.remaining).run s = .error fault s') :
    (t.readWith reader).run s = .error (t.error fault) s' := by
  change reader t.remaining s = .error fault s' at h
  simp only [readWith, EStateM.run, EStateM.adaptExcept, drain, h]

end Tokens

end Synopsis.Usage
