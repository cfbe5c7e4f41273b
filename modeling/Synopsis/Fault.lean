/-!
# Faults and errors

A fault is one thing that can be wrong with a usage text or with the arguments
given to it. An error says in which phase the fault was met: while reading the
usage, while reading or matching the arguments, or while a matched value was
stored. Errors about arguments carry the usage section, to be shown with them.
-/

namespace Synopsis

inductive Bracket where
  | round
  | square
  deriving DecidableEq, Repr

def Bracket.opening : Bracket → String
  | round => "("
  | square => "["

def Bracket.closing : Bracket → String
  | round => ")"
  | square => "]"

inductive Fault where
  | usageMissing
  | usageRepeated
  | programMissing
  /-- The usage was complete, yet these tokens follow. -/
  | unexpectedEnding (tokens : List String)
  | unmatched (bracket : Bracket)
  /-- Several options have the long name, or begin with it. -/
  | notUnique (long : String) (candidates : List String)
  /-- So many options have the short name. -/
  | ambiguousShort (short : String) (times : Nat)
  | notRecognized (long : String)
  | argumentMissing (option : String)
  | argumentRefused (option : String)
  /-- The arguments do not fit the usage. -/
  | mismatch
  /-- A fault in the words of whoever reports it. -/
  | remark (text : String)
  deriving DecidableEq, Repr

def Fault.message : Fault → String
  | usageMissing => "\"usage:\" (case-insensitive) not found."
  | usageRepeated => "More than one \"usage:\" (case-insensitive)."
  | programMissing => "\"usage:\" section does not name a program."
  | unexpectedEnding tokens => "unexpected ending: " ++ String.intercalate " " tokens
  | unmatched bracket => "unmatched '" ++ bracket.opening ++ "'"
  | notUnique long candidates =>
    long ++ " is not a unique prefix: " ++ String.intercalate ", " candidates ++ "?"
  | ambiguousShort short times =>
    short ++ " is specified ambiguously " ++ toString times ++ " times"
  | notRecognized long => long ++ " is not recognized"
  | argumentMissing option => option ++ " requires argument"
  | argumentRefused option => option ++ " must not have an argument"
  | mismatch => ""
  | remark text => text

inductive Phase where
  | language
  | input
  deriving DecidableEq, Repr

inductive UsageError where
  | language (fault : Fault)
  | input (fault : Fault) (usage : String)
  /-- No field is registered under the property that the name stands for. -/
  | binding (property name : String)
  deriving DecidableEq, Repr

namespace UsageError

def ofPhase : Phase → Fault → UsageError
  | .language, fault => language fault
  | .input, fault => input fault ""

/-- Only errors about arguments take the usage section. -/
def withUsage (usage : String) : UsageError → UsageError
  | input fault _ => input fault usage
  | e => e

def phase? : UsageError → Option Phase
  | language _ => some .language
  | input _ _ => some .input
  | binding _ _ => none

def usage? : UsageError → Option String
  | input _ usage => if usage.isEmpty then none else some usage
  | _ => none

def display : UsageError → String
  | language fault => fault.message
  | input fault usage =>
    if fault.message.isEmpty then usage
    else if usage.isEmpty then fault.message
    else fault.message ++ "\n" ++ usage
  | binding property name => "can't find property " ++ property ++ " for argument " ++ name

@[simp]
theorem phase?_ofPhase (phase : Phase) (fault : Fault) :
    (ofPhase phase fault).phase? = some phase := by
  cases phase <;> rfl

@[simp]
theorem phase?_withUsage (usage : String) (e : UsageError) :
    (e.withUsage usage).phase? = e.phase? := by
  cases e <;> rfl

theorem usage?_withUsage {usage : String} {e : UsageError} (hphase : e.phase? = some .input)
    (husage : usage ≠ "") : (e.withUsage usage).usage? = some usage := by
  cases e with
  | input fault old => simp [withUsage, usage?, husage]
  | language fault => cases hphase
  | binding property name => cases hphase

end UsageError

end Synopsis
