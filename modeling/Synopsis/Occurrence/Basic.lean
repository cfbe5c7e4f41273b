import Synopsis.Pattern.Basic

/-!
# Occurrences

What stands on the command line, piece by piece: a positional argument, which gets
its name only when a slot takes it, a command word, or an option with its value.
Bound occurrences have the same form.
-/

namespace Synopsis

inductive Occurrence where
  | argument (name : Option String) (value : Value)
  | command (name : String) (value : Value)
  | option (id : OptionId) (value : Value)
  deriving DecidableEq, Repr

namespace Occurrence

def positional (text : String) : Occurrence :=
  argument none (.text text)

def value : Occurrence → Value
  | argument _ v => v
  | command _ v => v
  | option _ v => v

def withValue (v : Value) : Occurrence → Occurrence
  | argument name _ => argument name v
  | command name _ => command name v
  | option id _ => option id v

def kind : Occurrence → SlotKind
  | argument _ _ => .argument
  | command _ _ => .command
  | option _ _ => .option

/-- The name under which the value is reported. A positional has none yet. -/
def name? (options : Registry) : Occurrence → Option String
  | argument name _ => name
  | command name _ => some name
  | option id _ => some (options.name id)

def isArgument : Occurrence → Bool
  | argument _ _ => true
  | _ => false

/-- An occurrence of the option `id`, or of one with the same names. -/
def isOption (options : Registry) (id : OptionId) : Occurrence → Bool
  | option other _ => options.sameIdentity id other
  | _ => false

theorem isArgument_iff {x : Occurrence} : x.isArgument = true ↔ ∃ name v, x = argument name v := by
  cases x <;> simp [isArgument]

theorem isOption_iff {options : Registry} {id : OptionId} {x : Occurrence} :
    x.isOption options id = true ↔
      ∃ other v, x = option other v ∧ options.sameIdentity id other = true := by
  cases x <;> simp [isOption]

end Occurrence

end Synopsis
