import Synopsis.Value

/-!
# Options

An option has a short name, a long name, or both; it may take a value; and it has
a default. Two descriptions mean the same option when both names agree.
-/

namespace Synopsis

structure OptionSpec where
  short : Option String
  long : Option String
  /-- How many values the option takes: none or one. -/
  arity : Nat
  value : Value
  deriving DecidableEq, Repr

namespace OptionSpec

/-- An option with the default of its arity: a flag is off, a value is absent. -/
def ofNames (short long : Option String) (arity : Nat) : OptionSpec where
  short := short
  long := long
  arity := arity
  value := if arity = 0 then .flag false else .absent

instance : Inhabited OptionSpec := ⟨ofNames none none 0⟩

def takesValue (o : OptionSpec) : Bool :=
  0 < o.arity

/-- The name under which the option's value is reported: the long one if it has one. -/
def name (o : OptionSpec) : String :=
  (o.long.or o.short).getD ""

def sameIdentity (a b : OptionSpec) : Bool :=
  a.short == b.short && a.long == b.long

def repeatable (o : OptionSpec) : OptionSpec :=
  { o with value := if o.takesValue then o.value.asList else .count 0 }

end OptionSpec

end Synopsis
