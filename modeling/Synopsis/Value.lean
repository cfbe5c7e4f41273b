import Synopsis.Text.Blank
import Synopsis.Text.Quoted

/-!
# Values

The value bound to a name: nothing, a flag, a text, a list of texts, or a count.
A name that can occur more than once on a usage line has a list or a count,
every other name a scalar.
-/

namespace Synopsis

inductive Value where
  | absent
  | flag (on : Bool)
  | text (s : String)
  | items (l : List String)
  | count (n : Nat)
  deriving DecidableEq, Repr, Inhabited

inductive ValueKind where
  | absent
  | flag
  | text
  | items
  | count
  deriving DecidableEq, Repr

namespace Value

def kind : Value → ValueKind
  | absent => .absent
  | flag _ => .flag
  | text _ => .text
  | items _ => .items
  | count _ => .count

def isAbsent : Value → Bool
  | absent => true
  | _ => false

/-- Nothing, `false`, the empty text, the empty list and zero count as not set. -/
def isSet : Value → Bool
  | absent => false
  | flag on => on
  | text s => !s.isEmpty
  | items l => !l.isEmpty
  | count n => n != 0

def flag? : Value → Option Bool
  | flag on => some on
  | _ => none

def text? : Value → Option String
  | text s => some s
  | _ => none

def items? : Value → Option (List String)
  | items l => some l
  | _ => none

def count? : Value → Option Nat
  | count n => some n
  | _ => none

/-- The default of a name that can repeat: a text is cut into its words. -/
def asList : Value → Value
  | text s => items ((Text.words s.toList).map String.ofList)
  | items l => items l
  | _ => items []

def addition : Value → List String
  | text s => [s]
  | items l => l
  | _ => []

/-- Counts add up and lists are joined; in every other case the later value stays. -/
def add : Value → Value → Value
  | count m, count n => count (m + n)
  | items k, items l => items (k ++ l)
  | _, later => later

def display : Value → String
  | absent => "null"
  | flag on => if on then "true" else "false"
  | text s => Text.quote s
  | items l => "[" ++ String.intercalate ", " (l.map Text.quote) ++ "]"
  | count n => toString n

end Value

end Synopsis
