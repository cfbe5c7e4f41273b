import Synopsis.Fault
import Synopsis.Pattern.Basic

/-!
# Groups and choices

How the parts of a usage expression are put together: a sequence stands as one
pattern, and alternatives become a choice when at least two of them differ.
-/

namespace Synopsis.Pattern

def group : List Pattern → Pattern
  | [p] => p
  | ps => required ps

def distinct (ps : List Pattern) : List Pattern :=
  ps.foldl (fun kept p => if kept.any (alike p) then kept else kept ++ [p]) []

/-- The content of a group with several sequences. Empty sequences do not count,
and one alternative is no choice. -/
def choice (sequences : List (List Pattern)) : List Pattern :=
  match distinct ((sequences.filter (!·.isEmpty)).map group) with
  | p :: q :: rest => [either (p :: q :: rest)]
  | ps => ps

def ofBracket : Bracket → List Pattern → Pattern
  | .round => required
  | .square => optional

end Synopsis.Pattern
