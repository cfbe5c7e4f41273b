/-!
# Scanning

Two ways of going through a text. `afterLongestRun` tries what follows a run of
characters, the longest run first. `scan` collects the pieces that a recogniser
finds from left to right, each search starting where the last piece ended; an
empty piece is dropped where another piece has just ended.
-/

namespace Synopsis.Text

variable {α : Type}

/-- What `next` makes of the text after a run of characters satisfying `p`; of
several runs after which `next` succeeds, the longest counts. -/
def afterLongestRun (p : Char → Bool) (next : List Char → Option α) : List Char → Option α
  | [] => next []
  | c :: cs =>
    match if p c then afterLongestRun p next cs else none with
    | some found => some found
    | none => next (c :: cs)

def before (cs rest : List Char) : List Char :=
  cs.take (cs.length - rest.length)

/-- The pieces of a text. Given the character before a place and the text from
there on, `piece` tells what remains after a piece at this place. The arguments
of the walk are the character passed last, the number of characters still inside
the last piece, and whether a piece ended just here. -/
def scan (piece : Option Char → List Char → Option (List Char)) :
    Option Char → Nat → Bool → List Char → List (List Char)
  | last, _, closed, [] =>
    match piece last [] with
    | some _ => if closed then [] else [[]]
    | none => []
  | _, inside + 1, _, c :: cs => scan piece (some c) inside (inside == 0) cs
  | last, 0, closed, c :: cs =>
    match piece last (c :: cs) with
    | none => scan piece (some c) 0 false cs
    | some rest =>
      match before (c :: cs) rest with
      | [] => (if closed then [] else [[]]) ++ scan piece (some c) 0 false cs
      | _ :: tail => (c :: tail) :: scan piece (some c) tail.length (tail.length == 0) cs

end Synopsis.Text
