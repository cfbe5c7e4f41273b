import Synopsis.Text.Blank
import Synopsis.Text.Folding
import Synopsis.Text.Scan
import Synopsis.Fault

/-!
# Sections of a document

A document is free text with sections in it. A section begins with a line that
contains the section's marker, in any letter case, and goes on through the lines
after it that begin with a space or a tab. Lines end with a newline; the line of
the marker may also end with a lone carriage return.
-/

namespace Synopsis.Layout

def isLineBreak (c : Char) : Bool :=
  c == '\r' || c == '\n'

def dropLineBreak : List Char → List Char
  | '\r' :: '\n' :: rest => rest
  | '\r' :: rest => rest
  | '\n' :: rest => rest
  | cs => cs

/-- Leaves out the lines that begin with a space or a tab. `inside` tells that such
a line has begun. -/
def dropIndented (inside : Bool) : List Char → List Char
  | [] => []
  | c :: cs =>
    if inside then dropIndented (c != '\n') cs
    else if c == ' ' || c == '\t' then dropIndented true cs
    else c :: cs

/-- What remains after a section at the start of a line. -/
def section? (marker : List Char) (cs : List Char) : Option (List Char) :=
  (Text.afterLongestRun (!isLineBreak ·) (Text.dropWord? marker) cs).map fun rest =>
    dropIndented false (dropLineBreak (rest.dropWhile (!isLineBreak ·)))

/-- A section where a line starts: at the start of the text or after a newline. -/
def sectionAt? (marker : List Char) (last : Option Char) (cs : List Char) :
    Option (List Char) :=
  if last.all (· == '\n') then section? marker cs else none

def sections (marker source : String) : List String :=
  (Text.scan (sectionAt? marker.toList) none 0 false source.toList).map fun cs =>
    String.ofList (Text.trim cs)

def usageSection (doc : String) : Except Fault String :=
  match sections "usage:" doc with
  | [] => .error .usageMissing
  | [one] => .ok one
  | _ => .error .usageRepeated

/-- What follows the first colon of a section, or all of it if there is none. -/
def body (cs : List Char) : List Char :=
  match cs.dropWhile (· != ':') with
  | [] => cs
  | _ :: rest => rest

end Synopsis.Layout
