import Synopsis.OptionSpec.Description
import Synopsis.Layout.Section

/-!
# Option lists

Every `options:` section of a document lists options. A line whose first character
other than spaces and tabs is a dash, followed by a character that is not blank,
opens a description, which runs on to the next such line.
-/

namespace Synopsis.Layout

def opens (line : List Char) : Bool :=
  match line.dropWhile fun c => c == ' ' || c == '\t' with
  | '-' :: c :: _ => !Text.isBlank c
  | _ => false

/-- The text before the first description and the descriptions after it. The line
break before a description belongs to neither. -/
def splitDescriptions : List Char → List Char × List (List Char)
  | [] => ([], [])
  | c :: cs =>
    let (lead, later) := splitDescriptions cs
    if c == '\n' && opens cs then ([], lead.dropWhile (· != '-') :: later)
    else if c == '\r' && cs.head? == some '\n' && opens (cs.drop 1) then ([], later)
    else (c :: lead, later)

def describedOptions (doc : String) : List OptionSpec :=
  (sections "options:" doc).flatMap fun s =>
    (splitDescriptions ('\n' :: body s.toList)).2.map fun cs =>
      OptionSpec.ofDescription (String.ofList cs)

end Synopsis.Layout
