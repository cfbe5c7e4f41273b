import Synopsis.Layout.Section

/-!
# Formal usage

The usage section, its line breaks gone, as one expression. The first word after
the marker is the program. Each further mention of it opens a new alternative:
the words up to there form a group, and the groups are alternatives.
-/

namespace Synopsis.Usage

def formalWord (program word : String) : String :=
  if word = program then ") | (" else word

def formal (usage : String) : Except Fault String :=
  match (Text.words (Layout.body usage.toList)).map String.ofList with
  | [] => .error .programMissing
  | program :: words =>
    .ok (String.intercalate " " ("(" :: words.map (formalWord program) ++ [")"]))

end Synopsis.Usage
