import Synopsis.Report.Tree

/-!
# Table reports

One line for each name, in columns two spaces apart. The first column is as wide as
the longest name, its length taken in bytes, while the padding counts characters.
-/

namespace Synopsis.Report.Table

def padTo (width : Nat) (s : String) : String :=
  s ++ String.ofList (List.replicate (width - s.length) ' ')

/-- The length of the longest name, 4 if there is none. -/
def widthOf : List String → Nat
  | [] => 4
  | name :: rest => rest.foldl (fun width s => max width s.utf8ByteSize) name.utf8ByteSize

def printBindings (b : Bindings) : String :=
  let width := widthOf (b.toList.map Prod.fst)
  String.join (b.toList.map fun (name, v) => padTo width name ++ "  " ++ v.display ++ "\n")

def valueKindTitle : ValueKind → String
  | .absent => "Absent"
  | .flag => "Flag"
  | .text => "Text"
  | .items => "Items"
  | .count => "Count"

def printNodes (nodes : List LeafNode) : String :=
  let width := widthOf (nodes.map LeafNode.name)
  String.join (nodes.map fun n =>
    padTo width n.name ++ "  " ++ padTo 8 (kindName n.kind) ++ "  " ++
      valueKindTitle n.valueKind ++ "\n")

end Synopsis.Report.Table
