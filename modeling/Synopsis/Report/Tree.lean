import Synopsis.Bindings
import Synopsis.Document

/-!
# Report trees

What is reported, before it is written in a format: scalars, lists and maps whose
fields are in order.
-/

namespace Synopsis.Report

inductive Tree where
  | null
  | bool (b : Bool)
  | number (n : Nat)
  | text (s : String)
  | list (elements : List Tree)
  | map (fields : List (String × Tree))

def Tree.ofValue : Value → Tree
  | .absent => null
  | .flag b => bool b
  | .text s => text s
  | .items l => list (l.map text)
  | .count n => number n

def Tree.ofBindings (b : Bindings) : Tree :=
  map (b.toList.map fun (name, v) => (name, ofValue v))

def kindName : SlotKind → String
  | .argument => "argument"
  | .command => "command"
  | .option => "option"

def valueKindName : ValueKind → String
  | .absent => "absent"
  | .flag => "flag"
  | .text => "text"
  | .items => "items"
  | .count => "count"

def Tree.ofNode (n : LeafNode) : Tree :=
  map [("name", text n.name), ("kind", text (kindName n.kind)),
    ("value_kind", text (valueKindName n.valueKind))]

def Tree.ofNodes (nodes : List LeafNode) : Tree :=
  list (nodes.map ofNode)

end Synopsis.Report
