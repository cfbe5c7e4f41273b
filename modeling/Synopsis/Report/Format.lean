import Synopsis.Report.Json
import Synopsis.Report.Yaml
import Synopsis.Report.Table

/-!
# Report formats

Bindings and name lists can be reported as JSON, as YAML or as a table.
-/

namespace Synopsis.Report

inductive Format where
  | json
  | yaml
  | table
  deriving DecidableEq, Repr

def Format.ofName? : String → Option Format
  | "json" => some json
  | "yaml" => some yaml
  | "table" => some table
  | _ => none

def ofBindings (b : Bindings) : Format → String
  | .json => Json.print 0 (.ofBindings b)
  | .yaml => Yaml.print (.ofBindings b)
  | .table => Table.printBindings b

def ofNodes (nodes : List LeafNode) : Format → String
  | .json => Json.print 0 (.ofNodes nodes)
  | .yaml => Yaml.print (.ofNodes nodes)
  | .table => Table.printNodes nodes

end Synopsis.Report
