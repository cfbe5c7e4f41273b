import Synopsis.Text.Capital
import Synopsis.Fault
import Synopsis.Value

/-!
# Properties

A typed target stores values under properties. The property of a name is the name
in capitalised parts, without its dashes: options begin with `Flag`, arguments in
angle brackets with `Arg`. A field table says how each property is set.
-/

namespace Synopsis

namespace Property

/-- Drops dashes and capitalises what follows one. `start` tells that a part starts
here. -/
def pascal (start : Bool) : List Char → List Char
  | [] => []
  | c :: cs =>
    if c = '-' then pascal true cs
    else if start then Text.capital c ++ pascal false cs
    else c :: pascal false cs

def ofChars : List Char → List Char
  | '-' :: '-' :: long => "Flag".toList ++ pascal true long
  | '-' :: short => "Flag".toList ++ pascal true short
  | '<' :: rest =>
    if rest.getLast? = some '>' then "Arg".toList ++ pascal true rest.dropLast
    else pascal true ('<' :: rest)
  | cs => pascal true cs

def ofName (name : String) : String :=
  String.ofList (ofChars name.toList)

end Property

structure FieldTable (σ : Type) where
  setters : List (String × (Value → σ → Except UsageError σ)) := []

namespace FieldTable

variable {σ : Type}

/-- Registers a setter. It replaces an earlier one of the same property. -/
def field (t : FieldTable σ) (property : String) (setter : Value → σ → Except UsageError σ) :
    FieldTable σ where
  setters := (property, setter) :: t.setters

def setter? (t : FieldTable σ) (property : String) :
    Option (Value → σ → Except UsageError σ) :=
  t.setters.lookup property

def contains (t : FieldTable σ) (property : String) : Bool :=
  (t.setter? property).isSome

def set (t : FieldTable σ) (name : String) (v : Value) (target : σ) : Except UsageError σ :=
  match t.setter? (Property.ofName name) with
  | some setter => setter v target
  | none => .error (.binding (Property.ofName name) name)

end FieldTable

/-- The values that a field accepts, and what it keeps of them. -/
inductive FieldKind where
  | any
  | flag
  | text
  | items
  | count
  /-- Any value, of which only whether it is set is kept. -/
  | set
  deriving DecidableEq, Repr

namespace FieldKind

def name : FieldKind → String
  | any => "any"
  | flag => "flag"
  | text => "text"
  | items => "items"
  | count => "count"
  | set => "set"

def accept? : FieldKind → Value → Option Value
  | any, v => some v
  | flag, v => v.flag?.map .flag
  | text, v => v.text?.map .text
  | items, v => v.items?.map .items
  | count, v => v.count?.map .count
  | set, v => some (.flag v.isSet)

def accept (k : FieldKind) (v : Value) : Except UsageError Value :=
  match k.accept? v with
  | some kept => .ok kept
  | none => .error (.language (.remark ("not " ++ k.name ++ ": " ++ v.display)))

end FieldKind

/-- A table over numbered slots, one for each field in order. The setter of a field
appends to its slot. -/
def FieldTable.ofFields (fields : List (String × FieldKind)) : FieldTable (List (List Value)) :=
  fields.zipIdx.foldl
    (fun t ((property, kind), slot) =>
      t.field property fun v slots =>
        (kind.accept v).map fun kept => slots.modify slot (· ++ [kept]))
    {}

end Synopsis
