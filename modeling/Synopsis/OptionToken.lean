import Synopsis.Fault
import Synopsis.Registry

/-!
# Option tokens

One token such as `--name`, `--name=value` or `-abc` stands for one or more
occurrences of options. Usage lines and arguments spell options alike and are read
by the same rules, with two differences: among the arguments a long name may be
cut short as long as it stays unique, and an unknown long name is a fault there,
while a usage line introduces it. What is introduced before a fault stays in the
registry.

The last option of a token may still wait for its value, which is then the whole
next token.
-/

namespace Synopsis.OptionToken

/-- An option that takes the next token as its value, and what a fault calls it. -/
structure Waiting where
  id : OptionId
  name : String
  deriving DecidableEq, Repr

/-- The occurrences in one token: those that are complete, then the one that waits. -/
structure Reading where
  complete : List (OptionId × Value) := []
  waiting : Option Waiting := none
  deriving DecidableEq, Repr

namespace Reading

def cons (id : OptionId) (v : Value) (r : Reading) : Reading :=
  { r with complete := (id, v) :: r.complete }

def one (id : OptionId) (v : Value) : Reading :=
  cons id v {}

def wait (id : OptionId) (name : String) : Reading :=
  { waiting := some ⟨id, name⟩ }

def ids (r : Reading) : List OptionId :=
  r.complete.map Prod.fst ++ r.waiting.toList.map Waiting.id

end Reading

def register (o : OptionSpec) : EStateM Fault Registry OptionId := do
  let options ← get
  set (options.push o)
  return options.size

/-- A long option token before and after its first equals sign. -/
def splitValue (token : String) : String × Option String :=
  let cs := token.toList
  match cs.dropWhile (· != '=') with
  | [] => (token, none)
  | _ :: value => (String.ofList (cs.takeWhile (· != '=')), some (String.ofList value))

/-- The options that a long name can mean: those that have it, or else, among the
arguments, those that it abbreviates. -/
def candidates (phase : Phase) (options : Registry) (long : String) : List OptionId :=
  match phase, options.longIds long with
  | .input, [] => options.longIdsFrom long
  | _, exact => exact

def readLong (phase : Phase) (token : String) : EStateM Fault Registry Reading := do
  let options ← get
  let (long, value) := splitValue token
  match candidates phase options long with
  | [] =>
    match phase with
    | .input => throw (.notRecognized long)
    | .language =>
      let id ← register (.ofNames none (some long) (if value.isSome then 1 else 0))
      return .one id .absent
  | [id] =>
    let o := options.spec id
    match value with
    | some value =>
      if o.takesValue then return .one id (.text value) else throw (.argumentRefused o.name)
    | none => return if o.takesValue then .wait id o.name else .one id (.flag true)
  | ids => throw (.notUnique long (ids.map options.name))

/-- Reads the letters of a cluster. An option that takes a value takes the rest of
the cluster; an unknown letter becomes a flag. -/
def readCluster : List Char → EStateM Fault Registry Reading
  | [] => return {}
  | c :: rest => do
    let options ← get
    let short := String.ofList ['-', c]
    match options.shortIds short with
    | [] =>
      let id ← register (.ofNames (some short) none 0)
      return (← readCluster rest).cons id (.flag true)
    | [id] =>
      if (options.spec id).takesValue then
        return if rest.isEmpty then .wait id short else .one id (.text (String.ofList rest))
      else return (← readCluster rest).cons id (.flag true)
    | ids => throw (.ambiguousShort short ids.length)

/-- A token that begins with a dash and is more than `-` and `--`. -/
def isOption (token : String) : Bool :=
  token.toList.head? == some '-' && token != "-" && token != "--"

def isLong (token : String) : Bool :=
  ['-', '-'].isPrefixOf token.toList

def read (phase : Phase) (token : String) : EStateM Fault Registry Reading :=
  if isLong token then readLong phase token
  else readCluster (token.toList.dropWhile (· == '-'))

end Synopsis.OptionToken
