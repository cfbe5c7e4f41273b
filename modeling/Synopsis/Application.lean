import Synopsis.Document
import Synopsis.Occurrence.Arguments
import Synopsis.Matching

/-!
# Applying a document to arguments

The document is read, then the arguments, then both are matched. If the arguments
ask for help or for the version, that is the outcome, whether they fit or not.
Otherwise every occurrence must be taken, and each name of the document gets the
value bound to it or keeps its default.
-/

namespace Synopsis

structure Config where
  /-- Give the document when `-h` or `--help` is among the arguments. -/
  help : Bool := true
  /-- Give this text when `--version` is among the arguments. -/
  version : Option String := none
  optionsFirst : Bool := false
  deriving DecidableEq, Repr

inductive Outcome (α : Type) where
  | matched (result : α)
  | help (doc : String)
  | version (text : String)
  | failed (error : UsageError)
  deriving Repr

namespace Outcome

variable {α β : Type}

def isMatched : Outcome α → Bool
  | matched _ => true
  | _ => false

def matched? : Outcome α → Option α
  | matched result => some result
  | _ => none

/-- Help and version are results without a value. -/
def toExcept : Outcome α → Except UsageError (Option α)
  | matched result => .ok (some result)
  | help _ => .ok none
  | version _ => .ok none
  | failed e => .error e

def andThen (o : Outcome α) (f : α → Except UsageError β) : Outcome β :=
  match o with
  | matched result =>
    match f result with
    | .ok value => matched value
    | .error e => failed e
  | help doc => help doc
  | version text => version text
  | failed e => failed e

theorem toExcept_eq_error_iff {o : Outcome α} {e : UsageError} :
    o.toExcept = .error e ↔ o = .failed e := by
  cases o <;> simp [toExcept]

end Outcome

/-- An option with one of these names is set among the arguments. -/
def requested (options : Registry) (names : List String) (arguments : List Occurrence) : Bool :=
  arguments.any fun x =>
    match x with
    | .option id v => v.isSet && names.contains (options.name id)
    | _ => false

namespace Document

def conclude (d : Document) (arguments : List Occurrence) : Outcome (List Entry) :=
  let fixed := d.fix
  let result := Matching.run fixed.options fixed.pattern arguments
  if result.isComplete then
    .matched (result.collected.foldl
      (fun entries x =>
        match x.name? fixed.options with
        | some name => Entry.overlay ⟨x.kind, name, x.value⟩ entries
        | none => entries)
      fixed.defaults)
  else .failed ((UsageError.ofPhase .input .mismatch).withUsage d.usage)

end Document

/-- The final value of each name of a document, in order of first appearance. -/
def entries (doc : String) (argv : List String) (config : Config) : Outcome (List Entry) :=
  match Document.read doc with
  | .error fault => .failed (.ofPhase .language fault)
  | .ok d =>
    let tokens := Usage.Tokens.ofArguments argv
    match (tokens.readWith (Occurrence.readArguments config.optionsFirst)).run d.options with
    | .error e _ => .failed (e.withUsage d.usage)
    | .ok arguments options =>
      if config.help && requested options ["-h", "--help"] arguments then .help doc
      else
        match config.version, requested options ["--version"] arguments with
        | some text, true => .version text
        | _, _ => ({ d with options } : Document).expand.conclude arguments

def applyWith {σ : Type} (doc : String) (argv : List String) (config : Config)
    (a : Accumulator σ) : Outcome σ :=
  (entries doc argv config).andThen a.run

def apply (doc : String) (argv : List String) (config : Config) : Outcome Bindings :=
  applyWith doc argv config .bindings

end Synopsis
