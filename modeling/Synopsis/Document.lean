import Synopsis.Layout.OptionList
import Synopsis.Usage.Formal
import Synopsis.Usage.Reader
import Synopsis.Pattern.Shortcut
import Synopsis.Pattern.Repetition
import Synopsis.Accumulator

/-!
# Usage documents

A document that has been read: its usage section, the pattern of its usage lines
and the registry of its options. The names of the document, with their defaults,
are listed without looking at any arguments.
-/

namespace Synopsis

/-- Gives a name its value, in its place if the name is there, or else at the end. -/
def Entry.overlay (e : Entry) : List Entry → List Entry
  | [] => [e]
  | x :: xs => if x.name = e.name then { x with value := e.value } :: xs else x :: e.overlay xs

structure Document where
  usage : String
  pattern : Pattern
  options : Registry

namespace Document

def read (doc : String) : Except Fault Document := do
  let usage ← Layout.usageSection doc
  let formal ← Usage.formal usage
  match (Usage.readPattern formal).run (.ofDocumented (Layout.describedOptions doc)) with
  | .ok pattern options => return { usage, pattern, options }
  | .error fault _ => throw fault

def expand (d : Document) : Document :=
  { d with pattern := d.pattern.expandShortcut d.options }

def fix (d : Document) : Document :=
  let (pattern, options) := d.pattern.fix d.options
  { d with pattern, options }

/-- Each name once, in order of first appearance, with its default. -/
def defaults (d : Document) : List Entry :=
  d.pattern.slots.foldl
    (fun entries slot =>
      Entry.overlay ⟨slot.kind, slot.name d.options, slot.initial d.options⟩ entries)
    []

end Document

structure LeafNode where
  name : String
  kind : SlotKind
  valueKind : ValueKind
  deriving DecidableEq, Repr

/-- The names of a document in order of first appearance. -/
def leafNodes (doc : String) : Except Fault (List LeafNode) :=
  (Document.read doc).map fun d =>
    d.expand.fix.defaults.map fun e => ⟨e.name, e.kind, e.value.kind⟩

end Synopsis
