import Synopsis.Pattern.Basic

/-!
# Repeated slots

A slot that one way through the tree can pass more than once collects its values:
its default becomes a list or a count. A repetition may be gone through twice, so
whatever stands under it repeats. Before the passes are counted, each option is
replaced by the first entry of its identity.
-/

namespace Synopsis

namespace Slot

def canonical (options : Registry) : Slot → Slot
  | option id => option (options.canonical id)
  | slot => slot

/-- The slot with the default of a slot that can repeat. The default of an option
is kept in the registry. -/
def repeatable : Slot → Slot
  | argument name v => argument name v.asList
  | command name _ => command name (.count 0)
  | option id => option id

end Slot

def Registry.setRepeatable (options : Registry) (repeated : List SlotKey) : Registry :=
  repeated.foldl
    (fun options key =>
      match key with
      | .option id => options.setValue id (options.spec id).repeatable.value
      | _ => options)
    options

namespace Pattern

mutual

/-- The ways through the tree, each with the slots that it passes. -/
def ways : Pattern → List (List SlotKey)
  | leaf slot => [[slot.key]]
  | required ps => waysAll ps
  | optional ps => waysAll ps
  | either ps => waysAny ps
  | oneOrMore p => (ways p).flatMap fun first => (ways p).map (first ++ ·)
  | shortcut => [[]]

def waysAll : List Pattern → List (List SlotKey)
  | [] => [[]]
  | p :: ps => (ways p).flatMap fun first => (waysAll ps).map (first ++ ·)

def waysAny : List Pattern → List (List SlotKey)
  | [] => []
  | p :: ps => ways p ++ waysAny ps

end

@[simp]
theorem waysAny_eq_flatMap (ps : List Pattern) : waysAny ps = ps.flatMap ways := by
  induction ps with
  | nil => rfl
  | cons p ps ih => simp [waysAny, ih]

def repeated (p : Pattern) : List SlotKey :=
  (p.ways.flatMap fun way => way.filter fun key => 1 < way.count key).eraseDups

def fix (p : Pattern) (options : Registry) : Pattern × Registry :=
  let p := p.mapSlots (·.canonical options)
  let repeated := p.repeated
  (p.mapSlots fun slot => if repeated.contains slot.key then slot.repeatable else slot,
    options.setRepeatable repeated)

end Pattern

end Synopsis
