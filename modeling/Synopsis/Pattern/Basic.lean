import Synopsis.Registry

/-!
# Usage patterns

A usage line is a tree. Its leaves are slots: a named argument, a command word, or
an option of the registry. Branches require all their children in order, allow
any of them, choose one, or repeat one. The shortcut `options` stands for the
options that the line does not name.
-/

namespace Synopsis

inductive Slot where
  | argument (name : String) (value : Value)
  | command (name : String) (value : Value)
  | option (id : OptionId)
  deriving DecidableEq, Repr

/-- What a slot is, its default set aside. -/
inductive SlotKey where
  | argument (name : String)
  | command (name : String)
  | option (id : OptionId)
  deriving DecidableEq, Repr

inductive SlotKind where
  | argument
  | command
  | option
  deriving DecidableEq, Repr

namespace Slot

def key : Slot → SlotKey
  | argument name _ => .argument name
  | command name _ => .command name
  | option id => .option id

def kind : Slot → SlotKind
  | argument _ _ => .argument
  | command _ _ => .command
  | option _ => .option

def optionId? : Slot → Option OptionId
  | option id => some id
  | _ => none

def name (options : Registry) : Slot → String
  | argument name _ => name
  | command name _ => name
  | option id => options.name id

def initial (options : Registry) : Slot → Value
  | argument _ v => v
  | command _ v => v
  | option id => (options.spec id).value

end Slot

inductive Pattern where
  | leaf (slot : Slot)
  | required (children : List Pattern)
  | optional (children : List Pattern)
  | either (alternatives : List Pattern)
  | oneOrMore (child : Pattern)
  | shortcut
  deriving Repr, Inhabited

namespace Pattern

/-- Structural induction in which a branch has the claim for each of its children. -/
@[elab_as_elim, induction_eliminator]
theorem induction {motive : Pattern → Prop} (leaf : ∀ slot, motive (leaf slot))
    (required : ∀ ps, (∀ p ∈ ps, motive p) → motive (required ps))
    (optional : ∀ ps, (∀ p ∈ ps, motive p) → motive (optional ps))
    (either : ∀ ps, (∀ p ∈ ps, motive p) → motive (either ps))
    (oneOrMore : ∀ p, motive p → motive (oneOrMore p)) (shortcut : motive shortcut)
    (p : Pattern) : motive p := by
  refine @Pattern.rec motive (fun ps => ∀ p ∈ ps, motive p) leaf required optional either oneOrMore
    shortcut ?nil ?cons p
  case nil =>
    intro p hp
    exact absurd hp List.not_mem_nil
  case cons =>
    intro p ps head tail
    exact List.forall_mem_cons.2 ⟨head, tail⟩

def argument (name : String) : Pattern :=
  leaf (.argument name .absent)

def command (name : String) : Pattern :=
  leaf (.command name (.flag false))

def option (id : OptionId) : Pattern :=
  leaf (.option id)

mutual

/-- The same tree with the same slots, defaults set aside. -/
def alike : Pattern → Pattern → Bool
  | leaf a, leaf b => a.key == b.key
  | required ps, required qs => alikeAll ps qs
  | optional ps, optional qs => alikeAll ps qs
  | either ps, either qs => alikeAll ps qs
  | oneOrMore p, oneOrMore q => alike p q
  | shortcut, shortcut => true
  | _, _ => false

def alikeAll : List Pattern → List Pattern → Bool
  | [], [] => true
  | p :: ps, q :: qs => alike p q && alikeAll ps qs
  | _, _ => false

end

mutual

def equals : Pattern → Pattern → Bool
  | leaf a, leaf b => a == b
  | required ps, required qs => equalsAll ps qs
  | optional ps, optional qs => equalsAll ps qs
  | either ps, either qs => equalsAll ps qs
  | oneOrMore p, oneOrMore q => equals p q
  | shortcut, shortcut => true
  | _, _ => false

def equalsAll : List Pattern → List Pattern → Bool
  | [], [] => true
  | p :: ps, q :: qs => equals p q && equalsAll ps qs
  | _, _ => false

end

theorem equalsAll_iff {ps qs : List Pattern} (ih : ∀ p ∈ ps, ∀ q, p.equals q = true ↔ p = q) :
    equalsAll ps qs = true ↔ ps = qs := by
  induction ps generalizing qs with
  | nil => cases qs <;> simp [equalsAll]
  | cons p ps ihps =>
    obtain ⟨hp, hps⟩ := List.forall_mem_cons.1 ih
    cases qs with
    | nil => simp [equalsAll]
    | cons q qs => rw [equalsAll, Bool.and_eq_true, hp, ihps hps, List.cons.injEq]

theorem equals_iff (p q : Pattern) : p.equals q = true ↔ p = q := by
  induction p generalizing q with
  | leaf slot => cases q <;> simp [equals]
  | required ps ih => cases q <;> simp [equals, equalsAll_iff ih]
  | optional ps ih => cases q <;> simp [equals, equalsAll_iff ih]
  | either ps ih => cases q <;> simp [equals, equalsAll_iff ih]
  | oneOrMore p ih => cases q <;> simp [equals, ih]
  | shortcut => cases q <;> simp [equals]

instance : DecidableEq Pattern := fun p q => decidable_of_iff _ (equals_iff p q)

mutual

def slots : Pattern → List Slot
  | leaf slot => [slot]
  | required ps => slotsAll ps
  | optional ps => slotsAll ps
  | either ps => slotsAll ps
  | oneOrMore p => slots p
  | shortcut => []

def slotsAll : List Pattern → List Slot
  | [] => []
  | p :: ps => slots p ++ slotsAll ps

end

mutual

def mapSlots (f : Slot → Slot) : Pattern → Pattern
  | leaf slot => leaf (f slot)
  | required ps => required (mapSlotsAll f ps)
  | optional ps => optional (mapSlotsAll f ps)
  | either ps => either (mapSlotsAll f ps)
  | oneOrMore p => oneOrMore (mapSlots f p)
  | shortcut => shortcut

def mapSlotsAll (f : Slot → Slot) : List Pattern → List Pattern
  | [] => []
  | p :: ps => mapSlots f p :: mapSlotsAll f ps

end

@[simp]
theorem slotsAll_eq_flatMap (ps : List Pattern) : slotsAll ps = ps.flatMap slots := by
  induction ps with
  | nil => rfl
  | cons p ps ih => simp [slotsAll, ih]

@[simp]
theorem mapSlotsAll_eq_map (f : Slot → Slot) (ps : List Pattern) :
    mapSlotsAll f ps = ps.map (mapSlots f) := by
  induction ps with
  | nil => rfl
  | cons p ps ih => simp [mapSlotsAll, ih]

theorem slotsAll_mapSlotsAll {f : Slot → Slot} {ps : List Pattern}
    (h : ∀ p ∈ ps, (p.mapSlots f).slots = p.slots.map f) :
    slotsAll (mapSlotsAll f ps) = (slotsAll ps).map f := by
  induction ps with
  | nil => rfl
  | cons p ps ih =>
    obtain ⟨head, tail⟩ := List.forall_mem_cons.1 h
    rw [mapSlotsAll, slotsAll, slotsAll, head, ih tail, List.map_append]

@[simp]
theorem slots_mapSlots (f : Slot → Slot) (p : Pattern) : (p.mapSlots f).slots = p.slots.map f := by
  induction p with
  | leaf slot => rfl
  | required ps ih => exact slotsAll_mapSlotsAll ih
  | optional ps ih => exact slotsAll_mapSlotsAll ih
  | either ps ih => exact slotsAll_mapSlotsAll ih
  | oneOrMore p ih => exact ih
  | shortcut => rfl

def optionIds (p : Pattern) : List OptionId :=
  (p.slots.filterMap Slot.optionId?).eraseDups

end Pattern

end Synopsis
