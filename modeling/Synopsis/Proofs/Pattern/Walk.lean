import Synopsis.Pattern.Basic

/-!
# Walks through a usage tree

A walk lists the slots that are filled, in their order, when the tree is gone through from left
to right. Every child of a required group is gone through, some of the children of an optional
one, one alternative of a choice, and a repetition any number of times.

How often a slot can occur on a walk is bounded by `passes`, where a repetition counts its child
twice. A slot that `passes` counts at most once occurs at most once on every walk, however many
rounds the repetitions take.
-/

namespace Synopsis.Pattern

inductive Walk : Pattern → List Slot → Prop
  | leaf (slot : Slot) : Walk (leaf slot) [slot]
  | required_nil : Walk (required []) []
  | required_cons {p ps first rest} :
      Walk p first → Walk (required ps) rest → Walk (required (p :: ps)) (first ++ rest)
  | optional_nil : Walk (optional []) []
  | optional_take {p ps first rest} :
      Walk p first → Walk (optional ps) rest → Walk (optional (p :: ps)) (first ++ rest)
  | optional_skip {p ps rest} : Walk (optional ps) rest → Walk (optional (p :: ps)) rest
  | either {p ps walk} : p ∈ ps → Walk p walk → Walk (either ps) walk
  | oneOrMore_nil {p} : Walk (oneOrMore p) []
  | oneOrMore_cons {p first rest} :
      Walk p first → Walk (oneOrMore p) rest → Walk (oneOrMore p) (first ++ rest)
  | shortcut : Walk shortcut []

theorem Walk.subset_slots {p : Pattern} {walk : List Slot} (h : p.Walk walk) :
    walk ⊆ p.slots := by
  induction h with
  | leaf slot => exact List.Subset.refl _
  | required_nil => exact List.nil_subset _
  | required_cons _ _ first rest =>
    exact List.append_subset.2 ⟨List.subset_append_of_subset_left _ first,
      List.subset_append_of_subset_right _ rest⟩
  | optional_nil => exact List.nil_subset _
  | optional_take _ _ first rest =>
    exact List.append_subset.2 ⟨List.subset_append_of_subset_left _ first,
      List.subset_append_of_subset_right _ rest⟩
  | optional_skip _ rest => exact List.subset_append_of_subset_right _ rest
  | either hp _ ih =>
    intro slot hslot
    simp only [slots, slotsAll_eq_flatMap]
    exact List.mem_flatMap.2 ⟨_, hp, ih hslot⟩
  | oneOrMore_nil => exact List.nil_subset _
  | oneOrMore_cons _ _ first rest => exact List.append_subset.2 ⟨first, rest⟩
  | shortcut => exact List.nil_subset _

mutual

/-- How often one usage line can pass a slot, a repetition counted as two rounds. -/
def passes (key : SlotKey) : Pattern → Nat
  | leaf slot => if slot.key = key then 1 else 0
  | required ps => passesAll key ps
  | optional ps => passesAll key ps
  | either ps => passesMost key ps
  | oneOrMore p => 2 * passes key p
  | shortcut => 0

def passesAll (key : SlotKey) : List Pattern → Nat
  | [] => 0
  | p :: ps => passes key p + passesAll key ps

def passesMost (key : SlotKey) : List Pattern → Nat
  | [] => 0
  | p :: ps => max (passes key p) (passesMost key ps)

end

theorem passes_le_passesMost {key : SlotKey} {p : Pattern} {ps : List Pattern} (hp : p ∈ ps) :
    p.passes key ≤ passesMost key ps := by
  induction ps with
  | nil => exact absurd hp List.not_mem_nil
  | cons q ps ih =>
    rw [passesMost]
    rcases List.mem_cons.1 hp with rfl | hp
    · exact Nat.le_max_left _ _
    · exact Nat.le_trans (ih hp) (Nat.le_max_right _ _)

/-- The rounds of a repetition are no obstacle: a slot that its child could pass at all would be
counted twice. -/
theorem Walk.count_le {p : Pattern} {walk : List Slot} {key : SlotKey} (h : p.Walk walk)
    (once : p.passes key ≤ 1) : (walk.map Slot.key).count key ≤ p.passes key := by
  induction h with
  | leaf slot => simp [passes, List.count_singleton]
  | required_nil => exact Nat.zero_le _
  | required_cons _ _ first rest =>
    simp only [passes, passesAll] at once first rest ⊢
    rw [List.map_append, List.count_append]
    have hf := first (by omega)
    have hr := rest (by omega)
    omega
  | optional_nil => exact Nat.zero_le _
  | optional_take _ _ first rest =>
    simp only [passes, passesAll] at once first rest ⊢
    rw [List.map_append, List.count_append]
    have hf := first (by omega)
    have hr := rest (by omega)
    omega
  | optional_skip _ rest =>
    simp only [passes, passesAll] at once rest ⊢
    have hr := rest (by omega)
    omega
  | either hp _ ih =>
    have hle : _ ≤ passesMost key _ := passes_le_passesMost hp
    simp only [passes] at once ⊢
    exact Nat.le_trans (ih (Nat.le_trans hle once)) hle
  | oneOrMore_nil => exact Nat.zero_le _
  | oneOrMore_cons _ _ first rest =>
    have hr := rest once
    simp only [passes] at once hr ⊢
    rw [List.map_append, List.count_append]
    have hf := first (by omega)
    omega
  | shortcut => exact Nat.zero_le _

end Synopsis.Pattern
