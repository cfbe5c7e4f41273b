import Mathlib.Order.Bounds.Defs
import Synopsis.Proofs.Pattern.Expansion
import Synopsis.Proofs.Pattern.Readiness

/-!
# What fixing changes

Fixing keeps the shape of a tree and all names. Options get their canonical references, and the
slots that the tree passes more than once, wherever they stand in it, become lists and counts: in
the leaves for arguments and commands, and in the registry for options. Nothing else changes, and
nothing is left to change when the tree is fixed again.
-/

namespace Synopsis

/-- The option as fixing leaves it when it is passed that often. -/
def OptionSpec.fixed (passes : Nat) (o : OptionSpec) : OptionSpec :=
  { o with
    value := if 1 < passes then (if o.takesValue then o.value.asList else .count 0) else o.value }

theorem Registry.isLeast_canonical {r : Registry} {id : OptionId} (hid : id < r.size) :
    IsLeast {k | k < r.size ∧ (r.spec k).short = (r.spec id).short ∧
      (r.spec k).long = (r.spec id).long} (r.canonical id) := by
  obtain ⟨hlt, hsame, hleast⟩ := canonical_spec hid
  refine ⟨⟨hlt, sameIdentity_iff.1 hsame⟩, fun k hk => Nat.le_of_not_lt fun hless => ?_⟩
  have hother := hleast k hless
  rw [sameIdentity_iff.2 hk.2] at hother
  cases hother

namespace Slot

variable {options : Registry} {repeated : List SlotKey} {passes : SlotKey → Nat} {slot : Slot}

/-- The slot as fixing leaves it when the slots are passed that often. -/
def fixed (options : Registry) (passes : SlotKey → Nat) : Slot → Slot
  | argument name v => argument name (if 1 < passes (.argument name) then v.asList else v)
  | command name v => command name (if 1 < passes (.command name) then .count 0 else v)
  | option id => option (options.canonical id)

theorem repeatable_repeatable (slot : Slot) : slot.repeatable.repeatable = slot.repeatable := by
  cases slot with
  | argument name v => exact congrArg (argument name) v.asList_asList
  | _ => rfl

theorem marked_marked (repeated : List SlotKey) (slot : Slot) :
    (slot.marked repeated).marked repeated = slot.marked repeated := by
  by_cases h : repeated.contains slot.key = true
  · have hmarked : slot.marked repeated = slot.repeatable := if_pos h
    have hkey := slot.key_marked repeated
    rw [hmarked] at hkey ⊢
    rw [marked, hkey, if_pos h, repeatable_repeatable]
  · have hmarked : slot.marked repeated = slot := if_neg h
    rw [hmarked, hmarked]

theorem marked_option (repeated : List SlotKey) (id : OptionId) :
    (option id).marked repeated = option id :=
  ite_self _

theorem canonical_marked (options : Registry) (repeated : List SlotKey) (slot : Slot) :
    (slot.marked repeated).canonical options = (slot.canonical options).marked repeated := by
  cases slot with
  | option id => rw [marked_option, canonical, marked_option]
  | argument name v => exact (apply_ite (canonical options) _ _ _).trans rfl
  | command name v => exact (apply_ite (canonical options) _ _ _).trans rfl

theorem marked_canonical (h : ∀ key, key ∈ repeated ↔ 1 < passes key) (slot : Slot) :
    (slot.canonical options).marked repeated = slot.fixed options passes := by
  have hmarked (slot : Slot) :
      slot.marked repeated = if 1 < passes slot.key then slot.repeatable else slot := by
    simp only [marked, List.contains_iff_mem, h]
  rw [hmarked]
  cases slot with
  | argument name v => exact (apply_ite (argument name) _ v.asList v).symm
  | command name v => exact (apply_ite (command name) _ (.count 0) v).symm
  | option id => exact ite_self _

theorem name_fixed (h : ∀ id, slot = option id → id < options.size) :
    (slot.fixed options passes).name options = slot.name options := by
  cases slot with
  | argument name v => rfl
  | command name v => rfl
  | option id => exact Registry.name_canonical (h id rfl)

end Slot

namespace Pattern

variable {p : Pattern} {ps : List Pattern} {options : Registry} {f g : Slot → Slot}

theorem mapSlotsAll_mapSlotsAll (h : ∀ p ∈ ps, (p.mapSlots f).mapSlots g = p.mapSlots (g ∘ f)) :
    mapSlotsAll g (mapSlotsAll f ps) = mapSlotsAll (g ∘ f) ps := by
  simp only [mapSlotsAll_eq_map, List.map_map]
  exact List.map_congr_left h

theorem mapSlots_mapSlots (p : Pattern) : (p.mapSlots f).mapSlots g = p.mapSlots (g ∘ f) := by
  induction p with
  | leaf slot => rfl
  | required ps ih => exact congrArg required (mapSlotsAll_mapSlotsAll ih)
  | optional ps ih => exact congrArg optional (mapSlotsAll_mapSlotsAll ih)
  | either ps ih => exact congrArg either (mapSlotsAll_mapSlotsAll ih)
  | oneOrMore p ih => exact congrArg oneOrMore ih
  | shortcut => rfl

theorem mapSlots_id (p : Pattern) : p.mapSlots id = p := by
  have all {ps : List Pattern} (ih : ∀ p ∈ ps, p.mapSlots id = p) : mapSlotsAll id ps = ps := by
    rw [mapSlotsAll_eq_map]
    exact (List.map_congr_left ih).trans (List.map_id ps)
  induction p with
  | leaf slot => rfl
  | required ps ih => exact congrArg required (all ih)
  | optional ps ih => exact congrArg optional (all ih)
  | either ps ih => exact congrArg either (all ih)
  | oneOrMore p ih => exact congrArg oneOrMore ih
  | shortcut => rfl

theorem mapSlots_eq_self (h : ∀ slot ∈ p.slots, f slot = slot) : p.mapSlots f = p :=
  (mapSlots_congr h).trans p.mapSlots_id

def InRange (options : Registry) (p : Pattern) : Prop :=
  ∀ id, .option id ∈ p.slots → id < options.size

theorem canonical_fix (p : Pattern) (options : Registry) (id : OptionId) :
    (p.fix options).2.canonical id = options.canonical id := by
  simp only [Registry.canonical, size_fix, Registry.sameIdentity_eq, sameIdentity_fix]

theorem identified_fix (h : p.InRange options) :
    (p.fix options).1.identified (p.fix options).2 = (p.fix options).1 := by
  refine mapSlots_eq_self fun slot hslot => ?_
  obtain ⟨old, hold, rfl⟩ := mem_slots_fix.1 hslot
  rw [Slot.canonical_marked]
  congr 1
  cases old with
  | argument name v => rfl
  | command name v => rfl
  | option id =>
    have hid := h id hold
    rw [Slot.canonical, Slot.canonical, canonical_fix, Registry.canonical_canonical hid]

theorem repeated_fix (p : Pattern) (options : Registry) :
    (p.fix options).1.repeated = (p.identified options).repeated := by
  rw [fix_fst, repeated, repeated, ways_mapSlots (Slot.key_marked _)]

theorem fix_fix (h : p.InRange options) :
    (p.fix options).1.fix (p.fix options).2 = p.fix options := by
  refine Prod.ext ?_ ?_
  · rw [fix_fst, identified_fix h, repeated_fix]
    refine mapSlots_eq_self fun slot hslot => ?_
    obtain ⟨old, -, rfl⟩ := mem_slots_fix.1 hslot
    exact Slot.marked_marked _ _
  · rw [fix_snd, identified_fix h, repeated_fix, fix_snd, Registry.setRepeatable_setRepeatable]

/-- What a tree and its registry are when exactly those slots have been made lists and counts that
are passed more than once. -/
structure FixedTo (options : Registry) (p : Pattern) (fixed : Registry) (q : Pattern) : Prop where
  tree : q = p.mapSlots (·.fixed options fun key => (p.identified options).passes key)
  names : q.slots.map (·.name fixed) = p.slots.map (·.name options)
  size : fixed.size = options.size
  documented : fixed.documented = options.documented
  entries : ∀ id < options.size, fixed.spec id =
    (options.spec id).fixed ((p.identified options).passes (.option id))

theorem fixedTo_fix (hrange : p.InRange options) (hchoice : p.NoEmptyChoice) :
    FixedTo options p (p.fix options).2 (p.fix options).1 := by
  have hrepeated (key : SlotKey) :
      key ∈ (p.identified options).repeated ↔ 1 < (p.identified options).passes key :=
    (hchoice.mapSlots _).mem_repeated_iff_passes
  have htree : (p.fix options).1 =
      p.mapSlots (·.fixed options fun key => (p.identified options).passes key) := by
    rw [fix_fst, identified, mapSlots_mapSlots]
    exact mapSlots_congr fun slot _ => Slot.marked_canonical hrepeated slot
  refine ⟨htree, ?_, size_fix p options, Registry.documented_setRepeatable _ _, fun id hid => ?_⟩
  · rw [htree, slots_mapSlots, List.map_map]
    refine List.map_congr_left fun slot hslot => ?_
    rw [Function.comp_apply, name_slot_fix]
    exact Slot.name_fixed fun id hid => hrange id (hid ▸ hslot)
  · rw [spec_fix hid, OptionSpec.fixed]
    simp only [List.contains_iff_mem, hrepeated]
    by_cases hpasses : 1 < (p.identified options).passes (.option id)
    · rw [if_pos hpasses, if_pos hpasses, OptionSpec.repeatable]
    · rw [if_neg hpasses, if_neg hpasses]

/-- Fixing is exact: the queue of cases finds the slots that are passed more than once, these are
what changes, and fixing again changes nothing. -/
theorem fix_exact (hrange : p.InRange options) (hchoice : p.NoEmptyChoice) :
    (∀ key, (∃ case ∈ (p.identified options).flatCases, 1 < case.count key) ↔
        1 < (p.identified options).passes key) ∧
      FixedTo options p (p.fix options).2 (p.fix options).1 ∧
      (∀ id < options.size, IsLeast {k | k < options.size ∧
        (options.spec k).short = (options.spec id).short ∧
        (options.spec k).long = (options.spec id).long} (options.canonical id)) ∧
      (p.fix options).1.fix (p.fix options).2 = p.fix options := by
  refine ⟨fun key => ?_, fixedTo_fix hrange hchoice, fun id hid => Registry.isLeast_canonical hid,
    fix_fix hrange⟩
  rw [← mem_repeated_iff_flatCases]
  exact (hchoice.mapSlots _).mem_repeated_iff_passes

theorem fix_exact_verbose :
    let options := Registry.ofDocumented
      [.ofNames (some "-v") none 0, .ofNames (some "-v") none 0]
    let p := required [oneOrMore (argument "FILE"),
      either [option 1, required [command "add", option 0, option 1]]]
    p.InRange options ∧ p.NoEmptyChoice ∧
      (p.fix options).1 = required [oneOrMore (leaf (.argument "FILE" (.items []))),
        either [option 0, required [command "add", option 0, option 0]]] ∧
      ((p.fix options).2.spec 0).value = .count 0 ∧
      ((p.fix options).2.spec 1).value = .flag false ∧
      (p.fix options).1.fix (p.fix options).2 = p.fix options := by
  intro options p
  have hrange : p.InRange options := by
    have hids : ∀ id ∈ p.slots.filterMap Slot.optionId?, id < options.size := by decide
    exact fun id hid => hids id (List.mem_filterMap.2 ⟨.option id, hid, rfl⟩)
  have hchoice : p.NoEmptyChoice := by
    refine .required (List.forall_mem_cons.2 ⟨.oneOrMore (.leaf _),
      List.forall_mem_singleton.2 (.either (by simp) (List.forall_mem_cons.2 ⟨.leaf _,
        List.forall_mem_singleton.2 (.required ?_)⟩))⟩)
    simp only [List.forall_mem_cons, List.not_mem_nil, false_imp_iff, implies_true, and_true]
    exact ⟨.leaf _, .leaf _, .leaf _⟩
  obtain ⟨-, hfixed, -, hagain⟩ := fix_exact hrange hchoice
  refine ⟨hrange, hchoice, hfixed.tree, ?_, ?_, hagain⟩
  · rw [hfixed.entries 0 (by decide)]
    rfl
  · rw [hfixed.entries 1 (by decide)]
    rfl

end Pattern

end Synopsis
