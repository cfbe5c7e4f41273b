import Synopsis.Proofs.Pattern.Repetition
import Synopsis.Proofs.Registry.Growth

/-!
# Trees that are ready for matching

A tree is well formed over a registry if its options are in the registry, its arguments and
commands are not set, and it has no empty choice. Its names are apart if slots of different kinds
and different options have different names. Fixing makes such a tree ready: a name determines the
slot with its value, and a slot whose value does not accumulate is passed at most once.
-/

namespace Synopsis

namespace Slot

def IsUnset (options : Registry) : Slot → Prop
  | argument _ v => v = .absent
  | command _ v => v = .flag false
  | option id => id < options.size

def IsFixed (options : Registry) : Slot → Prop
  | argument _ v => v = .absent ∨ v = .items []
  | command _ v => v = .flag false ∨ v = .count 0
  | option id => id < options.size

/-- The slots are of one kind and, if they are options, of one identity. -/
def same (options : Registry) : Slot → Slot → Bool
  | argument _ _, argument _ _ => true
  | command _ _, command _ _ => true
  | option i, option j => options.sameIdentity i j
  | _, _ => false

variable {options : Registry} {slot : Slot}

@[simp]
theorem name_marked (repeated : List SlotKey) (slot : Slot) :
    (slot.marked repeated).name options = slot.name options := by
  unfold marked
  by_cases h : repeated.contains slot.key = true
  · rw [if_pos h]
    cases slot <;> rfl
  · rw [if_neg h]

theorem name_eq_of_key_eq (options : Registry) {a b : Slot} (h : a.key = b.key) :
    a.name options = b.name options := by
  cases a <;> cases b <;> simp_all [key, name]

theorem name_canonical (h : slot.IsUnset options) :
    (slot.canonical options).name options = slot.name options := by
  cases slot with
  | argument name v => rfl
  | command name v => rfl
  | option id => exact Registry.name_canonical h

theorem IsUnset.grows {phase : Phase} {larger : Registry} (h : slot.IsUnset options)
    (hgrows : options.Grows phase larger) : slot.IsUnset larger := by
  cases slot with
  | argument name v => exact h
  | command name v => exact h
  | option id => exact Nat.lt_of_lt_of_le h hgrows.size_le

theorem IsUnset.name_grows {phase : Phase} {larger : Registry} (h : slot.IsUnset options)
    (hgrows : options.Grows phase larger) : slot.name larger = slot.name options := by
  cases slot with
  | argument name v => rfl
  | command name v => rfl
  | option id => exact congrArg OptionSpec.name (hgrows.spec_eq h)

theorem IsUnset.same_grows {phase : Phase} {larger : Registry} {other : Slot}
    (h : slot.IsUnset options) (hother : other.IsUnset options)
    (hgrows : options.Grows phase larger) : slot.same larger other = slot.same options other := by
  cases slot with
  | argument name v => cases other <;> rfl
  | command name v => cases other <;> rfl
  | option i =>
    cases other with
    | argument name v => rfl
    | command name v => rfl
    | option j => exact hgrows.sameIdentity_eq h hother

theorem IsUnset.canonical_grows {phase : Phase} {larger : Registry} (h : slot.IsUnset options)
    (hgrows : options.Grows phase larger) : slot.canonical larger = slot.canonical options := by
  cases slot with
  | argument name v => rfl
  | command name v => rfl
  | option id => exact congrArg option (hgrows.canonical_eq h)

/-- An unset slot is determined by its key once its option is canonical. -/
theorem canonical_eq_of_key_eq {a b : Slot} (ha : a.IsUnset options) (hb : b.IsUnset options)
    (h : (a.canonical options).key = (b.canonical options).key) :
    a.canonical options = b.canonical options := by
  cases a <;> cases b <;> simp_all [canonical, key, IsUnset]

theorem key_canonical_eq {a b : Slot} (ha : a.IsUnset options) (hb : b.IsUnset options)
    (hname : a.name options = b.name options) (hsame : a.same options b = true) :
    (a.canonical options).key = (b.canonical options).key := by
  cases a with
  | argument name v =>
    cases b with
    | argument name' v' => exact congrArg SlotKey.argument hname
    | command name' v' => cases hsame
    | option j => cases hsame
  | command name v =>
    cases b with
    | argument name' v' => cases hsame
    | command name' v' => exact congrArg SlotKey.command hname
    | option j => cases hsame
  | option i =>
    cases b with
    | argument name' v' => cases hsame
    | command name' v' => cases hsame
    | option j =>
      exact congrArg SlotKey.option ((Registry.canonical_eq_canonical_iff ha hb).2 hsame)

end Slot

namespace Pattern

structure WellFormed (options : Registry) (p : Pattern) : Prop where
  slots : ∀ slot ∈ p.slots, slot.IsUnset options
  choices : p.NoEmptyChoice

/-- Slots of different kinds, and different options, have different names. -/
def NamesApart (options : Registry) (p : Pattern) : Prop :=
  ∀ a ∈ p.slots, ∀ b ∈ p.slots, a.name options = b.name options → a.same options b = true

instance (options : Registry) (p : Pattern) : Decidable (p.NamesApart options) :=
  inferInstanceAs (Decidable (∀ a ∈ p.slots, ∀ b ∈ p.slots,
    a.name options = b.name options → a.same options b = true))

structure Ready (options : Registry) (p : Pattern) : Prop where
  unique : ∀ a ∈ p.slots, ∀ b ∈ p.slots, a.name options = b.name options → a = b
  once : ∀ a ∈ p.slots, (a.initial options).accumulates = false → p.passes a.key ≤ 1

variable {options : Registry} {p : Pattern} {ps : List Pattern} {slot : Slot}

theorem WellFormed.leaf (h : slot.IsUnset options) : WellFormed options (.leaf slot) :=
  ⟨fun _ ha => List.mem_singleton.1 ha ▸ h, .leaf slot⟩

theorem isUnset_of_mem_slotsAll (h : ∀ p ∈ ps, p.WellFormed options) :
    ∀ slot ∈ slotsAll ps, slot.IsUnset options := by
  intro slot hslot
  rw [slotsAll_eq_flatMap] at hslot
  obtain ⟨p, hp, hslot⟩ := List.mem_flatMap.1 hslot
  exact (h p hp).slots slot hslot

theorem WellFormed.required (h : ∀ p ∈ ps, p.WellFormed options) :
    WellFormed options (.required ps) :=
  ⟨isUnset_of_mem_slotsAll h, .required fun p hp => (h p hp).choices⟩

theorem WellFormed.optional (h : ∀ p ∈ ps, p.WellFormed options) :
    WellFormed options (.optional ps) :=
  ⟨isUnset_of_mem_slotsAll h, .optional fun p hp => (h p hp).choices⟩

theorem WellFormed.either (hne : ps ≠ []) (h : ∀ p ∈ ps, p.WellFormed options) :
    WellFormed options (.either ps) :=
  ⟨isUnset_of_mem_slotsAll h, .either hne fun p hp => (h p hp).choices⟩

theorem WellFormed.oneOrMore (h : p.WellFormed options) : WellFormed options (.oneOrMore p) :=
  ⟨h.slots, .oneOrMore h.choices⟩

theorem WellFormed.shortcut : WellFormed options .shortcut :=
  ⟨fun _ ha => absurd ha List.not_mem_nil, .shortcut⟩

theorem WellFormed.grows {phase : Phase} {larger : Registry} (h : p.WellFormed options)
    (hgrows : options.Grows phase larger) : p.WellFormed larger :=
  ⟨fun slot hslot => (h.slots slot hslot).grows hgrows, h.choices⟩

theorem NamesApart.grows {phase : Phase} {larger : Registry} (h : p.NamesApart options)
    (hformed : p.WellFormed options) (hgrows : options.Grows phase larger) :
    p.NamesApart larger := by
  intro a ha b hb hname
  have hunset := hformed.slots a ha
  have hunset' := hformed.slots b hb
  rw [hunset.name_grows hgrows, hunset'.name_grows hgrows] at hname
  rw [hunset.same_grows hunset' hgrows]
  exact h a ha b hb hname

theorem mapSlots_congr {f g : Slot → Slot} (h : ∀ slot ∈ p.slots, f slot = g slot) :
    p.mapSlots f = p.mapSlots g := by
  have all {ps : List Pattern} (h : ∀ slot ∈ slotsAll ps, f slot = g slot)
      (ih : ∀ p ∈ ps, (∀ slot ∈ p.slots, f slot = g slot) → p.mapSlots f = p.mapSlots g) :
      mapSlotsAll f ps = mapSlotsAll g ps := by
    rw [mapSlotsAll_eq_map, mapSlotsAll_eq_map]
    refine List.map_congr_left fun p hp => ih p hp fun slot hslot => h slot ?_
    rw [slotsAll_eq_flatMap]
    exact List.mem_flatMap.2 ⟨p, hp, hslot⟩
  induction p with
  | leaf slot => exact congrArg leaf (h slot (List.mem_singleton_self slot))
  | required ps ih => exact congrArg required (all h ih)
  | optional ps ih => exact congrArg optional (all h ih)
  | either ps ih => exact congrArg either (all h ih)
  | oneOrMore p ih => exact congrArg oneOrMore (ih h)
  | shortcut => rfl

theorem WellFormed.identified_grows {phase : Phase} {larger : Registry} (h : p.WellFormed options)
    (hgrows : options.Grows phase larger) : p.identified larger = p.identified options :=
  mapSlots_congr fun slot hslot => (h.slots slot hslot).canonical_grows hgrows

theorem WellFormed.fix_grows {phase : Phase} {larger : Registry} (h : p.WellFormed options)
    (hgrows : options.Grows phase larger) : (p.fix larger).1 = (p.fix options).1 := by
  rw [fix_fst, fix_fst, h.identified_grows hgrows]

theorem WellFormed.spec_fix_grows {phase : Phase} {larger : Registry} {id : OptionId}
    (h : p.WellFormed options) (hgrows : options.Grows phase larger) (hid : id < options.size) :
    (p.fix larger).2.spec id = (p.fix options).2.spec id := by
  have hlt : id < larger.size := Nat.lt_of_lt_of_le hid hgrows.size_le
  rw [spec_fix hid, spec_fix hlt, h.identified_grows hgrows, hgrows.spec_eq hid]

theorem name_slot_fix (p : Pattern) (options : Registry) (slot : Slot) :
    slot.name (p.fix options).2 = slot.name options := by
  cases slot with
  | argument name v => rfl
  | command name v => rfl
  | option id => exact name_fix p options id

theorem WellFormed.accumulates (h : p.WellFormed options) (hslot : slot ∈ (p.fix options).1.slots)
    (hrepeated : slot.key ∈ (p.identified options).repeated) :
    (slot.initial (p.fix options).2).accumulates = true := by
  obtain ⟨old, hold, rfl⟩ := mem_slots_fix.1 hslot
  rw [Slot.key_marked] at hrepeated
  have hcontains := List.contains_iff_mem.2 hrepeated
  unfold Slot.marked
  rw [if_pos hcontains]
  cases old with
  | argument name v => exact Value.accumulates_asList v
  | command name v => rfl
  | option id =>
    obtain ⟨hlt, -⟩ := Registry.canonical_spec (h.slots _ hold)
    have hoption :
        (p.identified options).repeated.contains (.option (options.canonical id)) = true :=
      hcontains
    change ((p.fix options).2.spec (options.canonical id)).value.accumulates = true
    rw [spec_fix hlt, if_pos hoption]
    exact OptionSpec.accumulates_repeatable _

theorem WellFormed.isFixed (h : p.WellFormed options) (hslot : slot ∈ (p.fix options).1.slots) :
    slot.IsFixed options := by
  obtain ⟨old, hold, rfl⟩ := mem_slots_fix.1 hslot
  have hunset := h.slots old hold
  unfold Slot.marked
  by_cases hrepeated : (p.identified options).repeated.contains (old.canonical options).key = true
  · rw [if_pos hrepeated]
    cases old with
    | argument name v =>
      obtain rfl : v = .absent := hunset
      exact .inr rfl
    | command name v => exact .inr rfl
    | option id => exact (Registry.canonical_spec hunset).1
  · rw [if_neg hrepeated]
    cases old with
    | argument name v => exact .inl hunset
    | command name v => exact .inl hunset
    | option id => exact (Registry.canonical_spec hunset).1

theorem WellFormed.ready (h : p.WellFormed options) (hapart : p.NamesApart options) :
    Ready (p.fix options).2 (p.fix options).1 := by
  refine ⟨fun a ha b hb hname => ?_, fun slot hslot hscalar => ?_⟩
  · obtain ⟨old, hold, rfl⟩ := mem_slots_fix.1 ha
    obtain ⟨old', hold', rfl⟩ := mem_slots_fix.1 hb
    have hunset := h.slots old hold
    have hunset' := h.slots old' hold'
    rw [name_slot_fix, name_slot_fix, Slot.name_marked, Slot.name_marked,
      Slot.name_canonical hunset, Slot.name_canonical hunset'] at hname
    have hkey := Slot.key_canonical_eq hunset hunset' hname (hapart old hold old' hold' hname)
    rw [Slot.canonical_eq_of_key_eq hunset hunset' hkey]
  · rw [passes_fix]
    refine (h.choices.mapSlots _).passes_le_one fun hrepeated => ?_
    rw [h.accumulates hslot hrepeated] at hscalar
    cases hscalar

end Pattern

end Synopsis
