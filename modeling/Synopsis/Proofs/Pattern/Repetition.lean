import Synopsis.Pattern.Repetition
import Synopsis.Proofs.Pattern.Walk
import Synopsis.Proofs.Registry.Identity

/-!
# Which slots are made lists and counts

In a tree without an empty choice `passes` is attained by one of the ways through the tree, so a
slot that is not marked as repeated occurs at most once on every walk. Fixing changes no key
but the references of options, which become canonical, and gives every repeated slot a value that
accumulates.
-/

namespace Synopsis

/-- A list or a count, to which every occurrence adds. -/
def Value.accumulates : Value → Bool
  | .items _ => true
  | .count _ => true
  | _ => false

theorem Value.accumulates_asList (v : Value) : v.asList.accumulates = true := by
  cases v <;> rfl

theorem OptionSpec.accumulates_repeatable (o : OptionSpec) :
    o.repeatable.value.accumulates = true := by
  unfold OptionSpec.repeatable
  by_cases h : o.takesValue = true
  · simp only [if_pos h]
    exact Value.accumulates_asList o.value
  · simp only [if_neg h]
    rfl

namespace Pattern

inductive NoEmptyChoice : Pattern → Prop
  | leaf (slot : Slot) : NoEmptyChoice (leaf slot)
  | required {ps} : (∀ p ∈ ps, NoEmptyChoice p) → NoEmptyChoice (required ps)
  | optional {ps} : (∀ p ∈ ps, NoEmptyChoice p) → NoEmptyChoice (optional ps)
  | either {ps} : ps ≠ [] → (∀ p ∈ ps, NoEmptyChoice p) → NoEmptyChoice (either ps)
  | oneOrMore {p} : NoEmptyChoice p → NoEmptyChoice (oneOrMore p)
  | shortcut : NoEmptyChoice shortcut

variable {p : Pattern} {ps : List Pattern} {key : SlotKey} {options : Registry}

theorem exists_way_of_all (h : ∀ p ∈ ps, ∃ way ∈ p.ways, way.count key = p.passes key) :
    ∃ way ∈ waysAll ps, way.count key = passesAll key ps := by
  induction ps with
  | nil => exact ⟨[], List.mem_singleton_self _, rfl⟩
  | cons p ps ih =>
    obtain ⟨head, tail⟩ := List.forall_mem_cons.1 h
    obtain ⟨first, hfirst, hcount⟩ := head
    obtain ⟨rest, hrest, hcount'⟩ := ih tail
    refine ⟨first ++ rest, ?_, ?_⟩
    · rw [waysAll]
      exact List.mem_flatMap.2 ⟨first, hfirst, List.mem_map_of_mem hrest⟩
    · rw [List.count_append, hcount, hcount', passesAll]

theorem exists_way_of_any (hne : ps ≠ [])
    (h : ∀ p ∈ ps, ∃ way ∈ p.ways, way.count key = p.passes key) :
    ∃ way ∈ waysAny ps, way.count key = passesMost key ps := by
  induction ps with
  | nil => exact absurd rfl hne
  | cons p ps ih =>
    obtain ⟨⟨first, hfirst, hcount⟩, tail⟩ := List.forall_mem_cons.1 h
    rw [waysAny, passesMost]
    by_cases hle : passesMost key ps ≤ p.passes key
    · exact ⟨first, List.mem_append_left _ hfirst, by rw [hcount, Nat.max_eq_left hle]⟩
    · have hne' : ps ≠ [] := by
        rintro rfl
        exact hle (Nat.zero_le _)
      obtain ⟨way, hway, hcount'⟩ := ih hne' tail
      refine ⟨way, List.mem_append_right _ hway, ?_⟩
      rw [hcount', Nat.max_eq_right (Nat.le_of_not_le hle)]

/-- Some way through the tree passes a slot as often as `passes` allows. -/
theorem NoEmptyChoice.exists_way (h : p.NoEmptyChoice) (key : SlotKey) :
    ∃ way ∈ p.ways, way.count key = p.passes key := by
  induction h with
  | leaf slot =>
    refine ⟨[slot.key], List.mem_singleton_self _, ?_⟩
    simp [passes, List.count_singleton]
  | required _ ih => exact exists_way_of_all ih
  | optional _ ih => exact exists_way_of_all ih
  | either hne _ ih => exact exists_way_of_any hne ih
  | oneOrMore _ ih =>
    obtain ⟨way, hway, hcount⟩ := ih
    refine ⟨way ++ way, ?_, ?_⟩
    · rw [ways]
      exact List.mem_flatMap.2 ⟨way, hway, List.mem_map_of_mem hway⟩
    · rw [List.count_append, hcount, passes, Nat.two_mul]
  | shortcut => exact ⟨[], List.mem_singleton_self _, rfl⟩

theorem mem_waysAll_cons {way : List SlotKey} :
    way ∈ waysAll (p :: ps) ↔ ∃ first ∈ p.ways, ∃ rest ∈ waysAll ps, first ++ rest = way := by
  simp only [waysAll, List.mem_flatMap, List.mem_map]

theorem count_le_passesAll (h : ∀ p ∈ ps, ∀ way ∈ p.ways, way.count key ≤ p.passes key) :
    ∀ way ∈ waysAll ps, way.count key ≤ passesAll key ps := by
  induction ps with
  | nil =>
    intro way hway
    obtain rfl := List.mem_singleton.1 hway
    exact Nat.le_refl 0
  | cons p ps ih =>
    obtain ⟨head, tail⟩ := List.forall_mem_cons.1 h
    intro way hway
    obtain ⟨first, hfirst, rest, hrest, rfl⟩ := mem_waysAll_cons.1 hway
    rw [List.count_append, passesAll]
    exact Nat.add_le_add (head first hfirst) (ih tail rest hrest)

theorem count_le_passes (p : Pattern) : ∀ way ∈ p.ways, way.count key ≤ p.passes key := by
  induction p with
  | leaf slot =>
    intro way hway
    obtain rfl := List.mem_singleton.1 hway
    simp [passes, List.count_singleton]
  | required ps ih => exact count_le_passesAll ih
  | optional ps ih => exact count_le_passesAll ih
  | either ps ih =>
    intro way hway
    rw [ways, waysAny_eq_flatMap] at hway
    obtain ⟨p, hp, hway⟩ := List.mem_flatMap.1 hway
    exact Nat.le_trans (ih p hp way hway) (passes_le_passesMost hp)
  | oneOrMore p ih =>
    intro way hway
    rw [ways] at hway
    obtain ⟨first, hfirst, hway⟩ := List.mem_flatMap.1 hway
    obtain ⟨second, hsecond, rfl⟩ := List.mem_map.1 hway
    rw [List.count_append, passes, Nat.two_mul]
    exact Nat.add_le_add (ih first hfirst) (ih second hsecond)
  | shortcut =>
    intro way hway
    obtain rfl := List.mem_singleton.1 hway
    exact Nat.le_refl 0

theorem mem_repeated_iff : key ∈ p.repeated ↔ ∃ way ∈ p.ways, 1 < way.count key := by
  unfold repeated
  rw [List.mem_eraseDups, List.mem_flatMap]
  constructor
  · rintro ⟨way, hway, hkey⟩
    exact ⟨way, hway, of_decide_eq_true (List.mem_filter.1 hkey).2⟩
  · rintro ⟨way, hway, hcount⟩
    have hmem : key ∈ way := List.count_pos_iff.1 (Nat.lt_of_succ_lt hcount)
    exact ⟨way, hway, List.mem_filter.2 ⟨hmem, decide_eq_true hcount⟩⟩

theorem NoEmptyChoice.mem_repeated_iff_passes (h : p.NoEmptyChoice) :
    key ∈ p.repeated ↔ 1 < p.passes key := by
  rw [mem_repeated_iff]
  constructor
  · rintro ⟨way, hway, hcount⟩
    exact Nat.lt_of_lt_of_le hcount (p.count_le_passes way hway)
  · intro hpasses
    obtain ⟨way, hway, hcount⟩ := h.exists_way key
    exact ⟨way, hway, hcount ▸ hpasses⟩

theorem NoEmptyChoice.passes_le_one (h : p.NoEmptyChoice) (hkey : key ∉ p.repeated) :
    p.passes key ≤ 1 :=
  Nat.le_of_not_lt fun hlt => hkey (h.mem_repeated_iff_passes.2 hlt)

theorem waysAll_mapSlotsAll {f : Slot → Slot} (h : ∀ p ∈ ps, (p.mapSlots f).ways = p.ways) :
    waysAll (mapSlotsAll f ps) = waysAll ps := by
  induction ps with
  | nil => rfl
  | cons p ps ih =>
    obtain ⟨head, tail⟩ := List.forall_mem_cons.1 h
    rw [mapSlotsAll, waysAll, waysAll, head, ih tail]

theorem waysAny_mapSlotsAll {f : Slot → Slot} (h : ∀ p ∈ ps, (p.mapSlots f).ways = p.ways) :
    waysAny (mapSlotsAll f ps) = waysAny ps := by
  induction ps with
  | nil => rfl
  | cons p ps ih =>
    obtain ⟨head, tail⟩ := List.forall_mem_cons.1 h
    rw [mapSlotsAll, waysAny, waysAny, head, ih tail]

theorem ways_mapSlots {f : Slot → Slot} (hf : ∀ slot, (f slot).key = slot.key) (p : Pattern) :
    (p.mapSlots f).ways = p.ways := by
  induction p with
  | leaf slot => rw [mapSlots, ways, ways, hf]
  | required ps ih => exact waysAll_mapSlotsAll ih
  | optional ps ih => exact waysAll_mapSlotsAll ih
  | either ps ih => exact waysAny_mapSlotsAll ih
  | oneOrMore p ih => rw [mapSlots, ways, ways, ih]
  | shortcut => rfl

theorem passesAll_mapSlotsAll {f : Slot → Slot}
    (h : ∀ p ∈ ps, (p.mapSlots f).passes key = p.passes key) :
    passesAll key (mapSlotsAll f ps) = passesAll key ps := by
  induction ps with
  | nil => rfl
  | cons p ps ih =>
    obtain ⟨head, tail⟩ := List.forall_mem_cons.1 h
    rw [mapSlotsAll, passesAll, passesAll, head, ih tail]

theorem passesMost_mapSlotsAll {f : Slot → Slot}
    (h : ∀ p ∈ ps, (p.mapSlots f).passes key = p.passes key) :
    passesMost key (mapSlotsAll f ps) = passesMost key ps := by
  induction ps with
  | nil => rfl
  | cons p ps ih =>
    obtain ⟨head, tail⟩ := List.forall_mem_cons.1 h
    rw [mapSlotsAll, passesMost, passesMost, head, ih tail]

theorem passes_mapSlots {f : Slot → Slot} (hf : ∀ slot, (f slot).key = slot.key) (p : Pattern) :
    (p.mapSlots f).passes key = p.passes key := by
  induction p with
  | leaf slot => rw [mapSlots, passes, passes, hf]
  | required ps ih => exact passesAll_mapSlotsAll ih
  | optional ps ih => exact passesAll_mapSlotsAll ih
  | either ps ih => exact passesMost_mapSlotsAll ih
  | oneOrMore p ih => rw [mapSlots, passes, passes, ih]
  | shortcut => rfl

theorem NoEmptyChoice.mapSlots (h : p.NoEmptyChoice) (f : Slot → Slot) :
    (p.mapSlots f).NoEmptyChoice := by
  have all {ps : List Pattern} (ih : ∀ p ∈ ps, (p.mapSlots f).NoEmptyChoice) :
      ∀ q ∈ mapSlotsAll f ps, q.NoEmptyChoice := by
    rw [mapSlotsAll_eq_map]
    exact List.forall_mem_map.2 ih
  induction h with
  | leaf slot => exact .leaf _
  | required _ ih => exact .required (all ih)
  | optional _ ih => exact .optional (all ih)
  | @either ps hne _ ih =>
    refine .either ?_ (all ih)
    rw [mapSlotsAll_eq_map]
    exact fun hnil => hne (List.map_eq_nil_iff.1 hnil)
  | oneOrMore _ ih => exact .oneOrMore ih
  | shortcut => exact .shortcut

def identified (options : Registry) (p : Pattern) : Pattern :=
  p.mapSlots (·.canonical options)

end Pattern

namespace Slot

def marked (repeated : List SlotKey) (slot : Slot) : Slot :=
  if repeated.contains slot.key then slot.repeatable else slot

@[simp]
theorem key_marked (repeated : List SlotKey) (slot : Slot) :
    (slot.marked repeated).key = slot.key := by
  unfold marked
  by_cases h : repeated.contains slot.key = true
  · rw [if_pos h]
    cases slot <;> rfl
  · rw [if_neg h]

end Slot

theorem Value.asList_asList (v : Value) : v.asList.asList = v.asList := by
  cases v <;> rfl

theorem OptionSpec.repeatable_repeatable (o : OptionSpec) :
    o.repeatable.repeatable = o.repeatable := by
  have hvalued : o.repeatable.takesValue = o.takesValue := rfl
  rw [repeatable, hvalued, repeatable]
  by_cases h : o.takesValue = true
  · simp only [if_pos h, Value.asList_asList]
  · simp only [if_neg h]

namespace Registry

variable {r : Registry} {id : OptionId}

theorem size_setRepeatable (r : Registry) (repeated : List SlotKey) :
    (r.setRepeatable repeated).size = r.size := by
  unfold setRepeatable
  induction repeated generalizing r with
  | nil => rfl
  | cons key repeated ih =>
    rw [List.foldl_cons, ih]
    cases key with
    | option id => exact size_setValue r id _
    | argument name => rfl
    | command name => rfl

theorem documented_setRepeatable (r : Registry) (repeated : List SlotKey) :
    (r.setRepeatable repeated).documented = r.documented := by
  unfold setRepeatable
  induction repeated generalizing r with
  | nil => rfl
  | cons key repeated ih =>
    rw [List.foldl_cons, ih]
    cases key <;> rfl

theorem spec_setRepeatable (hid : id < r.size) (repeated : List SlotKey) :
    (r.setRepeatable repeated).spec id =
      if repeated.contains (.option id) then (r.spec id).repeatable else r.spec id := by
  unfold setRepeatable
  induction repeated generalizing r with
  | nil => rfl
  | cons key repeated ih =>
    have hother (hne : SlotKey.option id ≠ key) :
        (key :: repeated).contains (.option id) = repeated.contains (.option id) := by
      rw [List.contains_cons, beq_eq_false_iff_ne.2 hne, Bool.false_or]
    rw [List.foldl_cons]
    cases key with
    | argument name => rw [ih hid, hother nofun]
    | command name => rw [ih hid, hother nofun]
    | option k =>
      dsimp only
      rw [ih (by rwa [size_setValue])]
      by_cases hk : id = k
      · subst hk
        have hset : (r.setValue id (r.spec id).repeatable.value).spec id =
            (r.spec id).repeatable := spec_setValue_self hid _
        rw [hset, OptionSpec.repeatable_repeatable, ite_self, if_pos (by simp)]
      · rw [spec_setValue_of_ne r hk, hother fun h => hk (SlotKey.option.inj h)]

theorem setRepeatable_setRepeatable (r : Registry) (repeated : List SlotKey) :
    (r.setRepeatable repeated).setRepeatable repeated = r.setRepeatable repeated := by
  refine ext_spec (size_setRepeatable _ _) (documented_setRepeatable _ _) fun id hid => ?_
  rw [size_setRepeatable] at hid
  have hid' : id < r.size := size_setRepeatable r repeated ▸ hid
  rw [spec_setRepeatable hid, spec_setRepeatable hid']
  by_cases h : repeated.contains (.option id) = true
  · rw [if_pos h, if_pos h, OptionSpec.repeatable_repeatable]
  · rw [if_neg h, if_neg h]

end Registry

namespace Pattern

variable {p : Pattern} {key : SlotKey} {options : Registry} {slot : Slot} {id : OptionId}

theorem fix_fst (p : Pattern) (options : Registry) : (p.fix options).1 =
    (p.identified options).mapSlots (·.marked (p.identified options).repeated) := rfl

theorem fix_snd (p : Pattern) (options : Registry) :
    (p.fix options).2 = options.setRepeatable (p.identified options).repeated := rfl

theorem size_fix (p : Pattern) (options : Registry) : (p.fix options).2.size = options.size :=
  Registry.size_setRepeatable _ _

theorem mem_slots_fix : slot ∈ (p.fix options).1.slots ↔
    ∃ old ∈ p.slots, (old.canonical options).marked (p.identified options).repeated = slot := by
  rw [fix_fst, slots_mapSlots, identified, slots_mapSlots, List.map_map, List.mem_map]
  rfl

theorem passes_fix (p : Pattern) (options : Registry) (key : SlotKey) :
    (p.fix options).1.passes key = (p.identified options).passes key := by
  rw [fix_fst]
  exact passes_mapSlots (Slot.key_marked _) _

theorem spec_fix (hid : id < options.size) : (p.fix options).2.spec id =
    if (p.identified options).repeated.contains (.option id) then (options.spec id).repeatable
    else options.spec id := by
  rw [fix_snd, Registry.spec_setRepeatable hid]

theorem names_spec_fix (p : Pattern) (options : Registry) (id : OptionId) :
    ((p.fix options).2.spec id).short = (options.spec id).short ∧
      ((p.fix options).2.spec id).long = (options.spec id).long := by
  by_cases hid : id < options.size
  · rw [spec_fix hid]
    by_cases h : (p.identified options).repeated.contains (.option id) = true
    · rw [if_pos h]
      exact ⟨rfl, rfl⟩
    · rw [if_neg h]
      exact ⟨rfl, rfl⟩
  · have hge : options.size ≤ id := Nat.le_of_not_lt hid
    rw [Registry.spec_of_size_le hge, Registry.spec_of_size_le (by rwa [size_fix])]
    exact ⟨rfl, rfl⟩

/-- Only a repeated option that takes a value has a list. -/
theorem takesValue_of_items (p : Pattern) {l : List String} (hid : id < options.size)
    (hscalar : (options.spec id).value.accumulates = false)
    (hitems : ((p.fix options).2.spec id).value = .items l) :
    (options.spec id).takesValue = true := by
  rw [spec_fix hid] at hitems
  by_cases h : (p.identified options).repeated.contains (.option id) = true
  · rw [if_pos h] at hitems
    by_cases hvalued : (options.spec id).takesValue = true
    · exact hvalued
    · unfold OptionSpec.repeatable at hitems
      simp only [if_neg hvalued] at hitems
      cases hitems
  · rw [if_neg h] at hitems
    rw [hitems] at hscalar
    cases hscalar

theorem sameIdentity_fix (p : Pattern) (options : Registry) (i j : OptionId) :
    (p.fix options).2.sameIdentity i j = options.sameIdentity i j := by
  obtain ⟨hshort, hlong⟩ := names_spec_fix p options i
  obtain ⟨hshort', hlong'⟩ := names_spec_fix p options j
  rw [Bool.eq_iff_iff, Registry.sameIdentity_iff, Registry.sameIdentity_iff, hshort, hlong,
    hshort', hlong']

theorem name_fix (p : Pattern) (options : Registry) (id : OptionId) :
    (p.fix options).2.name id = options.name id := by
  obtain ⟨hshort, hlong⟩ := names_spec_fix p options id
  unfold Registry.name OptionSpec.name
  rw [hshort, hlong]

end Pattern

end Synopsis
