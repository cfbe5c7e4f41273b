import Synopsis.Pattern.Shortcut
import Synopsis.Proofs.Pattern.Readiness

/-!
# Expanding the shortcut

The shortcut becomes a group of documented options, so a well-formed tree stays well formed. What
the arguments add to the registry is not documented and has no name that was there before: the
expanded tree does not depend on it.
-/

namespace Synopsis.Pattern

variable {phase : Phase} {r s : Registry} {p : Pattern} {ps : List Pattern} {id : OptionId}
  {ids named found : List OptionId}

def addUnnamed (options : Registry) (named found : List OptionId) (id : OptionId) :
    List OptionId :=
  let id := options.canonical id
  if (named ++ found).any (options.sameIdentity · id) then found else found ++ [id]

theorem unnamed_eq_foldl (options : Registry) (named : List OptionId) :
    unnamed options named = options.documentedIds.foldl (addUnnamed options named) [] := rfl

theorem lt_of_mem_addUnnamed (hfound : ∀ i ∈ found, i < r.size) (hid : id < r.size) :
    ∀ i ∈ addUnnamed r named found id, i < r.size := by
  unfold addUnnamed
  by_cases hnamed : (named ++ found).any (r.sameIdentity · (r.canonical id)) = true
  · rw [if_pos hnamed]
    exact hfound
  · rw [if_neg hnamed]
    refine List.forall_mem_append.2 ⟨hfound, fun i hi => ?_⟩
    rw [List.mem_singleton.1 hi]
    exact (Registry.canonical_spec hid).1

theorem addUnnamed_grows (h : r.Grows phase s) (hnamed : ∀ i ∈ named, i < r.size)
    (hfound : ∀ i ∈ found, i < r.size) (hid : id < r.size) :
    addUnnamed s named found id = addUnnamed r named found id := by
  have hcanonical : r.canonical id < r.size := (Registry.canonical_spec hid).1
  have hany : (named ++ found).any (s.sameIdentity · (r.canonical id)) =
      (named ++ found).any (r.sameIdentity · (r.canonical id)) := by
    rw [Bool.eq_iff_iff, List.any_eq_true, List.any_eq_true]
    refine exists_congr fun i => and_congr_right fun hi => ?_
    rw [h.sameIdentity_eq (List.forall_mem_append.2 ⟨hnamed, hfound⟩ i hi) hcanonical]
  unfold addUnnamed
  rw [h.canonical_eq hid]
  simp only [hany]

theorem lt_of_mem_foldl_addUnnamed (hfound : ∀ i ∈ found, i < r.size)
    (hids : ∀ i ∈ ids, i < r.size) : ∀ i ∈ ids.foldl (addUnnamed r named) found, i < r.size :=
  List.foldlRecOn (motive := fun found => ∀ i ∈ found, i < r.size) ids _ hfound
    fun _ hfound id hid => lt_of_mem_addUnnamed hfound (hids id hid)

theorem foldl_addUnnamed_grows (h : r.Grows phase s) (hnamed : ∀ i ∈ named, i < r.size)
    (hfound : ∀ i ∈ found, i < r.size) (hids : ∀ i ∈ ids, i < r.size) :
    ids.foldl (addUnnamed s named) found = ids.foldl (addUnnamed r named) found := by
  induction ids generalizing found with
  | nil => rfl
  | cons id ids ih =>
    obtain ⟨hid, hids⟩ := List.forall_mem_cons.1 hids
    rw [List.foldl_cons, List.foldl_cons, addUnnamed_grows h hnamed hfound hid]
    exact ih (lt_of_mem_addUnnamed hfound hid) hids

theorem lt_of_mem_documentedIds : ∀ i ∈ r.documentedIds, i < r.size :=
  fun _ hi => Registry.lt_of_lt_documented (List.mem_range.1 hi)

theorem lt_of_mem_unnamed : ∀ i ∈ unnamed r named, i < r.size :=
  lt_of_mem_foldl_addUnnamed (by simp) lt_of_mem_documentedIds

theorem WellFormed.lt_of_mem_optionIds (h : p.WellFormed r) : ∀ i ∈ p.optionIds, i < r.size := by
  intro i hi
  rw [optionIds, List.mem_eraseDups, List.mem_filterMap] at hi
  obtain ⟨slot, hslot, hoption⟩ := hi
  cases slot with
  | argument name v => cases hoption
  | command name v => cases hoption
  | option j =>
    obtain rfl := Option.some.inj hoption
    exact h.slots _ hslot

theorem WellFormed.replaceShortcut {group : Pattern} (hgroup : group.WellFormed r)
    (h : p.WellFormed r) : (Pattern.replaceShortcut group p).WellFormed r := by
  obtain ⟨hslots, hchoices⟩ := h
  have all {ps : List Pattern} (hslots : ∀ slot ∈ slotsAll ps, slot.IsUnset r)
      (ih : ∀ p ∈ ps, (∀ slot ∈ p.slots, slot.IsUnset r) →
        (Pattern.replaceShortcut group p).WellFormed r) :
      ∀ q ∈ replaceShortcutAll group ps, q.WellFormed r := by
    rw [replaceShortcutAll_eq_map]
    refine List.forall_mem_map.2 fun p hp => ih p hp fun slot hslot => hslots slot ?_
    rw [slotsAll_eq_flatMap]
    exact List.mem_flatMap.2 ⟨p, hp, hslot⟩
  induction hchoices with
  | leaf slot => exact .leaf (hslots slot (List.mem_singleton_self slot))
  | required _ ih => exact .required (all hslots ih)
  | optional _ ih => exact .optional (all hslots ih)
  | @either ps hne _ ih =>
    refine .either ?_ (all hslots ih)
    rw [replaceShortcutAll_eq_map]
    exact fun hnil => hne (List.map_eq_nil_iff.1 hnil)
  | oneOrMore _ ih => exact .oneOrMore (ih hslots)
  | shortcut => exact hgroup

theorem WellFormed.expandShortcut (h : p.WellFormed r) : (p.expandShortcut r).WellFormed r := by
  unfold Pattern.expandShortcut
  by_cases hshortcut : p.hasShortcut = true
  · rw [if_pos hshortcut]
    refine .replaceShortcut (.optional (List.forall_mem_map.2 fun i hi => ?_)) h
    exact .leaf (lt_of_mem_unnamed i hi)
  · rw [if_neg hshortcut]
    exact h

theorem WellFormed.expandShortcut_grows (h : p.WellFormed r) (hgrows : r.Grows phase s) :
    p.expandShortcut s = p.expandShortcut r := by
  have hunnamed : unnamed s p.optionIds = unnamed r p.optionIds := by
    rw [unnamed_eq_foldl, unnamed_eq_foldl, hgrows.documentedIds_eq]
    exact foldl_addUnnamed_grows hgrows h.lt_of_mem_optionIds (by simp) lt_of_mem_documentedIds
  unfold Pattern.expandShortcut
  rw [hunnamed]

end Synopsis.Pattern
