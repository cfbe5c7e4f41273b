import Synopsis.Proofs.Matching.Collection

/-!
# Complete matches of ready trees

A complete match hands every occurrence to one slot of the tree. The takings account for all
lanes, they settle what is collected under every name, and a slot whose value does not accumulate
has taken at most one occurrence.
-/

namespace Synopsis.Matching

variable {options : Registry} {p : Pattern} {arguments collected : List Occurrence}
  {ks : List Taking}

structure Settles (options : Registry) (p : Pattern) (arguments : List Occurrence)
    (ks : List Taking) (collected : List Occurrence) : Prop where
  slots : ∀ k ∈ ks, k.slot ∈ p.slots
  fits : ∀ k ∈ ks, k.Fits options
  given : ∀ k ∈ ks, k.given ∈ arguments
  lanes : ∀ lane : Lane,
    (ks.map Taking.given).filter (lane.has options) = arguments.filter (lane.has options)
  once : ∀ slot ∈ p.slots, (slot.initial options).accumulates = false →
    (history slot ks).length ≤ 1
  values : ∀ slot ∈ p.slots, valuesUnder options (slot.name options) collected =
    gathered (slot.initial options) (history slot ks)
  named : ∀ x ∈ collected, ∃ slot ∈ p.slots, x.name? options = some (slot.name options)

theorem length_history_le_count (slot : Slot) (ks : List Taking) :
    (history slot ks).length ≤ ((ks.map Taking.slot).map Slot.key).count slot.key := by
  induction ks with
  | nil => exact Nat.zero_le _
  | cons k ks ih =>
    unfold history at ih ⊢
    by_cases h : k.slot = slot
    · simp only [h, List.filter_cons_of_pos, decide_true, List.map_cons, List.length_cons,
        List.count_cons_self]
      omega
    · rw [List.filter_cons_of_neg (by simpa using h)]
      have hcount : ((ks.map Taking.slot).map Slot.key).count slot.key ≤
          (((k :: ks).map Taking.slot).map Slot.key).count slot.key := List.count_le_count_cons
      omega

theorem mem_merge {found x : Occurrence} {addition : Value} {xs : List Occurrence}
    (h : x ∈ merge options addition found xs) :
    x.name? options = found.name? options ∨ x ∈ xs := by
  induction xs with
  | nil =>
    rw [merge, List.mem_singleton] at h
    subst h
    exact .inl (Occurrence.name?_withValue found addition)
  | cons y ys ih =>
    rw [merge] at h
    by_cases hy : y.name? options = found.name? options
    · rw [if_pos hy] at h
      rcases List.mem_cons.1 h with rfl | h
      · exact .inl ((Occurrence.name?_withValue y _).trans hy)
      · exact .inr (List.mem_cons_of_mem _ h)
    · rw [if_neg hy] at h
      rcases List.mem_cons.1 h with rfl | h
      · exact .inr List.mem_cons_self
      · exact (ih h).imp_right (List.mem_cons_of_mem _)

theorem mem_collect {k : Taking} {x : Occurrence} {xs : List Occurrence}
    (h : x ∈ k.collect options xs) :
    x.name? options = some (k.slot.name options) ∨ x ∈ xs := by
  rw [← Slot.name?_bound options k.slot k.given]
  unfold Taking.collect collect at h
  split at h
  · exact mem_merge h
  · exact mem_merge h
  · rcases List.mem_append.1 h with h | h
    · exact .inr h
    · exact .inl (List.mem_singleton.1 h ▸ rfl)

theorem named_collectAll (hslots : ∀ k ∈ ks, k.slot ∈ p.slots) :
    ∀ x ∈ ks.foldl (Taking.collect options) [],
      ∃ slot ∈ p.slots, x.name? options = some (slot.name options) := by
  induction ks using List.reverseRecOn with
  | nil => exact fun x hx => absurd hx List.not_mem_nil
  | append_singleton ks k ih =>
    obtain ⟨hslots, hk⟩ := List.forall_mem_append.1 hslots
    intro x hx
    rw [List.foldl_append, List.foldl_cons, List.foldl_nil] at hx
    rcases mem_collect hx with hname | hx
    · exact ⟨k.slot, hk k (List.mem_singleton_self k), hname⟩
    · exact ih hslots x hx

theorem exists_settles (hready : p.Ready options)
    (hcomplete : (run options p arguments).isComplete = true) :
    ∃ ks, Settles options p arguments ks (run options p arguments).collected := by
  unfold run at hcomplete ⊢
  cases hm : matchPattern? options p ⟨arguments, []⟩ with
  | none =>
    rw [resultOf_of_none hm] at hcomplete
    cases hcomplete
  | some t =>
    rw [resultOf_of_some hm] at hcomplete ⊢
    obtain ⟨ks, htrail, hwalk⟩ := matchPattern?_trail p _ t hm
    have hleft : t.left = [] := by simpa [Result.isComplete] using hcomplete
    have hslots : ∀ k ∈ ks, k.slot ∈ p.slots := fun k hk =>
      hwalk.subset_slots (List.mem_map_of_mem hk)
    have honce : ∀ slot ∈ p.slots, (slot.initial options).accumulates = false →
        (history slot ks).length ≤ 1 := by
      intro slot hslot hscalar
      have hpasses := hready.once slot hslot hscalar
      calc (history slot ks).length
          ≤ ((ks.map Taking.slot).map Slot.key).count slot.key := length_history_le_count slot ks
        _ ≤ p.passes slot.key := hwalk.count_le hpasses
        _ ≤ 1 := hpasses
    have hcollected : t.collected = ks.foldl (Taking.collect options) [] := htrail.collected
    refine ⟨ks, hslots, htrail.fits, htrail.given_mem, fun lane => ?_, honce, ?_, ?_⟩
    · have hlane := htrail.lane lane
      rw [hleft, List.filter_nil, List.append_nil] at hlane
      exact hlane.symm
    · simp only [hcollected]
      exact valuesUnder_collectAll hready hslots honce
    · simp only [hcollected]
      exact named_collectAll hslots

end Synopsis.Matching
