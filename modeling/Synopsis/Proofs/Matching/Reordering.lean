import Synopsis.Proofs.Matching.Simulation
import Synopsis.Proofs.Matching.Trail

/-!
# The order of options does not matter

Two lists are reorderings of one another if one is a permutation of the other and every lane has
the same occurrences in the same order in both. What a slot takes is the first of its lane, so
it takes the same occurrence from both lists, and reorderings remain, although the two places may
differ. So two such lists are matched alike by every tree, with the same result collected.
-/

namespace Synopsis.Matching

variable {options : Registry}

structure Reordered (options : Registry) (l m : List Occurrence) : Prop where
  perm : l.Perm m
  lanes : ∀ lane : Lane, l.filter (lane.has options) = m.filter (lane.has options)

structure Alike (options : Registry) (s t : State) : Prop where
  left : Reordered options s.left t.left
  collected : s.collected = t.collected

theorem Alike.length_eq {s t : State} (h : Alike options s t) : s.left.length = t.left.length :=
  h.left.perm.length_eq

theorem Reordered.takeFirst? {l m : List Occurrence} (h : Reordered options l m) (lane : Lane) :
    Option.Rel (fun a b => a.1 = b.1 ∧ Reordered options a.2 b.2)
      (takeFirst? (lane.has options) l) (takeFirst? (lane.has options) m) := by
  have hlane := h.lanes lane
  cases hl : Matching.takeFirst? (lane.has options) l with
  | none =>
    have hm : Matching.takeFirst? (lane.has options) m = none := by
      rw [takeFirst?_eq_none_iff] at hl ⊢
      exact hlane ▸ hl
    rw [hm]
    exact .none
  | some found =>
    obtain ⟨x, others⟩ := found
    have hfilter := filter_eq_of_takeFirst? hl
    cases hm : Matching.takeFirst? (lane.has options) m with
    | none =>
      rw [takeFirst?_eq_none_iff] at hm
      rw [hlane, hm] at hfilter
      cases hfilter
    | some found' =>
      obtain ⟨y, others'⟩ := found'
      have hfilter' := filter_eq_of_takeFirst? hm
      rw [← hlane, hfilter] at hfilter'
      obtain ⟨rfl, hothers⟩ := List.cons.inj hfilter'
      have hperm := perm_of_takeFirst? hl
      have hperm' := perm_of_takeFirst? hm
      refine .some ⟨rfl, ((hperm.symm.trans h.perm).trans hperm').cons_inv, fun lane' => ?_⟩
      rcases Lane.eq_or_disjoint options lane lane' with heq | hdisjoint
      · rw [← heq]
        exact hothers
      · obtain ⟨front, back, rfl, rfl, hx, -⟩ := takeFirst?_eq_some_iff.1 hl
        obtain ⟨front', back', rfl, rfl, -, -⟩ := takeFirst?_eq_some_iff.1 hm
        have hx' : ¬ lane'.has options x = true := Bool.eq_false_iff.1 (hdisjoint x hx)
        have hlane' := h.lanes lane'
        simpa only [List.filter_append, List.filter_cons_of_neg hx'] using hlane'

/-- No slot can tell reorderings apart. -/
theorem simulation_alike : Simulation options (Alike options) := by
  refine ⟨fun _ _ => Alike.length_eq, fun slot s t h => ?_⟩
  unfold matchSlot?
  rw [bind?_eq, bind?_eq, h.collected]
  have hrel := h.left.takeFirst? slot.lane
  match takeFirst? (slot.lane.has options) s.left, takeFirst? (slot.lane.has options) t.left,
    hrel with
  | none, none, .none => exact .none
  | some (x, others), some (_, others'), .some ⟨rfl, hothers⟩ =>
    by_cases hfits : slot.fits x = true
    · simpa [hfits] using Option.Rel.some ⟨hothers, rfl⟩
    · simp [hfits]

theorem matchPattern?_blind (p : Pattern) : Respects options (Alike options) p :=
  simulation_alike.respects p

/-- Where the options stand between the positionals, and in which order different options are
given, changes neither whether the tree matches nor what is collected. -/
theorem resultOf_reordered {p : Pattern} {l m collected : List Occurrence}
    (h : Reordered options l m) :
    (resultOf options p l collected).matched = (resultOf options p m collected).matched ∧
      (resultOf options p l collected).collected = (resultOf options p m collected).collected ∧
      Reordered options (resultOf options p l collected).left
        (resultOf options p m collected).left ∧
      (resultOf options p l collected).isComplete =
        (resultOf options p m collected).isComplete := by
  have hrel := matchPattern?_blind p ⟨l, collected⟩ ⟨m, collected⟩ ⟨h, rfl⟩
  rw [resultOf_eq, resultOf_eq]
  generalize matchPattern? options p ⟨l, collected⟩ = a,
    matchPattern? options p ⟨m, collected⟩ = b at hrel ⊢
  cases hrel with
  | none => exact ⟨rfl, rfl, h, rfl⟩
  | some hst =>
    refine ⟨rfl, hst.collected, hst.left, ?_⟩
    rw [Bool.eq_iff_iff]
    simp [State.result, Result.success, Result.isComplete, ← List.length_eq_zero_iff,
      hst.length_eq]

/-- Two different options change places, and one of them moves behind a positional. -/
theorem resultOf_reordered_options :
    let options : Registry :=
      { entries := [.ofNames (some "-o") none 1, .ofNames none (some "--all") 0] }
    let tree : Pattern := .required [.argument "X", .oneOrMore (.option 0), .option 1]
    let l := [.option 0 (.text "a"), .option 1 (.flag true), .positional "x", .option 0 (.text "b")]
    let m := [.option 1 (.flag true), .positional "x", .option 0 (.text "a"), .option 0 (.text "b")]
    let r := resultOf options tree l []
    let s := resultOf options tree m []
    Reordered options l m ∧ r.matched = s.matched ∧ r.collected = s.collected ∧
      Reordered options r.left s.left ∧ r.isComplete = s.isComplete := by
  intro options tree l m r s
  have hne : options.sameIdentity 0 1 = false := by decide
  have h : Reordered options l m := by
    refine ⟨by decide, fun lane => ?_⟩
    cases lane with
    | positional => rfl
    | option id =>
      by_cases h0 : options.sameIdentity id 0 = true
      · have h1 : options.sameIdentity id 1 = false := by
          rw [Bool.eq_false_iff]
          intro h1
          rw [options.sameIdentity_comm] at h0
          rw [Registry.sameIdentity_trans h0 h1] at hne
          cases hne
        simp [l, m, Lane.has, Occurrence.isOption, Occurrence.positional, h0, h1]
      · simp [l, m, List.filter_cons, Lane.has, Occurrence.isOption, Occurrence.positional, h0]
  exact ⟨h, resultOf_reordered h⟩

end Synopsis.Matching
