import Synopsis.Proofs.Matching.Success

/-!
# Complete matches of a choice

The alternative that leaves the fewest occurrences is the one that leaves none, if there is such
an alternative, and of several it is the first. So a choice is complete if one of its alternatives
is complete on its own, and the first of these gives the result.
-/

namespace Synopsis.Matching

variable {options : Registry} {s : State} {p : Pattern} {ps : List Pattern}

/-- The outcome of a match, if it leaves nothing. -/
def whole? (outcome : Option State) : Option State :=
  outcome.filter (·.left.isEmpty)

theorem whole?_eq_some_iff {outcome : Option State} {t : State} :
    whole? outcome = some t ↔ outcome = some t ∧ t.left = [] := by
  rw [whole?, Option.filter_eq_some_iff, List.isEmpty_iff]

theorem whole?_of_nil {t : State} (h : t.left = []) : whole? (some t) = some t :=
  whole?_eq_some_iff.2 ⟨rfl, h⟩

theorem whole?_of_ne_nil {t : State} (h : t.left ≠ []) : whole? (some t) = none := by
  rw [Option.eq_none_iff_forall_not_mem]
  intro u hu
  obtain ⟨htu, hnil⟩ := whole?_eq_some_iff.1 hu
  obtain rfl := Option.some.inj htu
  exact h hnil

theorem whole?_better (a b : Option State) :
    whole? (better a b) = (whole? a).or (whole? b) := by
  cases a with
  | none => rfl
  | some s =>
    cases b with
    | none => exact Option.or_none.symm
    | some t =>
      rw [better]
      by_cases hlt : t.left.length < s.left.length
      · have hs : s.left ≠ [] := List.ne_nil_of_length_pos (Nat.zero_lt_of_lt hlt)
        rw [if_pos hlt, whole?_of_ne_nil hs, Option.none_or]
      · rw [if_neg hlt]
        by_cases hs : s.left = []
        · rw [whole?_of_nil hs, Option.some_or]
        · have ht : t.left ≠ [] := by
            intro hnil
            rw [hnil] at hlt
            exact hlt (List.length_pos_iff.2 hs)
          rw [whole?_of_ne_nil hs, whole?_of_ne_nil ht, Option.or_none]

theorem whole?_matchBest? (ps : List Pattern) (s : State) :
    whole? (matchBest? options ps s) =
      ps.findSome? fun p => whole? (matchPattern? options p s) := by
  induction ps with
  | nil => rfl
  | cons p ps ih =>
    rw [matchBest?, whole?_better, ih, List.findSome?_cons]
    cases whole? (matchPattern? options p s) <;> rfl

theorem matchPattern?_required_either (ps : List Pattern) (s : State) :
    matchPattern? options (.required [.either ps]) s = matchBest? options ps s := by
  change matchAll? options [.either ps] s = _
  rw [matchAll?, matchPattern?]
  cases matchBest? options ps s <;> rfl

theorem isComplete_resultOf (p : Pattern) (left collected : List Occurrence) :
    (resultOf options p left collected).isComplete =
      (whole? (matchPattern? options p ⟨left, collected⟩)).isSome := by
  rw [resultOf_eq]
  cases matchPattern? options p ⟨left, collected⟩ with
  | none => rfl
  | some t =>
    rw [Bool.eq_iff_iff, Option.isSome_iff_exists]
    simp [whole?_eq_some_iff, State.result, Result.success, Result.isComplete]

/-- A choice of alternatives is complete iff one of these is. -/
theorem isComplete_run_either (ps : List Pattern) (arguments : List Occurrence) :
    (run options (.required [.either ps]) arguments).isComplete = true ↔
      ∃ p ∈ ps, (run options p arguments).isComplete = true := by
  simp only [run, isComplete_resultOf, matchPattern?_required_either, whole?_matchBest?,
    List.findSome?_isSome_iff]

theorem run_either_of_first {front back : List Pattern} {arguments : List Occurrence}
    (hfront : ∀ q ∈ front, (run options q arguments).isComplete = false)
    (hp : (run options p arguments).isComplete = true) :
    run options (.required [.either (front ++ p :: back)]) arguments =
      run options p arguments := by
  unfold run at hfront hp ⊢
  rw [isComplete_resultOf, Option.isSome_iff_exists] at hp
  obtain ⟨t, ht⟩ := hp
  have hnone : front.findSome? (fun q => whole? (matchPattern? options q ⟨arguments, []⟩)) =
      none := by
    rw [List.findSome?_eq_none_iff]
    intro q hq
    have hfailed := hfront q hq
    rw [isComplete_resultOf] at hfailed
    exact Option.isNone_iff_eq_none.1 (by simpa using hfailed)
  have hbest : whole? (matchBest? options (front ++ p :: back) ⟨arguments, []⟩) = some t := by
    rw [whole?_matchBest?, List.findSome?_append, hnone, Option.none_or, List.findSome?_cons, ht]
  obtain ⟨hbest, -⟩ := whole?_eq_some_iff.1 hbest
  obtain ⟨ht, -⟩ := whole?_eq_some_iff.1 ht
  rw [resultOf_eq, resultOf_eq, matchPattern?_required_either, hbest, ht]

end Synopsis.Matching
