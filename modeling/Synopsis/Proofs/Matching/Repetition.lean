import Synopsis.Proofs.Matching.Frame

/-!
# Where a repetition ends

A round either takes something or leaves the state as it is. So the rounds that a repetition is
given are enough to lead it to a state from which another round takes nothing, and a state of this
kind is not left by any number of rounds.
-/

namespace Synopsis.Matching

variable {options : Registry} {round : State → Option State} {s : State}

def Progressive (round : State → Option State) : Prop :=
  ∀ s t, round s = some t → t = s ∨ t.left.length < s.left.length

def Settled (round : State → Option State) (s : State) : Prop :=
  ∀ t, round s = some t → t = s

theorem progressive_matchPattern? (options : Registry) (p : Pattern) :
    Progressive (matchPattern? options p) := by
  intro s t h
  obtain ⟨ks, htrail, -⟩ := matchPattern?_trail p s t h
  by_cases hlength : t.left.length = s.left.length
  · exact .inl (htrail.eq_of_length_eq hlength)
  · have htotal := htrail.length_eq
    exact .inr (by omega)

theorem repeatWhile_of_settled (h : Settled round s) (rounds : Nat) :
    repeatWhile round rounds s = s := by
  cases rounds with
  | zero => rfl
  | succ rounds =>
    cases hround : round s with
    | none => exact repeatWhile_of_none hround rounds
    | some t =>
      obtain rfl := h t hround
      exact repeatWhile_of_not_lt hround (Nat.lt_irrefl _) rounds

theorem repeatWhile_succ_of_settled {t : State} (hround : round s = some t) (h : Settled round t)
    (rounds : Nat) : repeatWhile round (rounds + 1) s = t := by
  by_cases hlt : t.left.length < s.left.length
  · rw [repeatWhile_of_lt hround hlt, repeatWhile_of_settled h rounds]
  · exact repeatWhile_of_not_lt hround hlt rounds

/-- A repetition ends where nothing more can be taken: every round but the last has taken
something, so there cannot be more of them than there were occurrences. -/
theorem settled_repeatWhile (h : Progressive round) {rounds : Nat}
    (hrounds : s.left.length ≤ rounds) : Settled round (repeatWhile round rounds s) := by
  induction rounds generalizing s with
  | zero =>
    intro t ht
    exact (h s t ht).resolve_right (by omega)
  | succ rounds ih =>
    cases hround : round s with
    | none =>
      rw [repeatWhile_of_none hround]
      intro t ht
      rw [hround] at ht
      cases ht
    | some t =>
      rcases h s t hround with rfl | hlt
      · rw [repeatWhile_of_not_lt hround (Nat.lt_irrefl _)]
        intro u hu
        exact Option.some.inj (hu.symm.trans hround)
      · rw [repeatWhile_of_lt hround hlt]
        exact ih (by omega)

end Synopsis.Matching
