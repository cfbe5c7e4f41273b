import Synopsis.Proofs.Matching.Success

/-!
# Two runs side by side

A relation between states in which every slot takes from both states or from neither, with related
results, is kept by every tree. Branches only look at whether a child matched and, in choices and
repetitions, at how much is left, so related states must have the same number of occurrences left.
-/

namespace Synopsis.Matching

variable {options : Registry} {R : State → State → Prop}

structure Simulation (options : Registry) (R : State → State → Prop) : Prop where
  length_eq : ∀ s t, R s t → s.left.length = t.left.length
  slot : ∀ slot s t, R s t →
    Option.Rel R (matchSlot? options slot s) (matchSlot? options slot t)

/-- From related states the pattern goes to related states, or it fails from both. -/
def Respects (options : Registry) (R : State → State → Prop) (p : Pattern) : Prop :=
  ∀ s t, R s t → Option.Rel R (matchPattern? options p s) (matchPattern? options p t)

theorem Respects.required {ps : List Pattern} (ih : ∀ p ∈ ps, Respects options R p) :
    Respects options R (.required ps) := by
  intro s t hst
  change Option.Rel R (matchAll? options ps s) (matchAll? options ps t)
  induction ps generalizing s t with
  | nil => exact .some hst
  | cons p ps ihps =>
    obtain ⟨hp, hps⟩ := List.forall_mem_cons.1 ih
    have hrel := hp s t hst
    rw [matchAll?, matchAll?]
    generalize matchPattern? options p s = a, matchPattern? options p t = b at hrel ⊢
    cases hrel with
    | none => exact .none
    | some hst' => exact ihps hps _ _ hst'

theorem Respects.optional {ps : List Pattern} (ih : ∀ p ∈ ps, Respects options R p) :
    Respects options R (.optional ps) := by
  intro s t hst
  refine .some ?_
  induction ps generalizing s t with
  | nil => exact hst
  | cons p ps ihps =>
    obtain ⟨hp, hps⟩ := List.forall_mem_cons.1 ih
    have hrel := hp s t hst
    rw [matchAny, matchAny]
    generalize matchPattern? options p s = a, matchPattern? options p t = b at hrel ⊢
    cases hrel with
    | none => exact ihps hps s t hst
    | some hst' => exact ihps hps _ _ hst'

namespace Simulation

/-- The choice between two outcomes goes by lengths, which related states share. -/
theorem better (h : Simulation options R) {a b c d : Option State} (hab : Option.Rel R a b)
    (hcd : Option.Rel R c d) : Option.Rel R (better a c) (better b d) := by
  match a, b, hab, c, d, hcd with
  | none, none, .none, _, _, hcd => exact hcd
  | some s, some t, .some hst, none, none, .none => exact .some hst
  | some s, some t, .some hst, some s', some t', .some hst' =>
    rw [Matching.better, Matching.better, h.length_eq s t hst, h.length_eq s' t' hst']
    by_cases hlt : t'.left.length < t.left.length
    · rw [if_pos hlt, if_pos hlt]
      exact .some hst'
    · rw [if_neg hlt, if_neg hlt]
      exact .some hst

theorem either (h : Simulation options R) {ps : List Pattern}
    (ih : ∀ p ∈ ps, Respects options R p) : Respects options R (.either ps) := by
  intro s t hst
  change Option.Rel R (matchBest? options ps s) (matchBest? options ps t)
  induction ps with
  | nil => exact .none
  | cons p ps ihps =>
    obtain ⟨hp, hps⟩ := List.forall_mem_cons.1 ih
    exact h.better (hp s t hst) (ihps hps)

theorem repeatWhile (h : Simulation options R) {p : Pattern} (ih : Respects options R p)
    (rounds : Nat) {s t : State} (hst : R s t) :
    R (repeatWhile (matchPattern? options p) rounds s)
      (repeatWhile (matchPattern? options p) rounds t) := by
  induction rounds generalizing s t with
  | zero => exact hst
  | succ rounds ihrounds =>
    have hrel := ih s t hst
    generalize hs : matchPattern? options p s = a, ht : matchPattern? options p t = b at hrel
    cases hrel with
    | none =>
      rw [repeatWhile_of_none hs, repeatWhile_of_none ht]
      exact hst
    | @some s' t' hst' =>
      by_cases hlt : t'.left.length < t.left.length
      · have hlt' : s'.left.length < s.left.length := by
          rwa [h.length_eq s t hst, h.length_eq s' t' hst']
        rw [repeatWhile_of_lt hs hlt', repeatWhile_of_lt ht hlt]
        exact ihrounds hst'
      · have hlt' : ¬ s'.left.length < s.left.length := by
          rwa [h.length_eq s t hst, h.length_eq s' t' hst']
        rw [repeatWhile_of_not_lt hs hlt', repeatWhile_of_not_lt ht hlt]
        exact hst'

theorem respects (h : Simulation options R) (p : Pattern) : Respects options R p := by
  induction p with
  | leaf slot => exact h.slot slot
  | required ps ih => exact .required ih
  | optional ps ih => exact .optional ih
  | either ps ih => exact h.either ih
  | oneOrMore p ih =>
    intro s t hst
    change Option.Rel R (some _) (some _)
    rw [h.length_eq s t hst]
    exact .some (h.repeatWhile ih (t.left.length + 1) hst)
  | shortcut => exact fun s t hst => .some hst

end Simulation

end Synopsis.Matching
