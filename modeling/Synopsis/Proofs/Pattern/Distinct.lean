import Mathlib.Data.List.Induction
import Synopsis.Pattern.Grouping

/-!
# Distinct alternatives

To be alike is an equivalence of trees. The alternatives that are kept are among the given ones, no
two of them are alike, and whatever was left out is alike to one that was kept. So it makes no
difference whether alternatives are made distinct all at once, or some of them on their own before.
-/

namespace Synopsis.Pattern

variable {p q s : Pattern} {ps qs ss : List Pattern}

/-! ### Trees that are alike -/

theorem alikeAll_refl (h : ∀ p ∈ ps, alike p p = true) : alikeAll ps ps = true := by
  induction ps with
  | nil => rfl
  | cons p ps ih =>
    obtain ⟨hp, hps⟩ := List.forall_mem_cons.1 h
    rw [alikeAll, hp, ih hps, Bool.and_self]

theorem alike_refl (p : Pattern) : alike p p = true := by
  induction p with
  | leaf slot => exact beq_self_eq_true slot.key
  | required ps ih => exact alikeAll_refl ih
  | optional ps ih => exact alikeAll_refl ih
  | either ps ih => exact alikeAll_refl ih
  | oneOrMore p ih => exact ih
  | shortcut => rfl

theorem alikeAll_comm (h : ∀ p ∈ ps, ∀ q, alike p q = alike q p) (qs : List Pattern) :
    alikeAll ps qs = alikeAll qs ps := by
  induction ps generalizing qs with
  | nil => cases qs <;> rfl
  | cons p ps ih =>
    obtain ⟨hp, hps⟩ := List.forall_mem_cons.1 h
    cases qs with
    | nil => rfl
    | cons q qs => rw [alikeAll, alikeAll, hp q, ih hps qs]

theorem alike_comm (p q : Pattern) : alike p q = alike q p := by
  induction p generalizing q with
  | leaf slot =>
    cases q with
    | leaf other => exact Bool.beq_comm
    | _ => rfl
  | required ps ih =>
    cases q with
    | required qs => exact alikeAll_comm ih qs
    | _ => rfl
  | optional ps ih =>
    cases q with
    | optional qs => exact alikeAll_comm ih qs
    | _ => rfl
  | either ps ih =>
    cases q with
    | either qs => exact alikeAll_comm ih qs
    | _ => rfl
  | oneOrMore p ih =>
    cases q with
    | oneOrMore q => exact ih q
    | _ => rfl
  | shortcut => cases q <;> rfl

theorem alikeAll_trans
    (h : ∀ p ∈ ps, ∀ q s, alike p q = true → alike q s = true → alike p s = true)
    (hpq : alikeAll ps qs = true) (hqs : alikeAll qs ss = true) : alikeAll ps ss = true := by
  induction ps generalizing qs ss with
  | nil =>
    cases qs with
    | nil => exact hqs
    | cons q qs => cases hpq
  | cons p ps ih =>
    obtain ⟨hp, hps⟩ := List.forall_mem_cons.1 h
    cases qs with
    | nil => cases hpq
    | cons q qs =>
      cases ss with
      | nil => cases hqs
      | cons s ss =>
        rw [alikeAll, Bool.and_eq_true] at hpq hqs ⊢
        exact ⟨hp q s hpq.1 hqs.1, ih hps hpq.2 hqs.2⟩

theorem alike_trans (hpq : alike p q = true) (hqs : alike q s = true) : alike p s = true := by
  induction p generalizing q s with
  | leaf slot =>
    cases q with
    | leaf other =>
      cases s with
      | leaf last => exact beq_iff_eq.2 ((beq_iff_eq.1 hpq).trans (beq_iff_eq.1 hqs))
      | _ => cases hqs
    | _ => cases hpq
  | required ps ih =>
    cases q with
    | required qs =>
      cases s with
      | required ss => exact alikeAll_trans (fun p hp _ _ => ih p hp) hpq hqs
      | _ => cases hqs
    | _ => cases hpq
  | optional ps ih =>
    cases q with
    | optional qs =>
      cases s with
      | optional ss => exact alikeAll_trans (fun p hp _ _ => ih p hp) hpq hqs
      | _ => cases hqs
    | _ => cases hpq
  | either ps ih =>
    cases q with
    | either qs =>
      cases s with
      | either ss => exact alikeAll_trans (fun p hp _ _ => ih p hp) hpq hqs
      | _ => cases hqs
    | _ => cases hpq
  | oneOrMore p ih =>
    cases q with
    | oneOrMore q =>
      cases s with
      | oneOrMore s => exact ih hpq hqs
      | _ => cases hqs
    | _ => cases hpq
  | shortcut =>
    cases q with
    | shortcut => exact hqs
    | _ => cases hpq

/-! ### The alternatives that are kept -/

theorem distinct_subset (ps : List Pattern) : distinct ps ⊆ ps := by
  unfold distinct
  apply List.foldlRecOn (motive := fun kept => kept ⊆ ps)
  · exact List.nil_subset ps
  · intro kept hkept p hp
    by_cases halike : kept.any (alike p) = true
    · rw [if_pos halike]
      exact hkept
    · rw [if_neg halike]
      exact List.append_subset.2 ⟨hkept, by simpa using hp⟩

theorem pairwise_distinct (ps : List Pattern) :
    (distinct ps).Pairwise (fun p q => alike p q = false) := by
  unfold distinct
  refine List.foldlRecOn ps _ List.Pairwise.nil fun kept hkept p _ => ?_
  by_cases halike : kept.any (alike p) = true
  · rw [if_pos halike]
    exact hkept
  · rw [if_neg halike]
    refine List.pairwise_append.2 ⟨hkept, List.pairwise_singleton _ p, fun q hq x hx => ?_⟩
    rw [List.mem_singleton.1 hx, alike_comm, Bool.eq_false_iff]
    exact fun hq' => halike (List.any_eq_true.2 ⟨q, hq, hq'⟩)

theorem distinct_concat_of_any (h : (distinct ps).any (alike p) = true) :
    distinct (ps ++ [p]) = distinct ps := by
  unfold distinct at h ⊢
  rw [List.foldl_append, List.foldl_cons, List.foldl_nil, if_pos h]

theorem distinct_concat_of_not_any (h : ¬ (distinct ps).any (alike p) = true) :
    distinct (ps ++ [p]) = distinct ps ++ [p] := by
  unfold distinct at h ⊢
  rw [List.foldl_append, List.foldl_cons, List.foldl_nil, if_neg h]

theorem distinct_of_pairwise (h : ps.Pairwise (fun p q => alike p q = false)) :
    distinct ps = ps := by
  induction ps using List.reverseRecOn with
  | nil => rfl
  | append_singleton ps p ih =>
    obtain ⟨hps, -, hp⟩ := List.pairwise_append.1 h
    have hany : ¬ ps.any (alike p) = true := by
      rw [List.any_eq_true]
      rintro ⟨q, hq, halike⟩
      have hunlike := hp q hq p (List.mem_singleton_self p)
      rw [alike_comm, halike] at hunlike
      cases hunlike
    rw [← ih hps] at hany
    rw [distinct_concat_of_not_any hany, ih hps]

theorem exists_alike_of_mem (hp : p ∈ ps) : ∃ q ∈ distinct ps, alike p q = true := by
  induction ps using List.reverseRecOn with
  | nil => cases hp
  | append_singleton ps last ih =>
    have hlast : ∃ q ∈ distinct (ps ++ [last]), alike last q = true := by
      by_cases hany : (distinct ps).any (alike last) = true
      · rw [distinct_concat_of_any hany]
        exact List.any_eq_true.1 hany
      · rw [distinct_concat_of_not_any hany]
        exact ⟨last, List.mem_append_right _ (List.mem_singleton_self last), alike_refl last⟩
    have hearlier : distinct ps ⊆ distinct (ps ++ [last]) := by
      by_cases hany : (distinct ps).any (alike last) = true
      · rw [distinct_concat_of_any hany]
        exact List.Subset.refl _
      · rw [distinct_concat_of_not_any hany]
        exact List.subset_append_left _ _
    rcases List.mem_append.1 hp with hp | hp
    · obtain ⟨q, hq, halike⟩ := ih hp
      exact ⟨q, hearlier hq, halike⟩
    · rw [List.mem_singleton.1 hp]
      exact hlast

theorem distinct_distinct_append (ps qs : List Pattern) :
    distinct (distinct ps ++ qs) = distinct (ps ++ qs) := by
  have hfixed : distinct (distinct ps) = distinct ps :=
    distinct_of_pairwise (pairwise_distinct ps)
  unfold distinct at hfixed ⊢
  rw [List.foldl_append, List.foldl_append, hfixed]

/-- One that is alike to an earlier one among `qs` is alike to one that is kept of all. -/
theorem distinct_append_distinct (ps qs : List Pattern) :
    distinct (ps ++ distinct qs) = distinct (ps ++ qs) := by
  induction qs using List.reverseRecOn with
  | nil => rfl
  | append_singleton qs q ih =>
    rw [← List.append_assoc]
    by_cases hany : (distinct qs).any (alike q) = true
    · obtain ⟨x, hx, hqx⟩ := List.any_eq_true.1 hany
      obtain ⟨y, hy, hxy⟩ := exists_alike_of_mem (List.mem_append_right ps (distinct_subset qs hx))
      rw [distinct_concat_of_any hany, ih,
        distinct_concat_of_any (List.any_eq_true.2 ⟨y, hy, alike_trans hqx hxy⟩)]
    · rw [distinct_concat_of_not_any hany, ← List.append_assoc]
      by_cases hall : (distinct (ps ++ qs)).any (alike q) = true
      · rw [distinct_concat_of_any hall, distinct_concat_of_any (ih ▸ hall), ih]
      · rw [distinct_concat_of_not_any hall, distinct_concat_of_not_any (ih ▸ hall), ih]

theorem distinct_append_distinct_append (ps qs ss : List Pattern) :
    distinct (ps ++ (distinct qs ++ ss)) = distinct (ps ++ (qs ++ ss)) := by
  rw [← distinct_append_distinct ps, distinct_distinct_append, distinct_append_distinct]

end Synopsis.Pattern
