import Synopsis.Proofs.Matching.Simulation
import Synopsis.Proofs.Matching.Trail

/-!
# What a match leaves alone

A match takes occurrences off the list without moving the others, positionals from the front. It
adds to what was collected before: the old entries stay in their places under their names, and only
values grow. A match that fails changes nothing, nor does one that takes nothing. What was
collected before has no influence on what is taken.
-/

namespace Synopsis

def Occurrence.label (x : Occurrence) : Occurrence :=
  x.withValue .absent

@[simp]
theorem Occurrence.label_withValue (x : Occurrence) (v : Value) :
    (x.withValue v).label = x.label := by
  cases x <;> rfl

namespace Matching

variable {options : Registry}

theorem labels_merge (addition : Value) (found : Occurrence) (xs : List Occurrence) :
    xs.map Occurrence.label <+: (merge options addition found xs).map Occurrence.label := by
  induction xs with
  | nil => exact List.nil_prefix
  | cons x xs ih =>
    rw [merge]
    by_cases hx : x.name? options = found.name? options
    · rw [if_pos hx]
      simp [Occurrence.label_withValue]
    · rw [if_neg hx]
      exact (List.prefix_cons_inj _).2 ih

theorem labels_collect (k : Taking) (xs : List Occurrence) :
    xs.map Occurrence.label <+: (k.collect options xs).map Occurrence.label := by
  unfold Taking.collect collect
  split
  · exact labels_merge _ _ xs
  · exact labels_merge _ _ xs
  · rw [List.map_append]
    exact List.prefix_append _ _

namespace Trail

variable {ks : List Taking} {s t : State}

theorem labels (h : Trail options ks s t) :
    s.collected.map Occurrence.label <+: t.collected.map Occurrence.label := by
  induction h with
  | nil => exact List.prefix_rfl
  | cons _ _ _ ih => exact (labels_collect _ _).trans ih

theorem sublist (h : Trail options ks s t) : t.left.Sublist s.left := by
  induction h with
  | nil => exact List.Sublist.refl _
  | @cons k front back _ _ _ _ _ _ ih =>
    have htaken : (front ++ back).Sublist (front ++ k.given :: back) :=
      (List.Sublist.refl front).append (List.sublist_cons_self k.given back)
    exact ih.trans htaken

theorem length_eq (h : Trail options ks s t) :
    s.left.length = ks.length + t.left.length := by
  induction h with
  | nil => exact (Nat.zero_add _).symm
  | cons _ _ _ ih =>
    simp only [List.length_append, List.length_cons] at ih ⊢
    omega

/-- Every taking shortens the list, so a trail that shortens nothing is empty. -/
theorem eq_of_length_eq (h : Trail options ks s t) (hlength : t.left.length = s.left.length) :
    t = s := by
  have hks : ks.length = 0 := by
    have htotal := h.length_eq
    omega
  obtain rfl := List.length_eq_zero_iff.1 hks
  cases h
  rfl

end Trail

/-- Nothing of what was collected is looked at when occurrences are taken. -/
theorem simulation_left (options : Registry) :
    Simulation options fun s t => s.left = t.left := by
  refine ⟨fun _ _ => congrArg List.length, fun slot s t h => ?_⟩
  unfold matchSlot?
  rw [h]
  cases bind? options slot t.left with
  | none => exact .none
  | some found => exact .some rfl

/-- How the result of a match relates to the lists it was given. -/
structure Framed (options : Registry) (p : Pattern) (left collected : List Occurrence)
    (r : Result) : Prop where
  failed : r.matched = false → r.left = left ∧ r.collected = collected
  sublist : r.left.Sublist left
  positionals : r.left.filter Occurrence.isArgument <:+ left.filter Occurrence.isArgument
  idle : r.left.length = left.length → r.collected = collected
  labels : collected.map Occurrence.label <+: r.collected.map Occurrence.label
  blind : ∀ other, (resultOf options p left other).matched = r.matched ∧
    (resultOf options p left other).left = r.left

/-- Whatever a tree tries and gives up, its result has this relation to the lists it was given. -/
theorem framed_resultOf (options : Registry) (p : Pattern) (left collected : List Occurrence) :
    Framed options p left collected (resultOf options p left collected) := by
  have blind (other : List Occurrence) :
      (resultOf options p left other).matched = (resultOf options p left collected).matched ∧
        (resultOf options p left other).left = (resultOf options p left collected).left := by
    have hrel := (simulation_left options).respects p ⟨left, other⟩ ⟨left, collected⟩ rfl
    rw [resultOf_eq, resultOf_eq]
    generalize matchPattern? options p ⟨left, other⟩ = a,
      matchPattern? options p ⟨left, collected⟩ = b at hrel ⊢
    cases hrel with
    | none => exact ⟨rfl, rfl⟩
    | some hst => exact ⟨rfl, hst⟩
  cases hm : matchPattern? options p ⟨left, collected⟩ with
  | none =>
    rw [resultOf_of_none hm] at blind ⊢
    exact ⟨fun _ => ⟨rfl, rfl⟩, List.Sublist.refl left, List.suffix_rfl, fun _ => rfl,
      List.prefix_rfl, blind⟩
  | some t =>
    obtain ⟨ks, htrail, -⟩ := matchPattern?_trail p _ t hm
    rw [resultOf_of_some hm] at blind ⊢
    refine ⟨(nomatch ·), htrail.sublist, ?_,
      fun hlength => ?_, htrail.labels, blind⟩
    · have hlane : left.filter Occurrence.isArgument = _ := htrail.lane .positional
      exact ⟨_, hlane.symm⟩
    · rw [htrail.eq_of_length_eq hlength]

end Matching

end Synopsis
