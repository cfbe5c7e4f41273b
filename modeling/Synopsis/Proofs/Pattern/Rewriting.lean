import Mathlib.Data.List.Forall2
import Mathlib.Logic.Relation
import Synopsis.Proofs.Pattern.Distinct
import Synopsis.Proofs.Pattern.Readiness

/-!
# Rewriting usage trees

The laws say which trees say the same: groups of one kind need not be nested, a group or a choice
of one pattern is this pattern, an alternative need not be repeated, and a repetition need not be
repeated or be made optional. Trees are equivalent if any number of laws, applied at any places and
in either direction, lead from one to the other.

A choice in which alternatives without defaults are wrapped, unwrapped and made distinct is
equivalent to the choice of the sequences as they stand in the usage.
-/

namespace Synopsis

theorem Slot.eq_of_key_eq {options : Registry} {a b : Slot} (ha : a.IsUnset options)
    (hb : b.IsUnset options) (h : a.key = b.key) : a = b := by
  cases a <;> cases b <;> simp_all [key, IsUnset]

namespace Pattern

inductive Law : Pattern → Pattern → Prop
  | required_required (xs ys zs : List Pattern) :
      Law (required (xs ++ required ys :: zs)) (required (xs ++ ys ++ zs))
  | required_one (p : Pattern) : Law (required [p]) p
  | optional_optional (xs ys zs : List Pattern) :
      Law (optional (xs ++ optional ys :: zs)) (optional (xs ++ ys ++ zs))
  | either_either (xs ys zs : List Pattern) :
      Law (either (xs ++ either ys :: zs)) (either (xs ++ ys ++ zs))
  | either_one (p : Pattern) : Law (either [p]) p
  | either_again (xs : List Pattern) (p : Pattern) (ys zs : List Pattern) :
      Law (either (xs ++ p :: ys ++ p :: zs)) (either (xs ++ p :: ys ++ zs))
  | oneOrMore_oneOrMore (p : Pattern) : Law (oneOrMore (oneOrMore p)) (oneOrMore p)
  | oneOrMore_optional (p : Pattern) : Law (oneOrMore (optional [p])) (oneOrMore p)
  | optional_oneOrMore (p : Pattern) : Law (optional [oneOrMore p]) (oneOrMore p)

/-- One law at one place of a tree. -/
inductive Rewrites : Pattern → Pattern → Prop
  | law {p q} : Law p q → Rewrites p q
  | required (xs : List Pattern) {p q} (zs : List Pattern) :
      Rewrites p q → Rewrites (required (xs ++ p :: zs)) (required (xs ++ q :: zs))
  | optional (xs : List Pattern) {p q} (zs : List Pattern) :
      Rewrites p q → Rewrites (optional (xs ++ p :: zs)) (optional (xs ++ q :: zs))
  | either (xs : List Pattern) {p q} (zs : List Pattern) :
      Rewrites p q → Rewrites (either (xs ++ p :: zs)) (either (xs ++ q :: zs))
  | oneOrMore {p q} : Rewrites p q → Rewrites (oneOrMore p) (oneOrMore q)

def Equivalent : Pattern → Pattern → Prop :=
  Relation.EqvGen Rewrites

variable {options : Registry} {p q : Pattern} {ps qs : List Pattern}

namespace Equivalent

theorem refl (p : Pattern) : Equivalent p p :=
  Relation.EqvGen.refl p

theorem symm (h : Equivalent p q) : Equivalent q p :=
  Relation.EqvGen.symm p q h

theorem trans {s : Pattern} (h : Equivalent p q) (h' : Equivalent q s) : Equivalent p s :=
  Relation.EqvGen.trans p q s h h'

theorem of_rewrites (h : Rewrites p q) : Equivalent p q :=
  Relation.EqvGen.rel p q h

theorem law (h : Law p q) : Equivalent p q :=
  of_rewrites (.law h)

theorem map {f : Pattern → Pattern} (hf : ∀ p q, Rewrites p q → Rewrites (f p) (f q))
    (h : Equivalent p q) : Equivalent (f p) (f q) := by
  induction h with
  | rel p q hpq => exact of_rewrites (hf p q hpq)
  | refl p => exact refl _
  | symm p q _ ih => exact ih.symm
  | trans p q s _ _ ih ih' => exact ih.trans ih'

theorem ofBracket (b : Bracket) (h : Equivalent p q) :
    Equivalent (Pattern.ofBracket b [p]) (Pattern.ofBracket b [q]) := by
  cases b with
  | round => exact h.map fun _ _ hpq => .required [] [] hpq
  | square => exact h.map fun _ _ hpq => .optional [] [] hpq

theorem either (h : List.Forall₂ Equivalent ps qs) (xs : List Pattern) :
    Equivalent (.either (xs ++ ps)) (.either (xs ++ qs)) := by
  induction h generalizing xs with
  | nil => exact refl _
  | @cons p q ps qs hpq _ ih =>
    have hhead : Equivalent (.either (xs ++ p :: ps)) (.either (xs ++ q :: ps)) :=
      hpq.map fun _ _ hpq => .either xs ps hpq
    have htail := ih (xs ++ [q])
    rw [List.append_assoc, List.append_assoc] at htail
    exact hhead.trans htail

end Equivalent

theorem equivalent_group (ps : List Pattern) : Equivalent (group ps) (required ps) := by
  unfold group
  split
  · exact .symm (.law (.required_one _))
  · exact .refl _

theorem eq_of_alikeAll
    (h : ∀ p ∈ ps, ∀ q, (∀ slot ∈ q.slots, slot.IsUnset options) → alike p q = true → p = q)
    (hqs : ∀ slot ∈ slotsAll qs, slot.IsUnset options) (halike : alikeAll ps qs = true) :
    ps = qs := by
  induction ps generalizing qs with
  | nil =>
    cases qs with
    | nil => rfl
    | cons q qs => cases halike
  | cons p ps ih =>
    cases qs with
    | nil => cases halike
    | cons q qs =>
      obtain ⟨hp, hps⟩ := List.forall_mem_cons.1 h
      obtain ⟨hq, hqs⟩ := List.forall_mem_append.1 hqs
      rw [alikeAll, Bool.and_eq_true] at halike
      rw [hp q hq halike.1, ih hps hqs halike.2]

theorem eq_of_alike (hp : ∀ slot ∈ p.slots, slot.IsUnset options)
    (hq : ∀ slot ∈ q.slots, slot.IsUnset options) (h : alike p q = true) : p = q := by
  have all {ps : List Pattern} (hps : ∀ slot ∈ slotsAll ps, slot.IsUnset options)
      (ih : ∀ p ∈ ps, ∀ q, (∀ slot ∈ p.slots, slot.IsUnset options) →
        (∀ slot ∈ q.slots, slot.IsUnset options) → alike p q = true → p = q) :
      ∀ p ∈ ps, ∀ q, (∀ slot ∈ q.slots, slot.IsUnset options) → alike p q = true → p = q := by
    rw [slotsAll_eq_flatMap, List.forall_mem_flatMap] at hps
    exact fun p hp q hq => ih p hp q (hps p hp) hq
  induction p generalizing q with
  | leaf slot =>
    cases q with
    | leaf other =>
      have hslot := hp slot (List.mem_singleton_self slot)
      have hother := hq other (List.mem_singleton_self other)
      exact congrArg Pattern.leaf (Slot.eq_of_key_eq hslot hother (beq_iff_eq.1 h))
    | _ => cases h
  | required ps ih =>
    cases q with
    | required qs =>
      exact congrArg required (eq_of_alikeAll (all hp fun p hp _ => ih p hp) hq h)
    | _ => cases h
  | optional ps ih =>
    cases q with
    | optional qs =>
      exact congrArg optional (eq_of_alikeAll (all hp fun p hp _ => ih p hp) hq h)
    | _ => cases h
  | either ps ih =>
    cases q with
    | either qs =>
      exact congrArg either (eq_of_alikeAll (all hp fun p hp _ => ih p hp) hq h)
    | _ => cases h
  | oneOrMore p ih =>
    cases q with
    | oneOrMore q => exact congrArg oneOrMore (ih hp hq h)
    | _ => cases h
  | shortcut =>
    cases q with
    | shortcut => rfl
    | _ => cases h

/-- Alternatives that are alike to earlier ones can be left out. -/
theorem equivalent_distinct (h : ∀ p ∈ ps, ∀ slot ∈ p.slots, slot.IsUnset options) :
    Equivalent (either (distinct ps)) (either ps) := by
  induction ps using List.reverseRecOn with
  | nil => exact .refl _
  | append_singleton ps p ih =>
    obtain ⟨hps, hp⟩ := List.forall_mem_append.1 h
    have hunset := hp p (List.mem_singleton_self p)
    have hnested : Equivalent (either (distinct ps ++ [p])) (either (ps ++ [p])) := by
      have hinner : Equivalent (either [either (distinct ps), p]) (either [either ps, p]) :=
        (ih hps).map fun _ _ hpq => .either [] [p] hpq
      exact (Equivalent.symm (.law (.either_either [] _ [p]))).trans
        (hinner.trans (.law (.either_either [] ps [p])))
    by_cases hany : (distinct ps).any (alike p) = true
    · rw [distinct_concat_of_any hany]
      obtain ⟨q, hq, halike⟩ := List.any_eq_true.1 hany
      obtain rfl := eq_of_alike hunset (hps q (distinct_subset ps hq)) halike
      obtain ⟨xs, ys, hsplit⟩ := List.append_of_mem hq
      refine Equivalent.trans ?_ hnested
      rw [hsplit]
      have hagain : Law (either (xs ++ p :: ys ++ [p])) (either (xs ++ p :: ys ++ [])) :=
        .either_again xs p ys []
      rw [List.append_nil] at hagain
      exact .symm (.law hagain)
    · rw [distinct_concat_of_not_any hany]
      exact hnested

theorem isUnset_group (h : ∀ p ∈ ps, ∀ slot ∈ p.slots, slot.IsUnset options) :
    ∀ slot ∈ (group ps).slots, slot.IsUnset options := by
  have hall : ∀ slot ∈ slotsAll ps, slot.IsUnset options := by
    rw [slotsAll_eq_flatMap, List.forall_mem_flatMap]
    exact h
  unfold group
  split
  · exact h _ List.mem_cons_self
  · exact hall

/-- The content of a group says the same as the choice of its sequences, each kept as a group of
its own. -/
theorem equivalent_choice (b : Bracket) {sequences : List (List Pattern)}
    (hne : ∃ ps ∈ sequences, ps ≠ [])
    (h : ∀ ps ∈ sequences, ∀ p ∈ ps, ∀ slot ∈ p.slots, slot.IsUnset options) :
    Equivalent (ofBracket b (choice sequences))
      (ofBracket b [either ((sequences.filter (!·.isEmpty)).map required)]) := by
  have hunset : ∀ p ∈ (sequences.filter (!·.isEmpty)).map group,
      ∀ slot ∈ p.slots, slot.IsUnset options :=
    List.forall_mem_map.2 fun ps hps => isUnset_group (h ps (List.mem_filter.1 hps).1)
  have hwrapped : Equivalent (either ((sequences.filter (!·.isEmpty)).map group))
      (either ((sequences.filter (!·.isEmpty)).map required)) := by
    refine Equivalent.either (List.forall₂_map_left_iff.2 (List.forall₂_map_right_iff.2 ?_)) []
    exact List.forall₂_same.2 fun ps _ => equivalent_group ps
  have hchoice := ((equivalent_distinct hunset).trans hwrapped).ofBracket b
  have hsome : distinct ((sequences.filter (!·.isEmpty)).map group) ≠ [] := by
    obtain ⟨ps, hps, hnil⟩ := hne
    have hkept : ps ∈ sequences.filter (!·.isEmpty) := List.mem_filter.2 ⟨hps, by simpa using hnil⟩
    obtain ⟨q, hq, -⟩ := exists_alike_of_mem (List.mem_map_of_mem (f := group) hkept)
    exact List.ne_nil_of_mem hq
  unfold choice
  generalize distinct ((sequences.filter (!·.isEmpty)).map group) = alternatives at hchoice hsome ⊢
  match alternatives with
  | [] => exact absurd rfl hsome
  | [p] => exact ((Equivalent.law (.either_one p)).ofBracket b).symm.trans hchoice
  | p :: q :: rest => exact hchoice

end Pattern

end Synopsis
