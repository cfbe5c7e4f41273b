import Mathlib.Algebra.Ring.Nat
import Mathlib.Algebra.BigOperators.Ring.List
import Synopsis.Proofs.Pattern.Repetition

/-!
# Expanding a tree into flat cases

The ways through a tree can also be found with a queue of groups of patterns, in which the tree
stands alone at first. Every round takes the group in front. If all its patterns are leaves, it is
a case. Otherwise its first branch is opened: a choice gives a group for each alternative, a
repetition gives its child twice, every other branch its children, and these groups go to the end
of the queue.

A repetition makes its group longer, but the product of the weights of a group is greater than
the sum of the products of the groups that replace it, so the queue runs empty. The cases are then
the ways through the tree up to the order of their slots.
-/

namespace Synopsis.Pattern

/-- What a branch is opened to, one list for each group. -/
def parts? : Pattern → Option (List (List Pattern))
  | leaf _ => none
  | required ps => some [ps]
  | optional ps => some [ps]
  | either ps => some (ps.map ([·]))
  | oneOrMore p => some [[p, p]]
  | shortcut => some [[]]

/-- Opens the first branch of a group, and gives the rest of the group with it. -/
def openFirst? : List Pattern → Option (List (List Pattern) × List Pattern)
  | [] => none
  | p :: ps =>
    match p.parts? with
    | some parts => some (parts, ps)
    | none => (openFirst? ps).map fun (parts, others) => (parts, p :: others)

mutual

/-- One more than what the groups weigh that a branch alone is opened to. -/
def weight : Pattern → Nat
  | leaf _ => 1
  | required ps => 1 + weightAll ps
  | optional ps => 1 + weightAll ps
  | either ps => 1 + weightAny ps
  | oneOrMore p => 1 + weight p * weight p
  | shortcut => 2

def weightAll : List Pattern → Nat
  | [] => 1
  | p :: ps => weight p * weightAll ps

def weightAny : List Pattern → Nat
  | [] => 0
  | p :: ps => weight p + weightAny ps

end

variable {p : Pattern} {ps qs others group : List Pattern} {parts : List (List Pattern)}
  {l : List SlotKey}

@[simp]
theorem weightAll_eq_prod (ps : List Pattern) : weightAll ps = (ps.map weight).prod := by
  induction ps with
  | nil => rfl
  | cons p ps ih => rw [weightAll, ih, List.map_cons, List.prod_cons]

@[simp]
theorem weightAny_eq_sum (ps : List Pattern) : weightAny ps = (ps.map weight).sum := by
  induction ps with
  | nil => rfl
  | cons p ps ih => rw [weightAny, ih, List.map_cons, List.sum_cons]

theorem weight_pos (p : Pattern) : 0 < p.weight := by
  cases p with
  | leaf slot => exact Nat.one_pos
  | shortcut => exact Nat.two_pos
  | _ => exact Nat.lt_add_right _ Nat.one_pos

theorem weightAll_pos (ps : List Pattern) : 0 < weightAll ps := by
  induction ps with
  | nil => exact Nat.one_pos
  | cons p ps ih => exact Nat.mul_pos p.weight_pos ih

theorem weight_of_parts? (h : p.parts? = some parts) :
    p.weight = 1 + (parts.map weightAll).sum := by
  cases p with
  | leaf slot => cases h
  | required ps => cases h; simp [weight]
  | optional ps => cases h; simp [weight]
  | either ps => cases h; simp [weight, Function.comp_def]
  | oneOrMore p => cases h; simp [weight]
  | shortcut => cases h; simp [weight]

theorem exists_perm_of_openFirst? (h : openFirst? group = some (parts, others)) :
    ∃ p, p.parts? = some parts ∧ group.Perm (p :: others) := by
  induction group generalizing others with
  | nil => cases h
  | cons q group ih =>
    rw [openFirst?] at h
    cases hq : q.parts? with
    | some opened =>
      rw [hq] at h
      cases h
      exact ⟨q, hq, .refl _⟩
    | none =>
      rw [hq] at h
      obtain ⟨⟨opened, rest⟩, hrest, heq⟩ := Option.map_eq_some_iff.1 h
      cases heq
      obtain ⟨p, hp, hperm⟩ := ih hrest
      exact ⟨p, hp, (hperm.cons q).trans (.swap p q rest)⟩

theorem weight_openFirst? (h : openFirst? group = some (parts, others)) :
    ((parts.map (· ++ others)).map weightAll).sum < weightAll group := by
  obtain ⟨p, hp, hperm⟩ := exists_perm_of_openFirst? h
  have hgroup : weightAll group = p.weight * weightAll others := by
    simpa using (hperm.map weight).prod_eq
  have hparts : ((parts.map (· ++ others)).map weightAll).sum =
      (parts.map weightAll).sum * weightAll others := by
    rw [← List.sum_map_mul_right parts weightAll]
    simp [Function.comp_def]
  rw [hparts, hgroup, weight_of_parts? hp, Nat.add_mul, Nat.one_mul]
  exact Nat.lt_add_of_pos_left (weightAll_pos others)

/-- Goes through the queue until it is empty and collects the cases. -/
def expand (queue cases : List (List Pattern)) : List (List Pattern) :=
  match queue with
  | [] => cases
  | group :: queue =>
    match _ : openFirst? group with
    | none => expand queue (cases ++ [group])
    | some (parts, others) => expand (queue ++ parts.map (· ++ others)) cases
termination_by (queue.map weightAll).sum
decreasing_by
  · rw [List.map_cons, List.sum_cons]
    exact Nat.lt_add_of_pos_left (weightAll_pos group)
  · rw [List.map_append, List.sum_append, List.map_cons, List.sum_cons, Nat.add_comm]
    exact Nat.add_lt_add_right (weight_openFirst? ‹_›) _

theorem mem_waysAll_append {way : List SlotKey} : way ∈ waysAll (ps ++ qs) ↔
    ∃ first ∈ waysAll ps, ∃ rest ∈ waysAll qs, first ++ rest = way := by
  induction ps generalizing way with
  | nil => simp [waysAll]
  | cons p ps ih =>
    rw [List.cons_append, mem_waysAll_cons]
    constructor
    · rintro ⟨first, hfirst, behind, hbehind, rfl⟩
      obtain ⟨second, hsecond, rest, hrest, rfl⟩ := ih.1 hbehind
      exact ⟨first ++ second, mem_waysAll_cons.2 ⟨first, hfirst, second, hsecond, rfl⟩, rest, hrest,
        List.append_assoc ..⟩
    · rintro ⟨way, hway, rest, hrest, rfl⟩
      obtain ⟨first, hfirst, second, hsecond, rfl⟩ := mem_waysAll_cons.1 hway
      exact ⟨first, hfirst, second ++ rest, ih.2 ⟨second, hsecond, rest, hrest, rfl⟩,
        (List.append_assoc ..).symm⟩

theorem mem_ways_of_parts? {way : List SlotKey} (h : p.parts? = some parts) :
    way ∈ p.ways ↔ ∃ part ∈ parts, way ∈ waysAll part := by
  cases p with
  | leaf slot => cases h
  | required ps => cases h; simp [ways]
  | optional ps => cases h; simp [ways]
  | either ps => cases h; simp [ways, waysAll]
  | oneOrMore p => cases h; simp [ways, waysAll]
  | shortcut => cases h; simp [ways, waysAll]

/-- A way through all patterns of a group passes these slots, in whatever order. -/
def Passable (group : List Pattern) (l : List SlotKey) : Prop :=
  ∃ way ∈ waysAll group, way.Perm l

theorem passable_append : Passable (ps ++ qs) l ↔
    ∃ first ∈ waysAll ps, ∃ rest ∈ waysAll qs, (first ++ rest).Perm l := by
  constructor
  · rintro ⟨way, hway, hperm⟩
    obtain ⟨first, hfirst, rest, hrest, rfl⟩ := mem_waysAll_append.1 hway
    exact ⟨first, hfirst, rest, hrest, hperm⟩
  · rintro ⟨first, hfirst, rest, hrest, hperm⟩
    exact ⟨first ++ rest, mem_waysAll_append.2 ⟨first, hfirst, rest, hrest, rfl⟩, hperm⟩

theorem passable_cons : Passable (p :: ps) l ↔
    ∃ first ∈ p.ways, ∃ rest ∈ waysAll ps, (first ++ rest).Perm l := by
  have hone : waysAll [p] = p.ways := by simp [waysAll]
  rw [← hone, ← passable_append, List.singleton_append]

theorem passable_of_perm (h : ps.Perm qs) (hl : Passable ps l) : Passable qs l := by
  induction h generalizing l with
  | nil => exact hl
  | cons p _ ih =>
    obtain ⟨first, hfirst, rest, hrest, hperm⟩ := passable_cons.1 hl
    obtain ⟨rest', hrest', hsame⟩ := ih ⟨rest, hrest, .refl _⟩
    exact passable_cons.2 ⟨first, hfirst, rest', hrest', (hsame.append_left first).trans hperm⟩
  | swap p q ps =>
    obtain ⟨first, hfirst, behind, hbehind, hperm⟩ := passable_cons.1 hl
    obtain ⟨second, hsecond, rest, hrest, rfl⟩ := mem_waysAll_cons.1 hbehind
    have hmoved : (second ++ (first ++ rest)).Perm (first ++ (second ++ rest)) :=
      List.perm_append_comm_assoc second first rest
    exact passable_cons.2 ⟨second, hsecond, first ++ rest,
      mem_waysAll_cons.2 ⟨first, hfirst, rest, hrest, rfl⟩, hmoved.trans hperm⟩
  | trans _ _ ih ih' => exact ih' (ih hl)

/-- What opening a branch gives can be passed as the group could. -/
theorem passable_openFirst? (h : openFirst? group = some (parts, others)) :
    Passable group l ↔ ∃ part ∈ parts, Passable (part ++ others) l := by
  obtain ⟨p, hp, hperm⟩ := exists_perm_of_openFirst? h
  have hgroup : Passable group l ↔ Passable (p :: others) l :=
    ⟨passable_of_perm hperm, passable_of_perm hperm.symm⟩
  rw [hgroup, passable_cons]
  constructor
  · rintro ⟨first, hfirst, rest⟩
    obtain ⟨part, hpart, hfirst⟩ := (mem_ways_of_parts? hp).1 hfirst
    exact ⟨part, hpart, passable_append.2 ⟨first, hfirst, rest⟩⟩
  · rintro ⟨part, hpart, hl⟩
    obtain ⟨first, hfirst, rest⟩ := passable_append.1 hl
    exact ⟨first, (mem_ways_of_parts? hp).2 ⟨part, hpart, hfirst⟩, rest⟩

theorem expand_case {queue : List (List Pattern)} (h : openFirst? group = none)
    (cases : List (List Pattern)) :
    expand (group :: queue) cases = expand queue (cases ++ [group]) := by
  rw [expand]
  split
  · rfl
  · rename_i hopen
    rw [h] at hopen
    cases hopen

theorem expand_open {queue : List (List Pattern)} (h : openFirst? group = some (parts, others))
    (cases : List (List Pattern)) :
    expand (group :: queue) cases = expand (queue ++ parts.map (· ++ others)) cases := by
  rw [expand]
  split
  · rename_i hopen
    rw [h] at hopen
    cases hopen
  · rename_i hopen
    rw [h] at hopen
    cases hopen
    rfl

theorem exists_passable_expand {queue cases : List (List Pattern)} :
    (∃ group ∈ expand queue cases, Passable group l) ↔
      ∃ group ∈ cases ++ queue, Passable group l := by
  induction queue, cases using expand.induct with
  | case1 cases => rw [expand, List.append_nil]
  | case2 cases group queue h ih => rw [expand_case h, ih, List.append_assoc, List.singleton_append]
  | case3 cases group queue parts others h ih =>
    rw [expand_open h, ih]
    simp only [List.mem_append, List.mem_cons, List.mem_map, or_and_right, exists_or,
      exists_eq_left, exists_exists_and_eq_and, passable_openFirst? h]
    exact or_congr_right or_comm

theorem openFirst?_of_mem_expand {queue cases : List (List Pattern)}
    (hcases : ∀ group ∈ cases, openFirst? group = none) :
    ∀ group ∈ expand queue cases, openFirst? group = none := by
  induction queue, cases using expand.induct with
  | case1 cases =>
    rw [expand]
    exact hcases
  | case2 cases group queue h ih =>
    rw [expand_case h]
    exact ih (List.forall_mem_append.2 ⟨hcases, List.forall_mem_singleton.2 h⟩)
  | case3 cases group queue parts others h ih =>
    rw [expand_open h]
    exact ih hcases

theorem waysAll_of_leaves (h : openFirst? group = none) :
    waysAll group = [(slotsAll group).map Slot.key] := by
  induction group with
  | nil => rfl
  | cons p group ih =>
    cases p with
    | leaf slot =>
      have hgroup : openFirst? group = none := Option.map_eq_none_iff.1 h
      simp [waysAll, ways, ih hgroup, slotsAll, slots]
    | _ => cases h

/-- The slots of the cases, each case with its leaves in order. -/
def flatCases (p : Pattern) : List (List SlotKey) :=
  (expand [[p]] []).map fun group => (slotsAll group).map Slot.key

/-- The cases are the ways through the tree. -/
theorem exists_mem_flatCases_perm :
    (∃ case ∈ p.flatCases, case.Perm l) ↔ ∃ way ∈ p.ways, way.Perm l := by
  have hleaves : ∀ group ∈ expand [[p]] [], openFirst? group = none :=
    openFirst?_of_mem_expand fun group hgroup => absurd hgroup List.not_mem_nil
  have hgroups : (∃ case ∈ p.flatCases, case.Perm l) ↔
      ∃ group ∈ expand [[p]] [], Passable group l := by
    simp only [flatCases, List.mem_map, exists_exists_and_eq_and]
    refine exists_congr fun group => and_congr_right fun hgroup => ?_
    rw [Passable, waysAll_of_leaves (hleaves group hgroup)]
    simp
  rw [hgroups, exists_passable_expand]
  simp [Passable, waysAll]

theorem mem_repeated_iff_flatCases {key : SlotKey} :
    key ∈ p.repeated ↔ ∃ case ∈ p.flatCases, 1 < case.count key := by
  rw [mem_repeated_iff]
  constructor
  · rintro ⟨way, hway, hcount⟩
    obtain ⟨case, hcase, hperm⟩ := exists_mem_flatCases_perm.2 ⟨way, hway, .refl _⟩
    exact ⟨case, hcase, by rwa [hperm.count_eq]⟩
  · rintro ⟨case, hcase, hcount⟩
    obtain ⟨way, hway, hperm⟩ := exists_mem_flatCases_perm.1 ⟨case, hcase, .refl _⟩
    exact ⟨way, hway, by rwa [hperm.count_eq]⟩

end Synopsis.Pattern
