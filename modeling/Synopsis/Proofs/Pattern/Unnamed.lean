import Mathlib.Data.List.Forall2
import Mathlib.Order.Bounds.Basic
import Synopsis.Proofs.Pattern.Fixing
import Synopsis.Proofs.Pattern.Shortcut

/-!
# What the shortcut stands for

The shortcut stands for the documented options that the tree does not name: each identity once, by
its canonical reference, in the order of the descriptions. The same group of them is put at every
place of the shortcut, and nothing else in the tree changes. After this all documented options are
named, and expanding the tree again changes nothing.
-/

namespace Synopsis

theorem Registry.canonical_le {r : Registry} {id : OptionId} (hid : id < r.size) :
    r.canonical id ≤ id := by
  refine Nat.le_of_not_lt fun hlt => ?_
  have hself := (canonical_spec hid).2.2 id hlt
  rw [r.sameIdentity_self] at hself
  cases hself

namespace Pattern

/-- The tree is or contains `q`. -/
inductive Within (q : Pattern) : Pattern → Prop
  | here : Within q q
  | required {p : Pattern} {ps : List Pattern} : p ∈ ps → Within q p → Within q (required ps)
  | optional {p : Pattern} {ps : List Pattern} : p ∈ ps → Within q p → Within q (optional ps)
  | either {p : Pattern} {ps : List Pattern} : p ∈ ps → Within q p → Within q (either ps)
  | oneOrMore {p : Pattern} : Within q p → Within q (oneOrMore p)

/-- The same tree with the group at every place of the shortcut. -/
inductive Filled (group : Pattern) : Pattern → Pattern → Prop
  | leaf (slot : Slot) : Filled group (leaf slot) (leaf slot)
  | required {ps qs} : List.Forall₂ (Filled group) ps qs → Filled group (required ps) (required qs)
  | optional {ps qs} : List.Forall₂ (Filled group) ps qs → Filled group (optional ps) (optional qs)
  | either {ps qs} : List.Forall₂ (Filled group) ps qs → Filled group (either ps) (either qs)
  | oneOrMore {p q} : Filled group p q → Filled group (oneOrMore p) (oneOrMore q)
  | shortcut : Filled group shortcut group

/-- The documented options that the tree does not name, in order, each identity by its first
entry. -/
structure Completes (r : Registry) (p : Pattern) (ids : List OptionId) : Prop where
  ordered : ids.Pairwise (· < ·)
  mem_iff : ∀ id, id ∈ ids ↔ ∃ d < r.documented,
    IsLeast {k | k < r.size ∧ (r.spec k).short = (r.spec d).short ∧
      (r.spec k).long = (r.spec d).long} id ∧
    ∀ i, (option i).Within p → r.sameIdentity i d = false

variable {r : Registry} {p q group : Pattern} {ps : List Pattern} {slot : Slot} {id : OptionId}
  {ids named : List OptionId}

/-! ### Parts of a tree -/

theorem Within.trans {other : Pattern} (h : q.Within p) (h' : p.Within other) :
    q.Within other := by
  induction h' with
  | here => exact h
  | required hp _ ih => exact .required hp ih
  | optional hp _ ih => exact .optional hp ih
  | either hp _ ih => exact .either hp ih
  | oneOrMore _ ih => exact .oneOrMore ih

/-- A property that a tree has from its branches, and of the other trees only `q`, tells whether `q`
is within. -/
theorem iff_within {P : Pattern → Prop} (here : P q) (leaf : ∀ slot, P (leaf slot) → leaf slot = q)
    (shortcut : P shortcut → shortcut = q) (required : ∀ ps, P (required ps) ↔ ∃ p ∈ ps, P p)
    (optional : ∀ ps, P (optional ps) ↔ ∃ p ∈ ps, P p)
    (either : ∀ ps, P (either ps) ↔ ∃ p ∈ ps, P p) (oneOrMore : ∀ p, P (oneOrMore p) ↔ P p) :
    P p ↔ q.Within p := by
  constructor
  · intro h
    induction p with
    | leaf slot => exact leaf slot h ▸ .here
    | required ps ih =>
      obtain ⟨p, hp, h⟩ := (required ps).1 h
      exact .required hp (ih p hp h)
    | optional ps ih =>
      obtain ⟨p, hp, h⟩ := (optional ps).1 h
      exact .optional hp (ih p hp h)
    | either ps ih =>
      obtain ⟨p, hp, h⟩ := (either ps).1 h
      exact .either hp (ih p hp h)
    | oneOrMore p ih => exact .oneOrMore (ih ((oneOrMore p).1 h))
    | shortcut => exact shortcut h ▸ .here
  · intro h
    induction h with
    | here => exact here
    | required hp _ ih => exact (required _).2 ⟨_, hp, ih⟩
    | optional hp _ ih => exact (optional _).2 ⟨_, hp, ih⟩
    | either hp _ ih => exact (either _).2 ⟨_, hp, ih⟩
    | oneOrMore _ ih => exact (oneOrMore _).2 ih

theorem hasShortcut_iff : p.hasShortcut = true ↔ shortcut.Within p := by
  refine iff_within (P := fun p => p.hasShortcut = true) rfl ?_ (fun _ => rfl) ?_ ?_ ?_
    fun _ => .rfl
  · intro slot h
    cases h
  all_goals
    intro ps
    rw [hasShortcut, hasShortcutAny_eq_any, List.any_eq_true]

theorem mem_slots_iff : slot ∈ p.slots ↔ (leaf slot).Within p := by
  refine iff_within (P := fun p => slot ∈ p.slots) (List.mem_singleton_self slot) ?_ ?_ ?_ ?_ ?_
    fun _ => .rfl
  · intro other h
    rw [List.mem_singleton.1 h]
  · intro h
    cases h
  all_goals
    intro ps
    rw [slots, slotsAll_eq_flatMap, List.mem_flatMap]

theorem mem_optionIds_iff : id ∈ p.optionIds ↔ (option id).Within p := by
  rw [option, ← mem_slots_iff, optionIds, List.mem_eraseDups, List.mem_filterMap]
  constructor
  · rintro ⟨slot, hslot, hoption⟩
    cases slot with
    | argument name v => cases hoption
    | command name v => cases hoption
    | option i =>
      obtain rfl := Option.some.inj hoption
      exact hslot
  · exact fun h => ⟨.option id, h, rfl⟩

/-! ### Filling the places of the shortcut -/

theorem filled_replaceShortcut (group p : Pattern) : Filled group p (replaceShortcut group p) := by
  have all {ps : List Pattern} (ih : ∀ p ∈ ps, Filled group p (replaceShortcut group p)) :
      List.Forall₂ (Filled group) ps (replaceShortcutAll group ps) := by
    rw [replaceShortcutAll_eq_map, List.forall₂_map_right_iff]
    exact List.forall₂_same.2 ih
  induction p with
  | leaf slot => exact .leaf slot
  | required ps ih => exact .required (all ih)
  | optional ps ih => exact .optional (all ih)
  | either ps ih => exact .either (all ih)
  | oneOrMore p ih => exact .oneOrMore ih
  | shortcut => exact .shortcut

theorem Within.replaceShortcut (h : q.Within p) (group : Pattern) :
    (Pattern.replaceShortcut group q).Within (Pattern.replaceShortcut group p) := by
  have mem {p : Pattern} {ps : List Pattern} (hp : p ∈ ps) :
      Pattern.replaceShortcut group p ∈ replaceShortcutAll group ps := by
    rw [replaceShortcutAll_eq_map]
    exact List.mem_map_of_mem hp
  induction h with
  | here => exact .here
  | required hp _ ih => exact .required (mem hp) ih
  | optional hp _ ih => exact .optional (mem hp) ih
  | either hp _ ih => exact .either (mem hp) ih
  | oneOrMore _ ih => exact .oneOrMore ih

theorem hasShortcut_replaceShortcut (hgroup : group.hasShortcut = false) (p : Pattern) :
    (replaceShortcut group p).hasShortcut = false := by
  have all {ps : List Pattern} (ih : ∀ p ∈ ps, (replaceShortcut group p).hasShortcut = false) :
      hasShortcutAny (replaceShortcutAll group ps) = false := by
    rw [hasShortcutAny_eq_any, replaceShortcutAll_eq_map, List.any_map, List.any_eq_false]
    exact fun p hp => Bool.eq_false_iff.1 (ih p hp)
  induction p with
  | leaf slot => rfl
  | required ps ih => exact all ih
  | optional ps ih => exact all ih
  | either ps ih => exact all ih
  | oneOrMore p ih => exact ih
  | shortcut => exact hgroup

theorem hasShortcut_options (ids : List OptionId) :
    (optional (ids.map option)).hasShortcut = false := by
  rw [hasShortcut, hasShortcutAny_eq_any, List.any_map, List.any_eq_false]
  exact fun id _ => Bool.false_ne_true

/-! ### The options that are added -/

def IsUnnamed (r : Registry) (named : List OptionId) (id : OptionId) : Prop :=
  r.canonical id = id ∧ ∀ i ∈ named, r.sameIdentity i id = false

instance : DecidablePred (IsUnnamed r named) := fun _ => instDecidableAnd

/-- An entry is passed over when its identity is named or has been met in an earlier entry. -/
theorem any_sameIdentity_iff (hid : id < r.size) :
    (named ++ (List.range id).filter (IsUnnamed r named)).any (r.sameIdentity · (r.canonical id)) =
      true ↔ ¬ IsUnnamed r named id := by
  obtain ⟨-, hsame, hleast⟩ := Registry.canonical_spec hid
  have hcanonical (i : OptionId) : r.sameIdentity i (r.canonical id) = r.sameIdentity i id := by
    rw [Bool.eq_iff_iff]
    refine ⟨fun h => Registry.sameIdentity_trans h hsame, fun h => ?_⟩
    rw [r.sameIdentity_comm] at hsame
    exact Registry.sameIdentity_trans h hsame
  simp only [hcanonical, List.any_append, Bool.or_eq_true, List.any_eq_true, List.mem_filter,
    List.mem_range, decide_eq_true_eq]
  constructor
  · rintro (⟨i, hi, hnamed⟩ | ⟨i, ⟨hlt, -⟩, hmet⟩) ⟨hfirst, hfree⟩
    · rw [hfree i hi] at hnamed
      cases hnamed
    · rw [hleast i (hfirst.symm ▸ hlt)] at hmet
      cases hmet
  · intro hunnamed
    by_cases hfree : ∀ i ∈ named, r.sameIdentity i id = false
    · have hne : r.canonical id ≠ id := fun hfirst => hunnamed ⟨hfirst, hfree⟩
      refine .inr ⟨r.canonical id, ⟨Nat.lt_of_le_of_ne (Registry.canonical_le hid) hne,
        Registry.canonical_canonical hid, fun i hi => ?_⟩, hsame⟩
      rw [hcanonical]
      exact hfree i hi
    · simp only [not_forall, Bool.not_eq_false] at hfree
      obtain ⟨i, hi, hnamed⟩ := hfree
      exact .inl ⟨i, hi, hnamed⟩

theorem addUnnamed_filter (hid : id < r.size) :
    addUnnamed r named ((List.range id).filter (IsUnnamed r named)) id =
      (List.range (id + 1)).filter (IsUnnamed r named) := by
  rw [List.range_succ, List.filter_append]
  unfold addUnnamed
  by_cases hunnamed : IsUnnamed r named id
  · rw [if_neg (mt (any_sameIdentity_iff hid).1 (not_not.2 hunnamed)), hunnamed.1,
      List.filter_singleton, decide_eq_true hunnamed, cond_true]
  · rw [if_pos ((any_sameIdentity_iff hid).2 hunnamed),
      List.filter_singleton, decide_eq_false hunnamed, cond_false, List.append_nil]

theorem unnamed_eq_filter (r : Registry) (named : List OptionId) :
    unnamed r named = (List.range r.documented).filter (IsUnnamed r named) := by
  have prefixes (n : Nat) (hn : n ≤ r.size) : (List.range n).foldl (addUnnamed r named) [] =
      (List.range n).filter (IsUnnamed r named) := by
    induction n with
    | zero => rfl
    | succ n ih =>
      rw [List.range_succ, List.foldl_concat, ih (Nat.le_of_succ_le hn), addUnnamed_filter hn,
        List.range_succ]
  rw [unnamed_eq_foldl]
  exact prefixes r.documented r.documented_le_size

theorem completes_unnamed (r : Registry) (p : Pattern) :
    Completes r p (unnamed r p.optionIds) := by
  rw [unnamed_eq_filter]
  refine ⟨List.pairwise_lt_range.filter _, fun id => ?_⟩
  rw [List.mem_filter, List.mem_range, decide_eq_true_iff]
  constructor
  · rintro ⟨hid, hfirst, hfree⟩
    have hleast := Registry.isLeast_canonical (Registry.lt_of_lt_documented hid)
    rw [hfirst] at hleast
    exact ⟨id, hid, hleast, fun i hi => hfree i (mem_optionIds_iff.2 hi)⟩
  · rintro ⟨d, hd, hleast, hfree⟩
    have hd' : d < r.size := Registry.lt_of_lt_documented hd
    obtain rfl : id = r.canonical d := hleast.unique (Registry.isLeast_canonical hd')
    refine ⟨Nat.lt_of_le_of_lt (Registry.canonical_le hd') hd, Registry.canonical_canonical hd',
      fun i hi => Bool.eq_false_iff.2 fun hsame => ?_⟩
    have hother := Registry.sameIdentity_trans hsame (Registry.canonical_spec hd').2.1
    rw [hfree i (mem_optionIds_iff.1 hi)] at hother
    cases hother

namespace Completes

theorem lt_documented (h : Completes r p ids) : ∀ id ∈ ids, id < r.documented := by
  intro id hid
  obtain ⟨d, hd, hleast, -⟩ := (h.mem_iff id).1 hid
  exact Nat.lt_of_le_of_lt (hleast.2 ⟨Registry.lt_of_lt_documented hd, rfl, rfl⟩) hd

theorem not_named (h : Completes r p ids) :
    ∀ id ∈ ids, ∀ i, (option i).Within p → r.sameIdentity i id = false := by
  intro id hid i hi
  obtain ⟨d, -, hleast, hfree⟩ := (h.mem_iff id).1 hid
  refine Bool.eq_false_iff.2 fun hsame => ?_
  have hother := Registry.sameIdentity_trans hsame (Registry.sameIdentity_iff.2 hleast.1.2)
  rw [hfree i hi] at hother
  cases hother

theorem pairwise (h : Completes r p ids) : ids.Pairwise (r.sameIdentity · · = false) := by
  refine h.ordered.imp_of_mem fun {i j} hi hj hlt => Bool.eq_false_iff.2 fun hsame => ?_
  obtain ⟨_, -, hleast, -⟩ := (h.mem_iff i).1 hi
  obtain ⟨_, -, hleast', -⟩ := (h.mem_iff j).1 hj
  obtain ⟨hshort, hlong⟩ := Registry.sameIdentity_iff.1 hsame
  have hle := hleast'.2 ⟨hleast.1.1, hshort.trans hleast'.1.2.1, hlong.trans hleast'.1.2.2⟩
  exact absurd hlt (Nat.not_lt_of_le hle)

theorem covers (h : Completes r p ids) :
    ∀ d < r.documented, ∃ id, ((option id).Within p ∨ id ∈ ids) ∧ r.sameIdentity id d = true := by
  intro d hd
  have hd' : d < r.size := Registry.lt_of_lt_documented hd
  by_cases hfree : ∀ i, (option i).Within p → r.sameIdentity i d = false
  · exact ⟨r.canonical d, .inr ((h.mem_iff _).2 ⟨d, hd, Registry.isLeast_canonical hd', hfree⟩),
      (Registry.canonical_spec hd').2.1⟩
  · simp only [not_forall, Bool.not_eq_false] at hfree
    obtain ⟨i, hi, hsame⟩ := hfree
    exact ⟨i, .inl hi, hsame⟩

end Completes

/-! ### Expanding the shortcut -/

theorem expandShortcut_of_not_within (h : ¬ shortcut.Within p) : p.expandShortcut r = p :=
  if_neg (mt hasShortcut_iff.1 h)

theorem expandShortcut_of_within (h : shortcut.Within p) : p.expandShortcut r =
    replaceShortcut (optional ((unnamed r p.optionIds).map option)) p :=
  if_pos (hasShortcut_iff.2 h)

theorem not_within_expandShortcut (r : Registry) (p : Pattern) :
    ¬ shortcut.Within (p.expandShortcut r) := by
  by_cases h : shortcut.Within p
  · rw [expandShortcut_of_within h, ← hasShortcut_iff, Bool.not_eq_true]
    exact hasShortcut_replaceShortcut (hasShortcut_options _) p
  · rwa [expandShortcut_of_not_within h]

/-- Expanding is exact: the documented options that the tree does not name are put at every place of
the shortcut, and nothing else is changed. -/
theorem expandShortcut_exact (r : Registry) (p : Pattern) :
    (¬ shortcut.Within p → p.expandShortcut r = p) ∧
      (shortcut.Within p → ∃ ids, Completes r p ids ∧
        Filled (optional (ids.map option)) p (p.expandShortcut r) ∧
        ¬ shortcut.Within (p.expandShortcut r) ∧
        (∀ d < r.documented, ∃ id, (option id).Within (p.expandShortcut r) ∧
          r.sameIdentity id d = true) ∧
        ids.Pairwise (r.sameIdentity · · = false) ∧
        (∀ id ∈ ids, ∀ i, (option i).Within p → r.sameIdentity i id = false) ∧
        ∀ id ∈ ids, id < r.documented) ∧
      (p.expandShortcut r).expandShortcut r = p.expandShortcut r := by
  refine ⟨expandShortcut_of_not_within, fun hshortcut => ?_,
    expandShortcut_of_not_within (not_within_expandShortcut r p)⟩
  have hcompletes : Completes r p (unnamed r p.optionIds) := completes_unnamed r p
  refine ⟨_, hcompletes, ?_, not_within_expandShortcut r p, fun d hd => ?_, hcompletes.pairwise,
    hcompletes.not_named, hcompletes.lt_documented⟩
  · rw [expandShortcut_of_within hshortcut]
    exact filled_replaceShortcut _ p
  · obtain ⟨id, hid, hsame⟩ := hcompletes.covers d hd
    refine ⟨id, ?_, hsame⟩
    rw [expandShortcut_of_within hshortcut]
    rcases hid with hwithin | hadded
    · exact hwithin.replaceShortcut _
    · have hgroup : (option id).Within (optional ((unnamed r p.optionIds).map option)) :=
        .optional (List.mem_map_of_mem hadded) .here
      exact hgroup.trans (hshortcut.replaceShortcut _)

/-- The tree names one option by its second description, and another one is described twice. -/
theorem expandShortcut_exact_repeated :
    let r : Registry := (Registry.ofDocumented [.ofNames (some "-a") (some "--all") 0,
      .ofNames (some "-q") none 0, .ofNames (some "-a") (some "--all") 0,
      .ofNames none (some "--out") 1, .ofNames (some "-q") none 0]).push
        (.ofNames (some "-x") none 0)
    let p := required [either [shortcut, oneOrMore shortcut], option 4, option 5]
    let group := optional [option 0, option 3]
    let expanded := required [either [group, oneOrMore group], option 4, option 5]
    shortcut.Within p ∧ p.expandShortcut r = expanded ∧
      (∀ d < r.documented, ∃ id, (option id).Within expanded ∧ r.sameIdentity id d = true) ∧
      expanded.expandShortcut r = expanded := by
  intro r p group expanded
  have hwithin : shortcut.Within p :=
    .required List.mem_cons_self (.either List.mem_cons_self .here)
  have hexpanded : p.expandShortcut r = expanded := by rfl
  obtain ⟨-, hexact, hagain⟩ := expandShortcut_exact r p
  obtain ⟨_, -, -, -, hnamed, -⟩ := hexact hwithin
  rw [hexpanded] at hnamed hagain
  exact ⟨hwithin, hexpanded, hnamed, hagain⟩

end Pattern

end Synopsis
