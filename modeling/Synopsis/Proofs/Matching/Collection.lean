import Mathlib.Data.List.Induction
import Synopsis.Proofs.Matching.Trail
import Synopsis.Proofs.Pattern.Readiness

/-!
# What is collected under a name

Along a trail through a ready tree, the values that were bound to a slot are its history. Under
the name of the slot stands nothing as long as the history is empty, and one value afterwards: all
additions in order for a list, the length of the history for a count, and for any other slot the
only value of the history.
-/

namespace Synopsis

/-- The value of a name to which these values were bound one after the other, at least one. -/
def Value.gather (initial : Value) (bound : List Value) : Value :=
  match initial with
  | .items _ => .items (bound.flatMap addition)
  | .count _ => .count bound.length
  | _ => bound.head?.getD initial

namespace Occurrence

variable {options : Registry}

@[simp]
theorem name?_withValue (x : Occurrence) (v : Value) :
    (x.withValue v).name? options = x.name? options := by
  cases x <;> rfl

@[simp]
theorem value_withValue (x : Occurrence) (v : Value) : (x.withValue v).value = v := by
  cases x <;> rfl

end Occurrence

@[simp]
theorem Slot.name?_bound (options : Registry) (slot : Slot) (x : Occurrence) :
    (slot.bound x).name? options = some (slot.name options) := by
  cases slot <;> rfl

namespace Matching

variable {options : Registry} {name : String}

def valuesUnder (options : Registry) (name : String) (collected : List Occurrence) : List Value :=
  (collected.filter fun x => x.name? options = some name).map Occurrence.value

theorem valuesUnder_cons_self {x : Occurrence} (h : x.name? options = some name)
    (xs : List Occurrence) : valuesUnder options name (x :: xs) =
      x.value :: valuesUnder options name xs := by
  simp [valuesUnder, h]

theorem valuesUnder_cons_of_ne {x : Occurrence} (h : x.name? options ≠ some name)
    (xs : List Occurrence) : valuesUnder options name (x :: xs) = valuesUnder options name xs := by
  simp [valuesUnder, h]

theorem valuesUnder_append (xs ys : List Occurrence) : valuesUnder options name (xs ++ ys) =
    valuesUnder options name xs ++ valuesUnder options name ys := by
  simp [valuesUnder]

theorem valuesUnder_merge_of_ne {found : Occurrence} (h : found.name? options ≠ some name)
    (addition : Value) (xs : List Occurrence) :
    valuesUnder options name (merge options addition found xs) = valuesUnder options name xs := by
  induction xs with
  | nil =>
    rw [merge, valuesUnder_cons_of_ne]
    rwa [Occurrence.name?_withValue]
  | cons x xs ih =>
    rw [merge]
    by_cases hx : x.name? options = found.name? options
    · rw [if_pos hx, valuesUnder_cons_of_ne (by rwa [Occurrence.name?_withValue, hx]),
        valuesUnder_cons_of_ne (by rwa [hx])]
    · rw [if_neg hx]
      by_cases hname : x.name? options = some name
      · rw [valuesUnder_cons_self hname, valuesUnder_cons_self hname, ih]
      · rw [valuesUnder_cons_of_ne hname, valuesUnder_cons_of_ne hname, ih]

theorem valuesUnder_merge_self {found : Occurrence} (h : found.name? options = some name)
    (addition : Value) (xs : List Occurrence) :
    valuesUnder options name (merge options addition found xs) =
      match valuesUnder options name xs with
      | [] => [addition]
      | v :: vs => v.add addition :: vs := by
  induction xs with
  | nil =>
    rw [merge, valuesUnder_cons_self (by rwa [Occurrence.name?_withValue]),
      Occurrence.value_withValue]
    rfl
  | cons x xs ih =>
    rw [merge]
    by_cases hx : x.name? options = found.name? options
    · rw [if_pos hx, valuesUnder_cons_self (by rwa [Occurrence.name?_withValue, hx]),
        valuesUnder_cons_self (by rwa [hx]), Occurrence.value_withValue]
    · have hname : x.name? options ≠ some name := by rwa [← h]
      rw [if_neg hx, valuesUnder_cons_of_ne hname, valuesUnder_cons_of_ne hname, ih]

def Taking.value (k : Taking) : Value :=
  (k.slot.bound k.given).value

theorem valuesUnder_collect_of_ne {k : Taking} (h : k.slot.name options ≠ name)
    (xs : List Occurrence) :
    valuesUnder options name (k.collect options xs) = valuesUnder options name xs := by
  have hbound : (k.slot.bound k.given).name? options ≠ some name := by
    rw [Slot.name?_bound]
    exact fun heq => h (Option.some.inj heq)
  unfold Taking.collect collect
  split
  · exact valuesUnder_merge_of_ne hbound _ xs
  · exact valuesUnder_merge_of_ne hbound _ xs
  · rw [valuesUnder_append, valuesUnder_cons_of_ne hbound]
    exact List.append_nil _

def gathered (initial : Value) (history : List Value) : List Value :=
  if history = [] then [] else [initial.gather history]

/-- One more taking by a slot: a value that does not accumulate must be the first. -/
theorem valuesUnder_collect_self {k : Taking} {history : List Value} {xs : List Occurrence}
    (hxs : valuesUnder options (k.slot.name options) xs =
      gathered (k.slot.initial options) history)
    (honce : (k.slot.initial options).accumulates = false → history = []) :
    valuesUnder options (k.slot.name options) (k.collect options xs) =
      gathered (k.slot.initial options) (history ++ [k.value]) := by
  have hbound : (k.slot.bound k.given).name? options = some (k.slot.name options) :=
    Slot.name?_bound options k.slot k.given
  unfold Taking.collect collect
  cases hinitial : k.slot.initial options with
  | count n =>
    rw [hinitial] at hxs
    rw [valuesUnder_merge_self hbound, hxs]
    cases history with
    | nil => rfl
    | cons v vs => simp [gathered, Value.gather, Value.add]
  | items l =>
    rw [hinitial] at hxs
    rw [valuesUnder_merge_self hbound, hxs]
    cases history with
    | nil => simp [gathered, Value.gather, Taking.value]
    | cons v vs => simp [gathered, Value.gather, Value.add, Taking.value]
  | absent =>
    obtain rfl := honce (by rw [hinitial]; rfl)
    rw [valuesUnder_append, hxs, valuesUnder_cons_self hbound]
    rfl
  | flag on =>
    obtain rfl := honce (by rw [hinitial]; rfl)
    rw [valuesUnder_append, hxs, valuesUnder_cons_self hbound]
    rfl
  | text s =>
    obtain rfl := honce (by rw [hinitial]; rfl)
    rw [valuesUnder_append, hxs, valuesUnder_cons_self hbound]
    rfl

def history (slot : Slot) (ks : List Taking) : List Value :=
  (ks.filter fun k => k.slot = slot).map Taking.value

theorem history_append (slot : Slot) (ks ls : List Taking) :
    history slot (ks ++ ls) = history slot ks ++ history slot ls := by
  simp [history]

theorem history_singleton_self (k : Taking) : history k.slot [k] = [k.value] := by
  simp [history]

theorem history_singleton_of_ne {slot : Slot} {k : Taking} (h : k.slot ≠ slot) :
    history slot [k] = [] := by
  simp [history, h]

/-- In a ready tree the takings under one name are the takings by one slot. -/
theorem valuesUnder_collectAll {p : Pattern} (hready : p.Ready options) {ks : List Taking}
    (hslots : ∀ k ∈ ks, k.slot ∈ p.slots)
    (honce : ∀ slot ∈ p.slots, (slot.initial options).accumulates = false →
      (history slot ks).length ≤ 1) :
    ∀ slot ∈ p.slots, valuesUnder options (slot.name options)
        (ks.foldl (Taking.collect options) []) =
      gathered (slot.initial options) (history slot ks) := by
  induction ks using List.reverseRecOn with
  | nil => exact fun slot _ => rfl
  | append_singleton ks k ih =>
    obtain ⟨hslots, hk⟩ := List.forall_mem_append.1 hslots
    have hkslot : k.slot ∈ p.slots := hk k (List.mem_singleton_self k)
    have hprefix : ∀ slot ∈ p.slots, (slot.initial options).accumulates = false →
        (history slot ks).length ≤ 1 := by
      intro slot hslot hscalar
      have hle := honce slot hslot hscalar
      rw [history_append, List.length_append] at hle
      omega
    have hih := ih hslots hprefix
    intro slot hslot
    rw [List.foldl_append, List.foldl_cons, List.foldl_nil, history_append]
    by_cases hname : k.slot.name options = slot.name options
    · obtain rfl := hready.unique k.slot hkslot slot hslot hname
      rw [history_singleton_self]
      refine valuesUnder_collect_self (hih k.slot hslot) fun hscalar => ?_
      have hle := honce k.slot hslot hscalar
      rw [history_append, history_singleton_self, List.length_append, List.length_singleton] at hle
      exact List.length_eq_zero_iff.1 (by omega)
    · have hne : k.slot ≠ slot := fun heq => hname (heq ▸ rfl)
      rw [valuesUnder_collect_of_ne hname, hih slot hslot, history_singleton_of_ne hne,
        List.append_nil]

end Matching

end Synopsis
