import Synopsis.Document

/-!
# Overlaying entries

Of several entries for one name the last one gives the value, while each name keeps a single place.
What is stored by name from such entries has these values and no others.
-/

namespace Synopsis

namespace Entry

variable {name : String} {e : Entry} {es entries : List Entry}

def value? (name : String) : List Entry → Option Value
  | [] => none
  | e :: es => if e.name = name then some e.value else value? name es

def valuesOf (name : String) (es : List Entry) : List Value :=
  (es.filter (·.name = name)).map Entry.value

theorem valuesOf_cons_self (h : e.name = name) (es : List Entry) :
    valuesOf name (e :: es) = e.value :: valuesOf name es := by
  simp [valuesOf, h]

theorem valuesOf_cons_of_ne (h : e.name ≠ name) (es : List Entry) :
    valuesOf name (e :: es) = valuesOf name es := by
  simp [valuesOf, h]

theorem valuesOf_eq_nil (h : name ∉ es.map Entry.name) : valuesOf name es = [] := by
  unfold valuesOf
  rw [List.map_eq_nil_iff, List.filter_eq_nil_iff]
  intro e he heq
  exact h (of_decide_eq_true heq ▸ List.mem_map_of_mem he)

theorem getLast?_cons_or (v : Value) (vs : List Value) (start : Option Value) :
    (v :: vs).getLast?.or start = vs.getLast?.or (some v) := by
  rw [List.getLast?_cons, Option.some_or]
  cases vs.getLast? <;> rfl

theorem value?_eq_getLast? (h : (entries.map Entry.name).Nodup) :
    value? name entries = (valuesOf name entries).getLast? := by
  induction entries with
  | nil => rfl
  | cons e entries ih =>
    obtain ⟨hfresh, hrest⟩ := List.nodup_cons.1 h
    rw [value?]
    by_cases he : e.name = name
    · rw [if_pos he, valuesOf_cons_self he, valuesOf_eq_nil (he ▸ hfresh)]
      rfl
    · rw [if_neg he, valuesOf_cons_of_ne he, ih hrest]

theorem value?_of_mem (h : (entries.map Entry.name).Nodup) (he : e ∈ entries) :
    value? e.name entries = some e.value := by
  induction entries with
  | nil => exact absurd he List.not_mem_nil
  | cons x xs ih =>
    obtain ⟨hfresh, hrest⟩ := List.nodup_cons.1 h
    rw [value?]
    rcases List.mem_cons.1 he with rfl | he
    · exact if_pos rfl
    · have hne : x.name ≠ e.name := fun heq => hfresh (heq ▸ List.mem_map_of_mem he)
      rw [if_neg hne, ih hrest he]

theorem value?_overlay_self (h : e.name = name) (entries : List Entry) :
    value? name (e.overlay entries) = some e.value := by
  induction entries with
  | nil => rw [overlay, value?, if_pos h]
  | cons x xs ih =>
    rw [overlay]
    by_cases hx : x.name = e.name
    · rw [if_pos hx, value?, if_pos (hx.trans h)]
    · rw [if_neg hx, value?, if_neg (h ▸ hx), ih]

theorem value?_overlay_of_ne (h : e.name ≠ name) (entries : List Entry) :
    value? name (e.overlay entries) = value? name entries := by
  induction entries with
  | nil => simp [overlay, value?, h]
  | cons x xs ih =>
    rw [overlay]
    by_cases hx : x.name = e.name
    · rw [if_pos hx, value?, value?, if_neg (hx ▸ h), if_neg (hx ▸ h)]
    · rw [if_neg hx, value?, value?, ih]

def overlayAll (es entries : List Entry) : List Entry :=
  es.foldl (fun entries e => e.overlay entries) entries

theorem value?_overlayAll (name : String) (es entries : List Entry) :
    value? name (overlayAll es entries) =
      (valuesOf name es).getLast?.or (value? name entries) := by
  induction es generalizing entries with
  | nil => rfl
  | cons e es ih =>
    change value? name (overlayAll es (e.overlay entries)) = _
    rw [ih]
    by_cases he : e.name = name
    · rw [valuesOf_cons_self he, getLast?_cons_or, value?_overlay_self he]
    · rw [valuesOf_cons_of_ne he, value?_overlay_of_ne he]

theorem names_overlay (e : Entry) (entries : List Entry) :
    (e.overlay entries).map Entry.name =
      if e.name ∈ entries.map Entry.name then entries.map Entry.name
      else entries.map Entry.name ++ [e.name] := by
  induction entries with
  | nil => simp [overlay]
  | cons x xs ih =>
    rw [overlay]
    by_cases hx : x.name = e.name
    · simp [hx]
    · rw [if_neg hx, List.map_cons, ih]
      by_cases hmem : e.name ∈ xs.map Entry.name
      · simp [hmem]
      · simp [hmem, Ne.symm hx]

def label (e : Entry) : SlotKind × String :=
  (e.kind, e.name)

theorem labels_overlay (h : e.name ∈ entries.map Entry.name) :
    (e.overlay entries).map label = entries.map label := by
  induction entries with
  | nil => exact absurd h List.not_mem_nil
  | cons x xs ih =>
    rw [overlay]
    by_cases hx : x.name = e.name
    · rw [if_pos hx]
      rfl
    · rw [if_neg hx, List.map_cons, List.map_cons, ih]
      exact (List.mem_cons.1 h).resolve_left (Ne.symm hx)

theorem names_of_labels {es fs : List Entry} (h : es.map label = fs.map label) :
    es.map Entry.name = fs.map Entry.name := by
  have hsnd (es : List Entry) : es.map Entry.name = (es.map label).map Prod.snd := by
    rw [List.map_map]
    rfl
  rw [hsnd, hsnd, h]

theorem labels_overlayAll (h : ∀ e ∈ es, e.name ∈ entries.map Entry.name) :
    (overlayAll es entries).map label = entries.map label := by
  refine List.foldlRecOn (motive := fun l : List Entry => l.map label = entries.map label) es _ rfl
    fun l hl e he => ?_
  rw [labels_overlay, hl]
  rw [names_of_labels hl]
  exact h e he

theorem mem_names_overlay : name ∈ (e.overlay entries).map Entry.name ↔
    name = e.name ∨ name ∈ entries.map Entry.name := by
  rw [names_overlay]
  by_cases hmem : e.name ∈ entries.map Entry.name
  · rw [if_pos hmem]
    exact ⟨.inr, fun h => h.elim (fun heq => heq ▸ hmem) id⟩
  · rw [if_neg hmem, List.mem_append, List.mem_singleton]
    exact or_comm

theorem mem_names_overlayAll : name ∈ (overlayAll es entries).map Entry.name ↔
    name ∈ es.map Entry.name ∨ name ∈ entries.map Entry.name := by
  induction es generalizing entries with
  | nil => simp [overlayAll]
  | cons e es ih =>
    change name ∈ (overlayAll es (e.overlay entries)).map Entry.name ↔ _
    rw [ih, mem_names_overlay, List.map_cons, List.mem_cons]
    exact or_left_comm.trans or_assoc.symm

theorem nodup_overlay (e : Entry) (h : (entries.map Entry.name).Nodup) :
    ((e.overlay entries).map Entry.name).Nodup := by
  rw [names_overlay]
  by_cases hmem : e.name ∈ entries.map Entry.name
  · rw [if_pos hmem]
    exact h
  · rw [if_neg hmem]
    exact List.nodup_append.2 ⟨h, by simp, by simpa using hmem⟩

theorem nodup_overlayAll (es : List Entry) (h : (entries.map Entry.name).Nodup) :
    ((overlayAll es entries).map Entry.name).Nodup :=
  List.foldlRecOn (motive := fun l : List Entry => (l.map Entry.name).Nodup) es _ h
    fun _ hentries e _ => nodup_overlay e hentries

end Entry

open Entry

theorem get?_foldl_insert (name : String) (es : List Entry) (b : Bindings) :
    (es.foldl (fun b e => b.insert e.name e.value) b).get? name =
      (valuesOf name es).getLast?.or (b.get? name) := by
  induction es generalizing b with
  | nil => rfl
  | cons e es ih =>
    rw [List.foldl_cons, ih]
    by_cases he : e.name = name
    · subst he
      rw [valuesOf_cons_self rfl, getLast?_cons_or, Bindings.get?_insert_self]
    · rw [valuesOf_cons_of_ne he, Bindings.get?_insert_of_ne _ (Ne.symm he)]

theorem run_bindings (es : List Entry) : Accumulator.bindings.run es =
    .ok (es.foldl (fun b e => b.insert e.name e.value) .empty) := by
  have store (b : Bindings) : es.foldlM (fun b e => Accumulator.bindings.store e b) b =
      .ok (es.foldl (fun b e => b.insert e.name e.value) b) := by
    induction es generalizing b with
    | nil => rfl
    | cons e es ih => exact ih _
  exact store .empty

theorem run_record (es : List Entry) : Accumulator.record.run es = .ok es := by
  have store (stored : List Entry) :
      es.foldlM (fun stored e => Accumulator.record.store e stored) stored =
        .ok (stored ++ es) := by
    induction es generalizing stored with
    | nil => exact congrArg Except.ok (List.append_nil stored).symm
    | cons e es ih =>
      refine (ih (stored ++ [e])).trans ?_
      rw [List.append_assoc, List.singleton_append]
  exact store []

theorem get?_of_run_bindings {es : List Entry} {b : Bindings} (h : (es.map Entry.name).Nodup)
    (hrun : Accumulator.bindings.run es = .ok b) (name : String) :
    b.get? name = value? name es := by
  rw [run_bindings] at hrun
  obtain rfl := Except.ok.inj hrun
  rw [get?_foldl_insert, value?_eq_getLast? h]
  exact Option.or_none

end Synopsis
