import Synopsis.Proofs.Application.Listing
import Synopsis.Proofs.Application.Phases

/-!
# One run for all accumulators

The bindings, the record and a typed target are made of the same entries, or the run has stopped
before them and all three tell the same. In the record every name occurs once, so the bindings have
just the recorded values. A typed target gets each value in the slot that was registered last for
the property of its name; the first name without a slot is an error.
-/

namespace Synopsis

namespace FieldTable

/-- The table of these properties, each with a slot of its own that takes any value. -/
def ofProperties (properties : List String) : FieldTable (List (List Value)) :=
  ofFields (properties.map fun property => (property, .any))

def isLast (properties : List String) (property : String) (slot : Nat) : Bool :=
  properties[slot]? == some property && !(properties.drop (slot + 1)).contains property

def append (slot : Nat) (v : Value) (slots : List (List Value)) :
    Except UsageError (List (List Value)) :=
  .ok (slots.modify slot (· ++ [v]))

variable {properties : List String} {property : String} {slot : Nat}

theorem isLast_iff : isLast properties property slot = true ↔
    properties[slot]? = some property ∧ property ∉ properties.drop (slot + 1) := by
  simp [isLast]

theorem isLast_concat_self (properties : List String) (property : String) :
    isLast (properties ++ [property]) property properties.length = true := by
  simp [isLast_iff]

theorem isLast_concat_of_ne {other : String} (h : isLast properties property slot = true)
    (hne : property ≠ other) : isLast (properties ++ [other]) property slot = true := by
  rw [isLast_iff] at h ⊢
  obtain ⟨hget, hlast⟩ := h
  obtain ⟨hlt, -⟩ := List.getElem?_eq_some_iff.1 hget
  constructor
  · rw [List.getElem?_append_left hlt, hget]
  · rw [List.drop_append_of_le_length hlt, List.mem_append, List.mem_singleton]
    exact not_or.2 ⟨hlast, hne⟩

theorem le_of_isLast {other : Nat} (h : isLast properties property slot = true)
    (hother : properties[other]? = some property) : other ≤ slot := by
  rw [isLast_iff] at h
  by_contra hlt
  have hget : (properties.drop (slot + 1))[other - (slot + 1)]? = some property := by
    rw [List.getElem?_drop, Nat.add_sub_cancel' (Nat.succ_le_of_lt (Nat.not_le.1 hlt)), hother]
  exact h.2 (List.mem_of_getElem? hget)

theorem isLast_eq_true_iff {other : Nat} (h : isLast properties property slot = true) :
    isLast properties property other = true ↔ slot = other := by
  constructor
  · intro hother
    exact Nat.le_antisymm (le_of_isLast hother (isLast_iff.1 h).1)
      (le_of_isLast h (isLast_iff.1 hother).1)
  · intro heq
    exact heq ▸ h

theorem ofProperties_concat (properties : List String) (property : String) :
    ofProperties (properties ++ [property]) =
      (ofProperties properties).field property (append properties.length) := by
  unfold ofProperties ofFields
  rw [List.map_append, List.zipIdx_append, List.foldl_append]
  simp only [List.map_cons, List.map_nil, List.length_map, Nat.zero_add]
  rfl

theorem setter?_ofProperties (properties : List String) (property : String) :
    (property ∉ properties ∧ (ofProperties properties).setter? property = none) ∨
      ∃ slot, isLast properties property slot = true ∧
        (ofProperties properties).setter? property = some (append slot) := by
  induction properties using List.reverseRecOn with
  | nil => exact .inl ⟨List.not_mem_nil, rfl⟩
  | append_singleton properties other ih =>
    rw [ofProperties_concat, setter?, field, List.lookup_cons]
    by_cases heq : property = other
    · subst heq
      rw [beq_self_eq_true]
      exact .inr ⟨properties.length, isLast_concat_self properties property, rfl⟩
    · rw [beq_eq_false_iff_ne.2 heq]
      rcases ih with ⟨hmem, hnone⟩ | ⟨slot, hlast, hsome⟩
      · refine .inl ⟨?_, hnone⟩
        rw [List.mem_append, List.mem_singleton]
        exact not_or.2 ⟨hmem, heq⟩
      · exact .inr ⟨slot, isLast_concat_of_ne hlast heq, hsome⟩

end FieldTable

open FieldTable Entry

variable {properties : List String} {doc name : String} {argv : List String} {config : Config}
  {es : List Entry} {e : Entry} {v : Value}

/-- The values of the names whose property was registered last in this slot. -/
def slotValues (properties : List String) (es : List Entry) (slot : Nat) : List Value :=
  (es.filter fun e => isLast properties (Property.ofName e.name) slot).map Entry.value

theorem slotValues_cons_self {slot : Nat}
    (h : isLast properties (Property.ofName e.name) slot = true) (es : List Entry) :
    slotValues properties (e :: es) slot = e.value :: slotValues properties es slot := by
  simp [slotValues, h]

theorem slotValues_cons_of_not {slot : Nat}
    (h : ¬ isLast properties (Property.ofName e.name) slot = true) (es : List Entry) :
    slotValues properties (e :: es) slot = slotValues properties es slot := by
  simp [slotValues, h]

def storeAll (properties : List String) (es : List Entry) (slots : List (List Value)) :
    Except UsageError (List (List Value)) :=
  es.foldlM (fun slots e => (ofProperties properties).set e.name e.value slots) slots

theorem storeAll_cons (properties : List String) (e : Entry) (es : List Entry)
    (slots : List (List Value)) :
    storeAll properties (e :: es) slots =
      (ofProperties properties).set e.name e.value slots >>= storeAll properties es :=
  rfl

theorem mapIdx_modify_append {slot : Nat}
    (h : isLast properties (Property.ofName e.name) slot = true) (es : List Entry)
    (slots : List (List Value)) :
    (slots.modify slot (· ++ [e.value])).mapIdx (fun i vs => vs ++ slotValues properties es i) =
      slots.mapIdx fun i vs => vs ++ slotValues properties (e :: es) i := by
  refine List.ext_getElem? fun i => ?_
  rw [List.getElem?_mapIdx, List.getElem?_mapIdx, List.getElem?_modify]
  by_cases heq : slot = i
  · subst heq
    rw [slotValues_cons_self h]
    cases slots[slot]? <;> simp
  · have hlast : ¬ isLast properties (Property.ofName e.name) i = true := fun hi =>
      heq ((isLast_eq_true_iff h).1 hi)
    rw [slotValues_cons_of_not hlast]
    cases slots[i]? <;> simp [heq]

/-- Storing stops at the first name whose property is not registered. If there is none, each slot
gets the values for it in the order in which they come. -/
theorem storeAll_eq (properties : List String) (es : List Entry) (slots : List (List Value)) :
    storeAll properties es slots =
      match es.find? fun e => !properties.contains (Property.ofName e.name) with
      | some e => .error (.binding (Property.ofName e.name) e.name)
      | none => .ok (slots.mapIdx fun i vs => vs ++ slotValues properties es i) := by
  induction es generalizing slots with
  | nil =>
    have hsame : slots.mapIdx (fun i vs => vs ++ slotValues properties [] i) = slots :=
      List.ext_getElem? fun i => by simp [slotValues]
    rw [List.find?_nil, hsame]
    rfl
  | cons e es ih =>
    rw [storeAll_cons]
    unfold FieldTable.set
    rcases setter?_ofProperties properties (Property.ofName e.name) with
      ⟨hmem, hsetter⟩ | ⟨slot, hlast, hsetter⟩
    · rw [List.find?_cons_of_pos (by simpa using hmem), hsetter]
      rfl
    · have hmem : Property.ofName e.name ∈ properties :=
        List.mem_of_getElem? (isLast_iff.1 hlast).1
      rw [List.find?_cons_of_neg (by simpa using hmem), hsetter]
      change storeAll properties es (slots.modify slot (· ++ [e.value])) = _
      rw [ih, mapIdx_modify_append hlast]

theorem run_fields (properties : List String) (es : List Entry) :
    (Accumulator.fields (properties.map fun property => (property, .any))).run es =
      match es.find? fun e => !properties.contains (Property.ofName e.name) with
      | some e => .error (.binding (Property.ofName e.name) e.name)
      | none => .ok ((List.range properties.length).map (slotValues properties es)) := by
  have hslots : ((properties.map fun property => (property, FieldKind.any)).map
      fun _ => ([] : List Value)).mapIdx (fun i vs => vs ++ slotValues properties es i) =
        (List.range properties.length).map (slotValues properties es) := by
    refine List.ext_getElem (by simp) fun i hi hi' => ?_
    simp
  change storeAll properties es
    ((properties.map fun property => (property, FieldKind.any)).map fun _ => []) = _
  rw [storeAll_eq, hslots]

theorem value?_eq_some_iff (h : (es.map Entry.name).Nodup) :
    value? name es = some v ↔ ∃ e ∈ es, e.name = name ∧ e.value = v := by
  constructor
  · intro hv
    rw [value?_eq_getLast? h] at hv
    obtain ⟨e, he, rfl⟩ := List.mem_map.1 (List.mem_of_getLast? hv)
    obtain ⟨he, hname⟩ := List.mem_filter.1 he
    exact ⟨e, he, of_decide_eq_true hname, rfl⟩
  · rintro ⟨e, he, rfl, rfl⟩
    exact value?_of_mem h he

theorem nodup_entries (h : entries doc argv config = .matched es) :
    (es.map Entry.name).Nodup := by
  obtain ⟨d, hread⟩ := exists_of_entries h
  rw [names_of_labels (labels_entries hread h)]
  exact nodup_defaults _

/-- All accumulators stop alike, or all of them are given the entries that the record shows. -/
theorem accumulators_agree (doc : String) (argv : List String) (config : Config)
    (properties : List String) :
    let recorded := applyWith doc argv config .record
    let bound := apply doc argv config
    let typed := applyWith doc argv config
      (.fields (properties.map fun property => (property, .any)))
    (∃ text, recorded = .help text ∧ bound = .help text ∧ typed = .help text) ∨
    (∃ text, recorded = .version text ∧ bound = .version text ∧ typed = .version text) ∨
    (∃ e, e.phase? ≠ none ∧ recorded = .failed e ∧ bound = .failed e ∧ typed = .failed e) ∨
    ∃ es, recorded = .matched es ∧ (es.map Entry.name).Nodup ∧
      (∃ b, bound = .matched b ∧
        ∀ name v, b.get? name = some v ↔ ∃ e ∈ es, e.name = name ∧ e.value = v) ∧
      typed = match es.find? fun e => !properties.contains (Property.ofName e.name) with
        | some e => .failed (.binding (Property.ofName e.name) e.name)
        | none => .matched ((List.range properties.length).map (slotValues properties es)) := by
  intro recorded bound typed
  have hrun {σ : Type} (a : Accumulator σ) {o : Outcome (List Entry)}
      (h : entries doc argv config = o) : applyWith doc argv config a = o.andThen a.run :=
    congrArg (Outcome.andThen · a.run) h
  cases hentries : entries doc argv config with
  | help text => exact .inl ⟨text, hrun _ hentries, hrun _ hentries, hrun _ hentries⟩
  | version text => exact .inr (.inl ⟨text, hrun _ hentries, hrun _ hentries, hrun _ hentries⟩)
  | failed e =>
    exact .inr (.inr (.inl ⟨e, phase?_of_entries_failed hentries, hrun _ hentries, hrun _ hentries,
      hrun _ hentries⟩))
  | matched es =>
    have hnodup := nodup_entries hentries
    have hrecorded := applyWith_of_entries hentries (run_record es)
    have hbound := applyWith_of_entries hentries (run_bindings es)
    refine .inr (.inr (.inr ⟨es, hrecorded, hnodup, ⟨_, hbound, fun name v => ?_⟩, ?_⟩))
    · rw [get?_of_run_bindings hnodup (run_bindings es), value?_eq_some_iff hnodup]
    · have htyped : typed = Outcome.andThen (.matched es) _ := hrun _ hentries
      rw [htyped, Outcome.andThen, run_fields]
      cases es.find? fun e => !properties.contains (Property.ofName e.name) with
      | some e => rfl
      | none => rfl

end Synopsis
