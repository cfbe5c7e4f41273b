import Mathlib.Data.List.Forall2
import Synopsis.Proofs.Application.OptionValues

/-!
# The listing agrees with every run

The names of a document can be listed without any arguments. If arguments match, the entries of the
result have the listed names and kinds in the listed order, whatever options the arguments have
added to the registry, and if the names are apart then each value has the listed shape. Only a name
without a default can have another one: it has become a text.
-/

namespace Synopsis

open Entry

/-- A name that is listed with this shape can have the value in a result. -/
def ValueKind.Receives (k : ValueKind) (v : Value) : Prop :=
  v.kind = k ∨ k = .absent ∧ v.kind = .text

instance (k : ValueKind) (v : Value) : Decidable (k.Receives v) :=
  inferInstanceAs (Decidable (v.kind = k ∨ k = .absent ∧ v.kind = .text))

def Entry.toNode (e : Entry) : LeafNode :=
  ⟨e.name, e.kind, e.value.kind⟩

def LeafNode.label (n : LeafNode) : SlotKind × String :=
  (n.kind, n.name)

variable {d : Document} {doc : String} {argv : List String} {config : Config} {options : Registry}
  {b : Bindings} {es : List Entry} {arguments collected : List Occurrence}
  {ks : List Matching.Taking}

theorem Value.receives_final {initial : Value} {bound : List Value}
    (h : initial.accumulates = false → ∀ v ∈ bound, initial.kind.Receives v) :
    initial.kind.Receives (initial.final bound) := by
  cases bound with
  | nil => exact .inl rfl
  | cons v vs =>
    rw [final, if_neg (List.cons_ne_nil v vs)]
    cases initial with
    | items l => exact .inl rfl
    | count n => exact .inl rfl
    | absent => exact h rfl v List.mem_cons_self
    | flag on => exact h rfl v List.mem_cons_self
    | text s => exact h rfl v List.mem_cons_self

theorem OptionSpec.Suited.receives {o : OptionSpec} {v : Value} (h : o.Suited)
    (hv : o.admits v = true) : o.value.kind.Receives v := by
  unfold Suited at h
  by_cases hvalued : o.takesValue = true
  · rw [if_pos hvalued] at h
    obtain ⟨s, rfl⟩ := exists_text_of_admits hv hvalued
    exact h.elim (fun habsent => .inr ⟨habsent, rfl⟩) fun htext => .inl htext.symm
  · rw [if_neg hvalued] at h
    rw [eq_flag_of_admits hv hvalued]
    exact .inl h.symm

theorem Pattern.spec_fix_of_scalar {p : Pattern} {id : OptionId} (hid : id < options.size)
    (hscalar : ((p.fix options).2.spec id).value.accumulates = false) :
    (p.fix options).2.spec id = options.spec id := by
  rw [spec_fix hid] at hscalar ⊢
  by_cases hrepeated : (p.identified options).repeated.contains (.option id) = true
  · rw [if_pos hrepeated, OptionSpec.accumulates_repeatable] at hscalar
    cases hscalar
  · exact if_neg hrepeated

namespace Fulfilled

theorem receives_value (h : Fulfilled d options arguments ks collected b) {k : Matching.Taking}
    (hk : k ∈ ks)
    (hscalar : (k.slot.initial (d.prepared options).options).accumulates = false) :
    (k.slot.initial (d.prepared options).options).kind.Receives k.value := by
  have hslot := h.settles.slots k hk
  have hfixed := h.fixed _ hslot
  have hlane := (h.settles.fits k hk).lane
  have hgiven := h.settles.given k hk
  unfold Matching.Taking.value
  cases hkslot : k.slot with
  | argument name v =>
    rw [hkslot] at hfixed hlane hscalar
    obtain ⟨s, hs⟩ := (h.resolved _ hgiven).exists_positional hlane
    rcases hfixed with rfl | rfl
    · rw [hs]
      exact .inr ⟨rfl, rfl⟩
    · cases hscalar
  | command name v =>
    rw [hkslot] at hfixed hscalar
    rcases hfixed with rfl | rfl
    · exact .inl rfl
    · cases hscalar
  | option id =>
    rw [hkslot] at hslot hfixed hlane hscalar
    have hspec : (d.prepared options).options.spec id = options.spec id :=
      Pattern.spec_fix_of_scalar hfixed hscalar
    have hreceives := (h.plain.suited_spec id).receives (h.admits hslot hgiven hlane)
    rw [← hspec] at hreceives
    exact hreceives

theorem receives (h : Fulfilled d options arguments ks collected b) {slot : Slot} :
    (slot.initial (d.prepared options).options).kind.Receives
      ((slot.initial (d.prepared options).options).final (Matching.history slot ks)) := by
  refine Value.receives_final fun hscalar v hv => ?_
  obtain ⟨k, hmem, rfl⟩ := List.mem_map.1 hv
  obtain ⟨hk, hkslot⟩ := List.mem_filter.1 hmem
  obtain rfl := of_decide_eq_true hkslot
  exact h.receives_value hk hscalar

end Fulfilled

theorem nodup_defaults (d : Document) : (d.defaults.map Entry.name).Nodup := by
  rw [defaults_eq]
  exact nodup_overlayAll _ List.nodup_nil

theorem mem_names_defaults {slot : Slot} (hslot : slot ∈ d.pattern.slots) :
    slot.name d.options ∈ d.defaults.map Entry.name := by
  rw [defaults_eq]
  have hentry : slot.entry d.options ∈ d.pattern.slots.map (Slot.entry d.options) :=
    List.mem_map_of_mem hslot
  exact mem_names_overlayAll.2 (.inl (List.mem_map_of_mem (f := Entry.name) hentry))

namespace Matching

theorem named_run (p : Pattern) (arguments : List Occurrence) :
    ∀ x ∈ (run options p arguments).collected,
      ∃ slot ∈ p.slots, x.name? options = some (slot.name options) := by
  unfold run
  cases hm : matchPattern? options p ⟨arguments, []⟩ with
  | none =>
    rw [resultOf_of_none hm]
    exact fun x hx => absurd hx List.not_mem_nil
  | some t =>
    rw [resultOf_of_some hm]
    obtain ⟨ks, htrail, hwalk⟩ := matchPattern?_trail p _ t hm
    have hslots : ∀ k ∈ ks, k.slot ∈ p.slots := fun k hk =>
      hwalk.subset_slots (List.mem_map_of_mem hk)
    simp only [htrail.collected]
    exact named_collectAll hslots

end Matching

/-- The arguments do not change what is listed. -/
theorem Document.Sound.defaults_prepared {phase : Phase} (h : d.Sound)
    (hgrows : d.options.Grows phase options) :
    (d.prepared options).defaults = d.expand.fix.defaults := by
  have hformed := h.expand.formed
  have hpattern : (d.prepared options).pattern = d.expand.fix.pattern := by
    change ((Document.expand { d with options }).pattern.fix options).1 = _
    rw [h.pattern_expand_grows hgrows]
    exact hformed.fix_grows hgrows
  have hentry : ∀ slot ∈ d.expand.fix.pattern.slots,
      slot.entry (d.prepared options).options = slot.entry d.expand.fix.options := by
    intro slot hslot
    cases slot with
    | argument name v => rfl
    | command name v => rfl
    | option id =>
      have hspec : (d.prepared options).options.spec id = d.expand.fix.options.spec id := by
        change ((Document.expand { d with options }).pattern.fix options).2.spec id = _
        rw [h.pattern_expand_grows hgrows]
        exact hformed.spec_fix_grows hgrows (hformed.isFixed hslot)
      simp only [Slot.entry, Slot.name, Slot.initial, Registry.name, hspec]
  rw [defaults_eq, defaults_eq, hpattern, List.map_congr_left hentry]

theorem labels_entries (hread : Document.read doc = .ok d)
    (hentries : entries doc argv config = .matched es) :
    es.map label = d.expand.fix.defaults.map label := by
  obtain ⟨arguments, options, harguments, hconclude⟩ := entries_eq_matched hread hentries
  obtain ⟨hgrows, -⟩ := Occurrence.readArguments_spec harguments
  obtain ⟨-, rfl⟩ := conclude_eq_matched hconclude
  rw [labels_overlayAll]
  · exact congrArg (List.map label) ((Document.sound_of_read hread).defaults_prepared hgrows)
  · intro e he
    obtain ⟨x, hx, hentry⟩ := List.mem_filterMap.1 he
    obtain ⟨slot, hslot, hname⟩ := Matching.named_run _ _ x hx
    rw [Occurrence.entry?, hname, Option.map_some] at hentry
    obtain rfl := Option.some.inj hentry
    exact mem_names_defaults hslot

theorem forall₂_of_names {R : Entry → Entry → Prop} {fs es : List Entry}
    (hnames : es.map Entry.name = fs.map Entry.name)
    (h : ∀ f ∈ fs, ∀ e ∈ es, e.name = f.name → R f e) : List.Forall₂ R fs es := by
  induction es generalizing fs with
  | nil =>
    rw [List.map_eq_nil_iff.1 hnames.symm]
    exact .nil
  | cons e es ih =>
    obtain ⟨f, fs', rfl, hname, hrest⟩ := List.map_eq_cons_iff.1 hnames.symm
    refine .cons (h f List.mem_cons_self e List.mem_cons_self hname.symm) (ih hrest.symm ?_)
    exact fun g hg x hx => h g (List.mem_cons_of_mem _ hg) x (List.mem_cons_of_mem _ hx)

theorem receives_entries (hread : Document.read doc = .ok d)
    (hapart : d.expand.pattern.NamesApart d.options)
    (hentries : entries doc argv config = .matched es) :
    List.Forall₂ (fun listed e => listed.value.kind.Receives e.value) d.expand.fix.defaults es := by
  have hnames := names_of_labels (labels_entries hread hentries)
  have hnodup : (es.map Entry.name).Nodup := by
    rw [hnames]
    exact nodup_defaults _
  have hmatched := applyWith_of_entries hentries (run_bindings es)
  obtain ⟨arguments, options, harguments, ks, collected, hfulfilled⟩ :=
    exists_fulfilled hread hapart hmatched
  obtain ⟨hgrows, -⟩ := Occurrence.readArguments_spec harguments
  have hdefaults := (Document.sound_of_read hread).defaults_prepared hgrows
  refine forall₂_of_names hnames fun listed hlisted e he hname => ?_
  have hvalue := value?_of_mem (nodup_defaults _) hlisted
  rw [← hdefaults] at hvalue
  obtain ⟨slot, hslot, hslotname⟩ := exists_slot_of_value?_defaults hvalue
  rw [← hslotname, value?_defaults hfulfilled.ready hslot] at hvalue
  have hbound := get?_of_run_bindings hnodup (run_bindings es) e.name
  rw [value?_of_mem hnodup he, hname, ← hslotname, hfulfilled.finishes.value slot hslot] at hbound
  rw [← Option.some.inj hvalue, ← Option.some.inj hbound]
  exact hfulfilled.receives

/-- Whatever the arguments, if they match then the document can be listed, and what is recorded are
the listed names with their kinds, each once. If the names are apart, the values have the listed
shapes. -/
theorem leafNodes_of_recorded
    (h : applyWith doc argv config .record = .matched es) :
    ∃ d nodes, Document.read doc = .ok d ∧ leafNodes doc = .ok nodes ∧
      es.map Entry.label = nodes.map LeafNode.label ∧ (es.map Entry.name).Nodup ∧
      (d.expand.pattern.NamesApart d.options →
        List.Forall₂ (fun n e => n.valueKind.Receives e.value) nodes es) := by
  obtain ⟨es', hentries, hrun⟩ := applyWith_eq_matched h
  rw [run_record] at hrun
  obtain rfl := Except.ok.inj hrun
  obtain ⟨d, hread⟩ := exists_of_entries hentries
  have hlabels := labels_entries hread hentries
  refine ⟨d, d.expand.fix.defaults.map Entry.toNode, hread, ?_, ?_, ?_, fun hapart => ?_⟩
  · rw [leafNodes, hread]
    rfl
  · rw [hlabels, List.map_map]
    rfl
  · rw [names_of_labels hlabels]
    exact nodup_defaults _
  · rw [List.forall₂_map_left_iff]
    exact receives_entries hread hapart hentries

/-- A default that is replaced, an option that gets its first value, and a list. -/
theorem leafNodes_of_recorded_defaults :
    let doc := "Usage: prog [options] <in>...\nOptions: --out=<o>  To [default: x].\n  -l <n>\n"
    let argv := ["-l3", "a", "--out=y", "b"]
    ∃ es d nodes, applyWith doc argv {} .record = .matched es ∧ Document.read doc = .ok d ∧
      d.expand.pattern.NamesApart d.options ∧ leafNodes doc = .ok nodes ∧
      es.map Entry.label = nodes.map LeafNode.label ∧ (es.map Entry.name).Nodup ∧
      List.Forall₂ (fun n e => n.valueKind.Receives e.value) nodes es := by
  intro doc argv
  have hdoc : namesApart doc = true := by decide +kernel
  have hmatched : (applyWith doc argv {} .record).isMatched = true := by decide +kernel
  obtain ⟨d, hread, hapart⟩ := exists_of_namesApart hdoc
  cases h : applyWith doc argv {} .record with
  | matched es =>
    obtain ⟨d', nodes, hread', hnodes, hlabels, hnodup, hreceives⟩ := leafNodes_of_recorded h
    obtain rfl := Except.ok.inj (hread.symm.trans hread')
    exact ⟨es, d, nodes, rfl, hread, hapart, hnodes, hlabels, hnodup, hreceives hapart⟩
  | help text => simp [h, Outcome.isMatched] at hmatched
  | version text => simp [h, Outcome.isMatched] at hmatched
  | failed error => simp [h, Outcome.isMatched] at hmatched

end Synopsis
