import Synopsis.Application
import Synopsis.Proofs.Document
import Synopsis.Proofs.Entries
import Synopsis.Proofs.Matching.Settlement
import Synopsis.Proofs.Occurrence.Arguments

/-!
# Where the final values come from

If the arguments match, they have been read, the tree was ready for them and every occurrence was
taken. Each name of the tree is bound: to its default if its slot has taken nothing, and otherwise
to what its slot has gathered. No other name is bound.
-/

namespace Synopsis

open Entry

/-- The document whose tree the arguments are matched with, if reading them leaves these options. -/
def Document.prepared (d : Document) (options : Registry) : Document :=
  ({ d with options } : Document).expand.fix

def Slot.entry (options : Registry) (slot : Slot) : Entry :=
  ⟨slot.kind, slot.name options, slot.initial options⟩

def Occurrence.entry? (options : Registry) (x : Occurrence) : Option Entry :=
  (x.name? options).map fun name => ⟨x.kind, name, x.value⟩

variable {d : Document} {doc name : String} {argv : List String} {config : Config}
  {options : Registry} {b : Bindings} {es : List Entry} {arguments collected : List Occurrence}

theorem defaults_eq (d : Document) :
    d.defaults = overlayAll (d.pattern.slots.map (Slot.entry d.options)) [] := by
  rw [overlayAll, List.foldl_map]
  rfl

theorem conclude_eq_matched (h : d.conclude arguments = .matched es) :
    (Matching.run d.fix.options d.fix.pattern arguments).isComplete = true ∧
      es = overlayAll ((Matching.run d.fix.options d.fix.pattern arguments).collected.filterMap
        (Occurrence.entry? d.fix.options)) d.fix.defaults := by
  unfold Document.conclude at h
  by_cases hcomplete : (Matching.run d.fix.options d.fix.pattern arguments).isComplete = true
  · simp only [if_pos hcomplete, Outcome.matched.injEq] at h
    refine ⟨hcomplete, ?_⟩
    rw [← h, overlayAll, List.foldl_filterMap]
    congr
    funext entries x
    unfold Occurrence.entry?
    cases x.name? d.fix.options <;> rfl
  · simp only [if_neg hcomplete] at h
    cases h

theorem entries_of_unreadable {fault : Fault} (hread : Document.read doc = .error fault)
    (argv : List String) (config : Config) :
    entries doc argv config = .failed (.ofPhase .language fault) := by
  unfold entries
  simp only [hread]

/-- A usage that the reader gives up fails in the phase of the tokens that were being read. -/
theorem entries_of_misread_usage {usage formal : String} {fault : Fault}
    (husage : Layout.usageSection doc = .ok usage) (hformal : Usage.formal usage = .ok formal)
    (hpattern : (Usage.readPattern formal).run (.ofDocumented (Layout.describedOptions doc)) =
      .error fault options) (argv : List String) (config : Config) :
    entries doc argv config = .failed ((Usage.Tokens.ofPattern formal).error fault) := by
  have hread : Document.read doc = .error fault := by
    unfold Document.read
    simp only [husage, hformal, hpattern, bind, Except.bind]
    rfl
  exact entries_of_unreadable hread argv config

theorem entries_of_misread {fault : Fault} (config : Config) (hread : Document.read doc = .ok d)
    (harguments :
      (Occurrence.readArguments config.optionsFirst argv).run d.options = .error fault options) :
    entries doc argv config =
      .failed (((Usage.Tokens.ofArguments argv).error fault).withUsage d.usage) := by
  let tokens := Usage.Tokens.ofArguments argv
  have htokens : (tokens.readWith (Occurrence.readArguments config.optionsFirst)).run d.options =
      .error (tokens.error fault) options := Usage.Tokens.readWith_of_error harguments
  unfold entries
  simp only [hread, tokens, htokens]

/-- When all is read, help is decided first, then the version, and only then the match. -/
theorem entries_of_read (config : Config) (hread : Document.read doc = .ok d)
    (harguments :
      (Occurrence.readArguments config.optionsFirst argv).run d.options = .ok arguments options) :
    entries doc argv config =
      if config.help && requested options ["-h", "--help"] arguments then .help doc
      else
        (config.version.filter fun _ => requested options ["--version"] arguments).elim
          (({ d with options } : Document).expand.conclude arguments) .version := by
  let tokens := Usage.Tokens.ofArguments argv
  have htokens : (tokens.readWith (Occurrence.readArguments config.optionsFirst)).run d.options =
      .ok arguments options := Usage.Tokens.readWith_of_ok harguments
  unfold entries
  simp only [hread, tokens, htokens]
  cases config.version with
  | none => rfl
  | some text => cases requested options ["--version"] arguments <;> rfl

theorem exists_of_entries (h : entries doc argv config = .matched es) :
    ∃ d, Document.read doc = .ok d := by
  cases hread : Document.read doc with
  | error fault =>
    rw [entries_of_unreadable hread] at h
    cases h
  | ok d => exact ⟨d, rfl⟩

theorem entries_eq_matched (hread : Document.read doc = .ok d)
    (h : entries doc argv config = .matched es) :
    ∃ arguments options,
      (Occurrence.readArguments config.optionsFirst argv).run d.options = .ok arguments options ∧
        ({ d with options } : Document).expand.conclude arguments = .matched es := by
  cases hrun : (Occurrence.readArguments config.optionsFirst argv).run d.options with
  | error fault options =>
    rw [entries_of_misread config hread hrun] at h
    cases h
  | ok arguments options =>
    refine ⟨arguments, options, rfl, ?_⟩
    rw [entries_of_read config hread hrun] at h
    by_cases hhelp : (config.help && requested options ["-h", "--help"] arguments) = true
    · rw [if_pos hhelp] at h
      cases h
    · rw [if_neg hhelp] at h
      cases hversion : config.version.filter fun _ => requested options ["--version"] arguments with
      | none => rwa [hversion] at h
      | some text =>
        rw [hversion] at h
        cases h

theorem applyWith_eq_matched {σ : Type} {a : Accumulator σ} {result : σ}
    (h : applyWith doc argv config a = .matched result) :
    ∃ es, entries doc argv config = .matched es ∧ a.run es = .ok result := by
  unfold applyWith Outcome.andThen at h
  split at h
  · next es hes =>
    refine ⟨es, hes, ?_⟩
    split at h
    · next result' hrun => rw [hrun, Outcome.matched.inj h]
    · cases h
  · cases h
  · cases h
  · cases h

theorem applyWith_of_entries {σ : Type} {a : Accumulator σ} {result : σ}
    (h : entries doc argv config = .matched es) (hrun : a.run es = .ok result) :
    applyWith doc argv config a = .matched result := by
  unfold applyWith Outcome.andThen
  simp only [h, hrun]

def namesApart (doc : String) : Bool :=
  match Document.read doc with
  | .ok d => decide (d.expand.pattern.NamesApart d.options)
  | .error _ => false

theorem exists_of_namesApart (h : namesApart doc = true) :
    ∃ d, Document.read doc = .ok d ∧ d.expand.pattern.NamesApart d.options := by
  unfold namesApart at h
  cases hread : Document.read doc with
  | error fault => simp [hread] at h
  | ok d =>
    simp only [hread] at h
    exact ⟨d, rfl, of_decide_eq_true h⟩

theorem exists_of_matched? {l : List (String × Value)}
    (h : (apply doc argv config).matched?.map Bindings.toList = some l) :
    ∃ b, apply doc argv config = .matched b ∧ b.toList = l := by
  cases ho : apply doc argv config with
  | matched b =>
    simp only [ho] at h
    exact ⟨b, rfl, Option.some.inj h⟩
  | help text => simp [ho, Outcome.matched?] at h
  | version text => simp [ho, Outcome.matched?] at h
  | failed error => simp [ho, Outcome.matched?] at h

theorem valuesOf_filterMap (options : Registry) (name : String) (collected : List Occurrence) :
    valuesOf name (collected.filterMap (Occurrence.entry? options)) =
      Matching.valuesUnder options name collected := by
  induction collected with
  | nil => rfl
  | cons x xs ih =>
    cases hx : x.name? options with
    | none =>
      have hentry : x.entry? options = none := by rw [Occurrence.entry?, hx, Option.map_none]
      rw [List.filterMap_cons_none hentry, ih, Matching.valuesUnder_cons_of_ne (by simp [hx])]
    | some other =>
      have hentry : x.entry? options = some ⟨x.kind, other, x.value⟩ := by
        rw [Occurrence.entry?, hx, Option.map_some]
      rw [List.filterMap_cons_some hentry]
      by_cases hname : other = name
      · subst hname
        have hfound : Entry.name ⟨x.kind, other, x.value⟩ = other := rfl
        rw [valuesOf_cons_self hfound, ih, Matching.valuesUnder_cons_self hx]
      · have hne : x.name? options ≠ some name := by simpa [hx] using hname
        rw [valuesOf_cons_of_ne hname, ih, Matching.valuesUnder_cons_of_ne hne]

def Value.final (initial : Value) (bound : List Value) : Value :=
  if bound = [] then initial else initial.gather bound

theorem getLast?_gathered (initial : Value) (bound : List Value) :
    (Matching.gathered initial bound).getLast?.or (some initial) = some (initial.final bound) := by
  unfold Matching.gathered Value.final
  by_cases h : bound = []
  · rw [if_pos h, if_pos h]
    rfl
  · rw [if_neg h, if_neg h]
    rfl

theorem value?_defaults (hready : d.pattern.Ready d.options) {slot : Slot}
    (hslot : slot ∈ d.pattern.slots) :
    value? (slot.name d.options) d.defaults = some (slot.initial d.options) := by
  rw [defaults_eq, value?_overlayAll, value?, Option.or_none]
  have hvalues : ∀ v ∈ valuesOf (slot.name d.options) (d.pattern.slots.map (Slot.entry d.options)),
      v = slot.initial d.options := by
    intro v hv
    obtain ⟨e, he, rfl⟩ := List.mem_map.1 hv
    obtain ⟨he, hname⟩ := List.mem_filter.1 he
    obtain ⟨other, hother, rfl⟩ := List.mem_map.1 he
    rw [hready.unique slot hslot other hother (of_decide_eq_true hname).symm]
    rfl
  have hne : valuesOf (slot.name d.options) (d.pattern.slots.map (Slot.entry d.options)) ≠ [] := by
    have hentry : slot.entry d.options ∈ d.pattern.slots.map (Slot.entry d.options) :=
      List.mem_map_of_mem hslot
    have hfound : slot.entry d.options ∈ (d.pattern.slots.map (Slot.entry d.options)).filter
        (·.name = slot.name d.options) := List.mem_filter.2 ⟨hentry, decide_eq_true rfl⟩
    exact List.ne_nil_of_mem (List.mem_map_of_mem (f := Entry.value) hfound)
  rw [List.getLast?_eq_some_getLast hne, hvalues _ (List.getLast_mem hne)]

theorem exists_slot_of_value?_defaults {v : Value} (h : value? name d.defaults = some v) :
    ∃ slot ∈ d.pattern.slots, slot.name d.options = name := by
  rw [defaults_eq, value?_overlayAll, value?, Option.or_none] at h
  obtain ⟨e, he, -⟩ := List.mem_map.1 (List.mem_of_getLast? h)
  obtain ⟨he, hname⟩ := List.mem_filter.1 he
  obtain ⟨slot, hslot, rfl⟩ := List.mem_map.1 he
  exact ⟨slot, hslot, of_decide_eq_true hname⟩

/-- What a complete match has bound in the end. -/
structure Finishes (fixed : Document) (ks : List Matching.Taking) (b : Bindings) : Prop where
  value : ∀ slot ∈ fixed.pattern.slots, b.get? (slot.name fixed.options) =
    some ((slot.initial fixed.options).final (Matching.history slot ks))
  named : ∀ name v, b.get? name = some v →
    ∃ slot ∈ fixed.pattern.slots, slot.name fixed.options = name

theorem Matching.Settles.finishes {ks : List Taking} (hready : d.pattern.Ready d.options)
    (h : Settles d.options d.pattern arguments ks collected)
    (hrun : Accumulator.bindings.run (overlayAll
      (collected.filterMap (Occurrence.entry? d.options)) d.defaults) = .ok b) :
    Finishes d ks b := by
  have hnodup : ((overlayAll (collected.filterMap (Occurrence.entry? d.options))
      d.defaults).map Entry.name).Nodup := by
    refine nodup_overlayAll _ ?_
    rw [defaults_eq]
    exact nodup_overlayAll _ (by simp)
  have hget (name : String) : b.get? name =
      (valuesUnder d.options name collected).getLast?.or (value? name d.defaults) := by
    rw [get?_of_run_bindings hnodup hrun, value?_overlayAll, valuesOf_filterMap]
  refine ⟨fun slot hslot => ?_, fun name v hv => ?_⟩
  · rw [hget, value?_defaults hready hslot, h.values slot hslot, getLast?_gathered]
  · rw [hget, Option.or_eq_some_iff] at hv
    rcases hv with hcollected | ⟨-, hdefault⟩
    · obtain ⟨x, hx, -⟩ := List.mem_map.1 (List.mem_of_getLast? hcollected)
      obtain ⟨hx, hname⟩ := List.mem_filter.1 hx
      obtain ⟨slot, hslot, hslotname⟩ := h.named x hx
      exact ⟨slot, hslot, Option.some.inj (hslotname.symm.trans (of_decide_eq_true hname))⟩
    · exact exists_slot_of_value?_defaults hdefault

/-- How arguments that match have been taken and bound. -/
structure Fulfilled (d : Document) (options : Registry) (arguments : List Occurrence)
    (ks : List Matching.Taking) (collected : List Occurrence) (b : Bindings) : Prop where
  resolved : ∀ x ∈ arguments, x.Resolved options
  plain : options.Plain
  fixed : ∀ slot ∈ (d.prepared options).pattern.slots, slot.IsFixed options
  ready : (d.prepared options).pattern.Ready (d.prepared options).options
  settles : Matching.Settles (d.prepared options).options (d.prepared options).pattern arguments ks
    collected
  finishes : Finishes (d.prepared options) ks b

theorem exists_fulfilled (hread : Document.read doc = .ok d)
    (hapart : d.expand.pattern.NamesApart d.options)
    (hmatched : apply doc argv config = .matched b) :
    ∃ arguments options,
      (Occurrence.readArguments config.optionsFirst argv).run d.options = .ok arguments options ∧
        ∃ ks collected, Fulfilled d options arguments ks collected b := by
  obtain ⟨es, hentries, hrun⟩ := applyWith_eq_matched hmatched
  obtain ⟨arguments, options, harguments, hconclude⟩ := entries_eq_matched hread hentries
  obtain ⟨hgrows, hresolved⟩ := Occurrence.readArguments_spec harguments
  have hsound := Document.sound_of_read hread
  have hlarger := hsound.grows hgrows
  have hready := hsound.ready_expand_grows hapart hgrows
  obtain ⟨hcomplete, rfl⟩ := conclude_eq_matched hconclude
  obtain ⟨ks, hsettles⟩ := Matching.exists_settles hready hcomplete
  exact ⟨arguments, options, harguments, ks, _, hresolved, hlarger.plain,
    fun _ => hlarger.expand.formed.isFixed, hready, hsettles, hsettles.finishes hready hrun⟩

end Synopsis
