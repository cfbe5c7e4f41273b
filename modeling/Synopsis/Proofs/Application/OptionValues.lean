import Synopsis.Proofs.Application.Outcome

/-!
# The values of options

The options among the arguments go to the options of the tree by identity. A list has all texts
that were given for its option, a count their number, and any other option was given at most one
value, which it has. Without a value in the arguments an option keeps its default.
-/

namespace Synopsis

def Occurrence.givenTo (options : Registry) (id : OptionId) (arguments : List Occurrence) :
    List Value :=
  (arguments.filter (isOption options id)).map value

/-- The value follows from the default of an option and the values that it was given. -/
def Value.Follows (initial : Value) (given : List Value) (v : Value) : Prop :=
  (given = [] → v = initial) ∧
    (given ≠ [] → match initial with
      | .items _ => ∃ texts : List String, given = texts.map .text ∧ v = .items texts
      | .count _ => v = .count given.length
      | _ => given = [v])

theorem Value.eq_map_text {vs : List Value} (h : ∀ v ∈ vs, ∃ s, v = .text s) :
    vs = (vs.flatMap addition).map .text := by
  induction vs with
  | nil => rfl
  | cons v vs ih =>
    obtain ⟨⟨s, rfl⟩, hrest⟩ := List.forall_mem_cons.1 h
    rw [List.flatMap_cons, List.map_append, ← ih hrest]
    rfl

theorem Value.follows_final {initial : Value} {given : List Value}
    (htexts : (∃ l, initial = .items l) → ∀ v ∈ given, ∃ s, v = .text s)
    (honce : initial.accumulates = false → given.length ≤ 1) :
    initial.Follows given (initial.final given) := by
  refine ⟨fun hnil => if_pos hnil, fun hne => ?_⟩
  have single (hscalar : initial.accumulates = false) : given = [given.head?.getD initial] := by
    match given, hne, honce hscalar with
    | [v], _, _ => rfl
  rw [Value.final, if_neg hne]
  cases initial with
  | items l => exact ⟨given.flatMap addition, eq_map_text (htexts ⟨l, rfl⟩), rfl⟩
  | count n => rfl
  | absent => exact single rfl
  | flag on => exact single rfl
  | text s => exact single rfl

namespace Matching.Settles

variable {options : Registry} {p : Pattern} {arguments collected : List Occurrence}
  {ks : List Taking} {id : OptionId}

theorem slot_eq_option_iff (hready : p.Ready options)
    (h : Settles options p arguments ks collected) (hslot : .option id ∈ p.slots) {k : Taking}
    (hk : k ∈ ks) : k.slot = .option id ↔ k.given.isOption options id = true := by
  have hfits := h.fits k hk
  constructor
  · intro hoption
    have hlane := hfits.lane
    rw [hoption] at hlane
    exact hlane
  · intro hoption
    obtain ⟨other, v, hgiven, hid⟩ := Occurrence.isOption_iff.1 hoption
    obtain ⟨j, hj, hjsame⟩ := hfits.exists_option hgiven
    have hother : options.sameIdentity other j = true :=
      options.sameIdentity_comm j other ▸ hjsame
    have hname := Registry.name_eq_of_sameIdentity (Registry.sameIdentity_trans hid hother)
    refine hready.unique _ (h.slots k hk) _ hslot ?_
    rw [hj]
    exact hname.symm

theorem history_option (hready : p.Ready options)
    (h : Settles options p arguments ks collected) (hslot : .option id ∈ p.slots) :
    history (.option id) ks = Occurrence.givenTo options id arguments := by
  have hlane : (ks.map Taking.given).filter (Occurrence.isOption options id) =
      arguments.filter (Occurrence.isOption options id) := h.lanes (.option id)
  have hfilter : ks.filter (fun k => k.slot = .option id) =
      ks.filter fun k => k.given.isOption options id := by
    refine List.filter_congr fun k hk => ?_
    rw [Bool.eq_iff_iff, decide_eq_true_iff]
    exact h.slot_eq_option_iff hready hslot hk
  unfold history Occurrence.givenTo
  rw [← hlane, hfilter, List.filter_map, List.map_map]
  refine List.map_congr_left fun k hk => ?_
  obtain ⟨hk, hgiven⟩ := List.mem_filter.1 hk
  unfold Taking.value
  rw [(h.slot_eq_option_iff hready hslot hk).2 hgiven]
  rfl

theorem exists_option (h : Settles options p arguments ks collected) {x : Occurrence}
    (hx : x ∈ arguments) (hkind : x.kind = .option) :
    ∃ id, .option id ∈ p.slots ∧ x.isOption options id = true := by
  cases x with
  | argument name v => cases hkind
  | command name v => cases hkind
  | option i v =>
    have hself : (Lane.option i).has options (.option i v) = true := options.sameIdentity_self i
    have hmem := List.mem_filter.2 ⟨hx, hself⟩
    rw [← h.lanes (.option i)] at hmem
    obtain ⟨k, hk, hgiven⟩ := List.mem_map.1 (List.mem_filter.1 hmem).1
    obtain ⟨id, hid, hsame⟩ := (h.fits k hk).exists_option hgiven
    exact ⟨id, hid ▸ h.slots k hk, hsame⟩

end Matching.Settles

variable {d : Document} {doc : String} {argv : List String} {config : Config} {options : Registry}
  {b : Bindings} {arguments collected : List Occurrence} {ks : List Matching.Taking} {id : OptionId}

theorem Fulfilled.admits (h : Fulfilled d options arguments ks collected b)
    (hslot : .option id ∈ (d.prepared options).pattern.slots) {x : Occurrence} (hx : x ∈ arguments)
    (hoption : x.isOption (d.prepared options).options id = true) :
    (options.spec id).admits x.value = true := by
  have hlt : id < options.size := h.fixed _ hslot
  obtain ⟨other, v, rfl, hsame⟩ := Occurrence.isOption_iff.1 hoption
  obtain ⟨hsole, hadmits⟩ := h.resolved _ hx
  have hid : options.sameIdentity id other = true := by
    rw [← Pattern.sameIdentity_fix]
    exact hsame
  obtain rfl := hsole.unique id hlt hid
  exact hadmits

theorem Fulfilled.texts_of_items (h : Fulfilled d options arguments ks collected b)
    (hslot : .option id ∈ (d.prepared options).pattern.slots) {l : List String}
    (hitems : ((d.prepared options).options.spec id).value = .items l) :
    ∀ v ∈ Occurrence.givenTo (d.prepared options).options id arguments, ∃ s, v = .text s := by
  intro v hv
  obtain ⟨x, hx, rfl⟩ := List.mem_map.1 hv
  obtain ⟨hx, hoption⟩ := List.mem_filter.1 hx
  have hvalued : (options.spec id).takesValue = true :=
    Pattern.takesValue_of_items _ (h.fixed _ hslot) (h.plain.suited_spec id).scalar hitems
  exact OptionSpec.exists_text_of_admits (h.admits hslot hx hoption) hvalued

/-- No value that is given to an option is lost, repeated, moved or replaced by another one. -/
structure OptionsConserved (d : Document) (options : Registry) (arguments : List Occurrence)
    (b : Bindings) : Prop where
  value : ∀ id, .option id ∈ (d.prepared options).pattern.slots →
    ∃ v, b.get? ((d.prepared options).options.name id) = some v ∧
      ((d.prepared options).options.spec id).value.Follows
        (Occurrence.givenTo (d.prepared options).options id arguments) v
  known : ∀ x ∈ arguments, x.kind = .option →
    ∃ id, .option id ∈ (d.prepared options).pattern.slots ∧
      x.isOption (d.prepared options).options id = true

theorem Fulfilled.optionsConserved (h : Fulfilled d options arguments ks collected b) :
    OptionsConserved d options arguments b := by
  refine ⟨fun id hslot => ?_, fun x => h.settles.exists_option⟩
  have hhistory := h.settles.history_option h.ready hslot
  have honce := h.settles.once _ hslot
  have hvalue := h.finishes.value _ hslot
  rw [hhistory] at honce hvalue
  have htexts : (∃ l, (Slot.option id).initial (d.prepared options).options = .items l) →
      ∀ v ∈ Occurrence.givenTo (d.prepared options).options id arguments, ∃ s, v = .text s := by
    rintro ⟨l, hitems⟩
    exact h.texts_of_items hslot hitems
  exact ⟨_, hvalue, Value.follows_final htexts honce⟩

/-- Whatever the arguments, if they match then they could be read, and each option of the tree has
the value that follows from its default and from what they give to it. -/
theorem optionsConserved_of_matched (hread : Document.read doc = .ok d)
    (hapart : d.expand.pattern.NamesApart d.options)
    (hmatched : apply doc argv config = .matched b) :
    ∃ arguments options,
      (Occurrence.readArguments config.optionsFirst argv).run d.options = .ok arguments options ∧
        OptionsConserved d options arguments b := by
  obtain ⟨arguments, options, harguments, ks, collected, h⟩ :=
    exists_fulfilled hread hapart hmatched
  exact ⟨arguments, options, harguments, h.optionsConserved⟩

/-- A list without its default, a count, and an option that is not given. -/
theorem optionsConserved_repeated_path :
    let doc := "Usage: prog [--out=<o>] [-v | --path=<p>]...\n" ++
      "Options: --path=<p>  In [default: a].\n"
    let argv := ["-v", "--path=b", "--pa", "c", "-v"]
    let values := [("--out", .absent), ("--path", .items ["b", "c"]), ("-v", .count 2)]
    ∃ d b, Document.read doc = .ok d ∧ d.expand.pattern.NamesApart d.options ∧
      apply doc argv {} = .matched b ∧ b.toList = values ∧
      ∃ arguments options,
        (Occurrence.readArguments false argv).run d.options = .ok arguments options ∧
          OptionsConserved d options arguments b := by
  intro doc argv values
  have hdoc : namesApart doc = true := by decide +kernel
  have hvalues : (apply doc argv {}).matched?.map Bindings.toList = some values := by
    decide +kernel
  obtain ⟨d, hread, hapart⟩ := exists_of_namesApart hdoc
  obtain ⟨b, hmatched, hb⟩ := exists_of_matched? hvalues
  exact ⟨d, b, hread, hapart, hmatched, hb, optionsConserved_of_matched hread hapart hmatched⟩

end Synopsis
