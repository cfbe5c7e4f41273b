import Synopsis.Document
import Synopsis.Proofs.Pattern.Shortcut
import Synopsis.Proofs.Usage.Reader

/-!
# Documents that have been read

Reading a document gives a well-formed tree over a registry whose defaults fit the arities. This
stays so when the arguments add options to the registry, and when the shortcut is expanded; and
fixing then makes the tree ready, if its names are apart.
-/

namespace Synopsis

/-- The default fits the arity: a text or nothing if the option takes a value, and else a flag. -/
def OptionSpec.Suited (o : OptionSpec) : Prop :=
  if o.takesValue then o.value.kind = .absent ∨ o.value.kind = .text else o.value.kind = .flag

/-- Every default fits its arity. So none is a list or a count yet. -/
def Registry.Plain (r : Registry) : Prop :=
  ∀ o ∈ r.entries, o.Suited

namespace OptionSpec

theorem suited_ofNames (short long : Option String) (arity : Nat) :
    (ofNames short long arity).Suited := by
  by_cases h : arity = 0
  · simp [Suited, ofNames, takesValue, h, Value.kind]
  · simp [Suited, ofNames, takesValue, h, Nat.pos_of_ne_zero h, Value.kind]

theorem suited_ofDescription (description : String) : (ofDescription description).Suited := by
  unfold ofDescription
  generalize splitNames (Text.trim description.toList) = parts
  obtain ⟨names, text⟩ := parts
  dsimp only
  cases default? text with
  | some value => exact .inr rfl
  | none => exact suited_ofNames _ _ _

theorem Suited.scalar {o : OptionSpec} (h : o.Suited) : o.value.accumulates = false := by
  unfold Suited at h
  cases hvalue : o.value with
  | absent => rfl
  | flag on => rfl
  | text s => rfl
  | items l => simp [hvalue, Value.kind] at h
  | count n => simp [hvalue, Value.kind] at h

end OptionSpec

namespace Registry

variable {phase : Phase} {r s : Registry}

theorem plain_ofDocumented (doc : String) : (ofDocumented (Layout.describedOptions doc)).Plain := by
  intro o ho
  obtain ⟨_, -, ho⟩ := List.mem_flatMap.1 ho
  obtain ⟨cs, -, rfl⟩ := List.mem_map.1 ho
  exact OptionSpec.suited_ofDescription _

theorem Plain.push {o : OptionSpec} (h : r.Plain) (ho : o.Suited) : (r.push o).Plain :=
  List.forall_mem_append.2 ⟨h, fun _ hx => List.mem_singleton.1 hx ▸ ho⟩

theorem Plain.grows (h : r.Plain) (hgrows : r.Grows phase s) : s.Plain := by
  induction hgrows with
  | refl => exact h
  | short c _ _ ih => exact ih.push (OptionSpec.suited_ofNames _ _ _)
  | long name valued _ _ _ ih => exact ih.push (OptionSpec.suited_ofNames _ _ _)

theorem Plain.suited_spec (h : r.Plain) (id : OptionId) : (r.spec id).Suited := by
  unfold spec
  cases hentry : r.entries[id]? with
  | none => exact OptionSpec.suited_ofNames none none 0
  | some o => exact h o (List.mem_of_getElem? hentry)

end Registry

namespace Document

structure Sound (d : Document) : Prop where
  formed : d.pattern.WellFormed d.options
  plain : d.options.Plain

variable {phase : Phase} {d : Document} {s : Registry}

theorem read_spec {doc : String} (h : read doc = .ok d) :
    Layout.usageSection doc = .ok d.usage ∧ ∃ formal, Usage.formal d.usage = .ok formal ∧
      (Usage.readPattern formal).run (.ofDocumented (Layout.describedOptions doc)) =
        .ok d.pattern d.options := by
  unfold read at h
  cases husage : Layout.usageSection doc with
  | error fault => simp [husage, bind, Except.bind] at h
  | ok usage =>
    cases hformal : Usage.formal usage with
    | error fault => simp [husage, hformal, bind, Except.bind] at h
    | ok formal =>
      simp only [husage, hformal, bind, Except.bind] at h
      split at h
      · next pattern options hread =>
        obtain rfl := Except.ok.inj h
        exact ⟨rfl, formal, hformal, hread⟩
      · cases h

theorem sound_of_read {doc : String} (h : read doc = .ok d) : d.Sound := by
  obtain ⟨-, formal, -, hread⟩ := read_spec h
  obtain ⟨hgrows, hformed⟩ := Usage.readPattern_spec hread
  exact ⟨hformed, (Registry.plain_ofDocumented doc).grows hgrows⟩

/-- There is a program to be named in the usage, so it is not empty. -/
theorem usage_ne_empty_of_read {doc : String} (h : read doc = .ok d) : d.usage ≠ "" := by
  obtain ⟨-, formal, hformal, -⟩ := read_spec h
  intro hempty
  rw [hempty] at hformal
  cases hformal

namespace Sound

theorem grows (h : d.Sound) (hgrows : d.options.Grows phase s) :
    Sound { d with options := s } :=
  ⟨h.formed.grows hgrows, h.plain.grows hgrows⟩

theorem expand (h : d.Sound) : d.expand.Sound :=
  ⟨h.formed.expandShortcut, h.plain⟩

/-- The arguments have no influence on the tree. -/
theorem pattern_expand_grows (h : d.Sound) (hgrows : d.options.Grows phase s) :
    (Document.expand { d with options := s }).pattern = d.expand.pattern :=
  h.formed.expandShortcut_grows hgrows

theorem ready (h : d.Sound) (hapart : d.pattern.NamesApart d.options) :
    d.fix.pattern.Ready d.fix.options :=
  h.formed.ready hapart

theorem ready_expand_grows (h : d.Sound) (hapart : d.expand.pattern.NamesApart d.options)
    (hgrows : d.options.Grows phase s) :
    let fixed := (Document.expand { d with options := s }).fix
    fixed.pattern.Ready fixed.options := by
  refine (h.grows hgrows).expand.ready ?_
  rw [h.pattern_expand_grows hgrows]
  exact hapart.grows h.expand.formed hgrows

end Sound

end Document

end Synopsis
