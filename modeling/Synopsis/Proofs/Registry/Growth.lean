import Synopsis.Fault
import Synopsis.Proofs.Registry.Identity

/-!
# How the registry grows

Reading adds entries for names that no entry has yet: flags with a short name, and, in the usage
only, options with a long name. Old entries stay what and where they are, canonical references do
not change, and an entry that is alone with its names stays alone. A name that some entry has is
never introduced again, so looking it up keeps giving the same entries.
-/

namespace Synopsis

/-- What a reading can add: a flag with a letter or, from a usage, an option with a long name. -/
def OptionSpec.IsAddition (phase : Phase) (o : OptionSpec) : Prop :=
  ((∃ c, o.short = some (String.ofList ['-', c])) ∧ o.long = none ∧ o.arity = 0) ∨
    (phase = .language ∧ o.short = none ∧ o.long.isSome = true ∧ o.arity ≤ 1)

namespace Registry

inductive Grows (phase : Phase) (r : Registry) : Registry → Prop
  | refl : Grows phase r r
  | short {s} (c : Char) : Grows phase r s → s.shortIds (String.ofList ['-', c]) = [] →
      Grows phase r (s.push (.ofNames (some (String.ofList ['-', c])) none 0))
  | long {s} (name : String) (valued : Bool) : phase = .language → Grows phase r s →
      s.longIds name = [] →
      Grows phase r (s.push (.ofNames none (some name) (if valued then 1 else 0)))

variable {phase : Phase} {r s t : Registry} {id : OptionId}

/-- The new entry has a short or a long name that no entry has. -/
def Fresh (r : Registry) (o : OptionSpec) : Prop :=
  ∃ p : OptionSpec → Bool, (∀ a b : OptionSpec, a.short = b.short → a.long = b.long → p a = p b) ∧
    r.idsWhere p = [] ∧ p o = true

theorem fresh_short {short : String} {arity : Nat} (h : r.shortIds short = []) :
    r.Fresh (.ofNames (some short) none arity) :=
  ⟨_, fun _ _ hshort _ => by rw [hshort], h, beq_self_eq_true _⟩

theorem fresh_long {long : String} {arity : Nat} (h : r.longIds long = []) :
    r.Fresh (.ofNames none (some long) arity) :=
  ⟨_, fun _ _ _ hlong => by rw [hlong], h, beq_self_eq_true _⟩

structure Adds (r : Registry) (phase : Phase) (o : OptionSpec) : Prop where
  addition : o.IsAddition phase
  short : ∀ name, o.short = some name → r.shortIds name = []
  long : ∀ name, o.long = some name → r.longIds name = []

/-- What holds of the old registry and is kept by every addition holds of the new one. -/
theorem Grows.of_adds {P : Registry → Prop} (h : Grows phase r s) (hr : P r)
    (hpush : ∀ t o, t.Adds phase o → P t → P (t.push o)) : P s := by
  induction h with
  | refl => exact hr
  | short c _ hnew ih =>
    refine hpush _ _ ⟨.inl ⟨⟨c, rfl⟩, rfl, rfl⟩, fun name hname => ?_, nofun⟩ ih
    obtain rfl := Option.some.inj hname
    exact hnew
  | long name valued hphase _ hnew ih =>
    refine hpush _ _ ⟨.inr ⟨hphase, rfl, rfl, ?_⟩, nofun, fun other hother => ?_⟩ ih
    · cases valued with
      | true => exact Nat.le_refl 1
      | false => exact Nat.zero_le 1
    · obtain rfl := Option.some.inj hother
      exact hnew

theorem Adds.fresh {o : OptionSpec} (h : r.Adds phase o) : r.Fresh o := by
  rcases h.addition with ⟨⟨c, hshort⟩, -, -⟩ | ⟨-, -, hlong, -⟩
  · exact ⟨_, fun _ _ heq _ => by rw [heq], h.short _ hshort, beq_iff_eq.2 hshort⟩
  · obtain ⟨name, hname⟩ := Option.isSome_iff_exists.1 hlong
    exact ⟨_, fun _ _ _ heq => by rw [heq], h.long name hname, beq_iff_eq.2 hname⟩

theorem Grows.preserves {P : Registry → Prop} (h : Grows phase r s) (hr : P r)
    (hpush : ∀ t o, t.Fresh o → P t → P (t.push o)) : P s :=
  h.of_adds hr fun t o hadds => hpush t o hadds.fresh

theorem Grows.trans (h : Grows phase r s) (h' : Grows phase s t) : Grows phase r t := by
  induction h' with
  | refl => exact h
  | short c _ hnew ih => exact .short c ih hnew
  | long name valued hphase _ hnew ih => exact .long name valued hphase ih hnew

/-- The registry as an action leaves it, whether the action succeeds or fails. -/
def after {α : Type} (r : Registry) (x : EStateM Fault Registry α) : Registry :=
  match x.run r with
  | .ok _ s => s
  | .error _ s => s

theorem Grows.of_ok {α : Type} {x : EStateM Fault Registry α} {a : α}
    (h : Grows phase r (r.after x)) (hrun : x.run r = .ok a s) : Grows phase r s := by
  unfold after at h
  rw [hrun] at h
  exact h

theorem Grows.after_bind {α β : Type} {x : EStateM Fault Registry α}
    {f : α → EStateM Fault Registry β} (hx : Grows phase r (r.after x))
    (hf : ∀ a s, x.run r = .ok a s → Grows phase s (s.after (f a))) :
    Grows phase r (r.after (x >>= f)) := by
  cases hrun : x.run r with
  | ok a s =>
    have heq : r.after (x >>= f) = s.after (f a) := by
      unfold after
      rw [EStateM.run_bind, hrun]
    rw [heq]
    exact (hx.of_ok hrun).trans (hf a s hrun)
  | error fault s =>
    have heq : r.after (x >>= f) = r.after x := by
      unfold after
      rw [EStateM.run_bind, hrun]
    rw [heq]
    exact hx

theorem Grows.documentedIds_eq (h : Grows phase r s) : s.documentedIds = r.documentedIds :=
  h.preserves (P := fun s => s.documentedIds = r.documentedIds) rfl fun _ _ _ ih => ih

theorem Grows.size_le (h : Grows phase r s) : r.size ≤ s.size :=
  h.preserves (P := fun s => r.size ≤ s.size) (Nat.le_refl _) fun t o _ ih => by
    rw [size_push]
    omega

theorem Grows.spec_eq (h : Grows phase r s) (hid : id < r.size) : s.spec id = r.spec id := by
  refine (h.preserves (P := fun s => id < s.size ∧ s.spec id = r.spec id) ⟨hid, rfl⟩ ?_).2
  intro t o _ ⟨hlt, hspec⟩
  constructor
  · rw [size_push]
    exact Nat.lt_succ_of_lt hlt
  · rw [spec_push_of_lt hlt, hspec]

theorem Grows.sameIdentity_eq {i j : OptionId} (h : Grows phase r s) (hi : i < r.size)
    (hj : j < r.size) : s.sameIdentity i j = r.sameIdentity i j := by
  rw [Bool.eq_iff_iff, sameIdentity_iff, sameIdentity_iff, h.spec_eq hi, h.spec_eq hj]

theorem Grows.canonical_eq (h : Grows phase r s) (hid : id < r.size) :
    s.canonical id = r.canonical id := by
  obtain ⟨hlt, hsame, hleast⟩ := canonical_spec hid
  apply Registry.canonical_eq
  · exact Nat.lt_of_lt_of_le hlt h.size_le
  · rw [h.sameIdentity_eq hlt hid, hsame]
  · intro k hk
    have hklt : k < r.size := Nat.lt_trans hk hlt
    rw [h.sameIdentity_eq hklt hid, hleast k hk]

theorem Fresh.not_sameIdentity {o : OptionSpec} (h : r.Fresh o) (hid : id < r.size) :
    (r.push o).sameIdentity r.size id = false := by
  obtain ⟨p, hnames, hempty, ho⟩ := h
  rw [Bool.eq_false_iff]
  intro hsame
  obtain ⟨hshort, hlong⟩ := sameIdentity_iff.1 hsame
  rw [spec_push_size, spec_push_of_lt hid] at hshort hlong
  have hmem : id ∈ r.idsWhere p := mem_idsWhere.2 ⟨hid, (hnames _ _ hshort hlong).symm.trans ho⟩
  rw [hempty] at hmem
  exact List.not_mem_nil hmem

theorem Sole.push {o : OptionSpec} (h : r.Sole id) (ho : r.Fresh o) : (r.push o).Sole id := by
  refine ⟨?_, fun k hk hsame => ?_⟩
  · rw [size_push]
    exact Nat.lt_succ_of_lt h.lt
  · rw [size_push] at hk
    rcases Nat.lt_succ_iff_lt_or_eq.1 hk with hk | rfl
    · refine h.unique k hk ?_
      rw [sameIdentity_iff, spec_push_of_lt hk, spec_push_of_lt h.lt] at hsame
      exact sameIdentity_iff.2 hsame
    · rw [ho.not_sameIdentity h.lt] at hsame
      cases hsame

theorem Fresh.sole {o : OptionSpec} (ho : r.Fresh o) : (r.push o).Sole r.size := by
  refine ⟨?_, fun k hk hsame => ?_⟩
  · rw [size_push]
    exact Nat.lt_succ_self _
  · rw [size_push] at hk
    rcases Nat.lt_succ_iff_lt_or_eq.1 hk with hk | rfl
    · rw [sameIdentity_comm, ho.not_sameIdentity hk] at hsame
      cases hsame
    · rfl

theorem Sole.grows (h : r.Sole id) (hgrows : Grows phase r s) : s.Sole id :=
  hgrows.preserves (P := fun s => s.Sole id) h fun _ _ ho ih => ih.push ho

theorem idsWhere_push (r : Registry) (p : OptionSpec → Bool) (o : OptionSpec) :
    (r.push o).idsWhere p = r.idsWhere p ++ if p o = true then [r.size] else [] := by
  have hold : (List.range r.size).filter (fun id => p ((r.push o).spec id)) = r.idsWhere p :=
    List.filter_congr fun id hid => by rw [spec_push_of_lt (List.mem_range.1 hid)]
  rw [idsWhere, size_push, List.range_succ, List.filter_append, hold, List.filter_cons,
    spec_push_size, List.filter_nil]

theorem idsWhere_push_of_nil {p : OptionSpec → Bool} {o : OptionSpec} (hnew : r.idsWhere p = [])
    (ho : p o = true) : (r.push o).idsWhere p = [r.size] := by
  rw [idsWhere_push, hnew, if_pos ho, List.nil_append]

theorem shortIds_push {short : String} {arity : Nat} (hnew : r.shortIds short = []) :
    (r.push (.ofNames (some short) none arity)).shortIds short = [r.size] :=
  idsWhere_push_of_nil hnew (beq_self_eq_true _)

theorem longIds_push {long : String} {arity : Nat} (hnew : r.longIds long = []) :
    (r.push (.ofNames none (some long) arity)).longIds long = [r.size] :=
  idsWhere_push_of_nil hnew (beq_self_eq_true _)

/-- No entry is added to those with a property, if only the first entry with it can be new. -/
theorem Grows.idsWhere_eq {p : OptionSpec → Bool} (h : Grows phase r s)
    (hknown : r.idsWhere p ≠ [])
    (hshort : ∀ t : Registry, ∀ c, t.shortIds (String.ofList ['-', c]) = [] →
      p (.ofNames (some (String.ofList ['-', c])) none 0) = true → t.idsWhere p = [])
    (hlong : ∀ t : Registry, ∀ name arity, t.longIds name = [] →
      p (.ofNames none (some name) arity) = true → t.idsWhere p = []) :
    s.idsWhere p = r.idsWhere p := by
  induction h with
  | refl => rfl
  | @short s c _ hnew ih =>
    have hother : ¬ p (.ofNames (some (String.ofList ['-', c])) none 0) = true := fun ho =>
      hknown (ih.symm.trans (hshort s c hnew ho))
    rw [idsWhere_push, if_neg hother, List.append_nil, ih]
  | @long s name valued _ _ hnew ih =>
    have hother : ¬ p (.ofNames none (some name) (if valued then 1 else 0)) = true := fun ho =>
      hknown (ih.symm.trans (hlong s name _ hnew ho))
    rw [idsWhere_push, if_neg hother, List.append_nil, ih]

theorem Grows.shortIds_eq {short : String} (h : Grows phase r s) (hids : r.shortIds short = [id]) :
    s.shortIds short = [id] := by
  have hknown : r.shortIds short ≠ [] := hids ▸ List.cons_ne_nil _ _
  refine (h.idsWhere_eq hknown (fun t c hnew ho => ?_)
    fun t name arity _ ho => nomatch ho).trans hids
  obtain rfl := Option.some.inj (beq_iff_eq.1 ho)
  exact hnew

theorem Grows.longIds_eq {long : String} (h : Grows phase r s) (hids : r.longIds long = [id]) :
    s.longIds long = [id] := by
  have hknown : r.longIds long ≠ [] := hids ▸ List.cons_ne_nil _ _
  refine (h.idsWhere_eq hknown (fun t c _ ho => nomatch ho)
    fun t name arity hnew ho => ?_).trans hids
  obtain rfl := Option.some.inj (beq_iff_eq.1 ho)
  exact hnew

end Registry

end Synopsis
