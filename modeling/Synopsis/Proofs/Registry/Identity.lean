import Synopsis.Registry

/-!
# Identities in the registry

Several entries can have the same names. The first of them is canonical, and references to entries
of one identity have one canonical reference. A look-up by a name that finds a single entry has
found the only entry of its identity.
-/

namespace Synopsis.Registry

variable {r : Registry} {i j id : OptionId}

theorem sameIdentity_eq (r : Registry) (i j : OptionId) :
    (r.spec i).sameIdentity (r.spec j) = r.sameIdentity i j := by
  rw [Bool.eq_iff_iff, sameIdentity_iff]
  simp [OptionSpec.sameIdentity]

theorem sameIdentity_self (r : Registry) (id : OptionId) : r.sameIdentity id id = true :=
  sameIdentity_iff.2 ⟨rfl, rfl⟩

theorem name_eq_of_sameIdentity (h : r.sameIdentity i j = true) : r.name i = r.name j := by
  obtain ⟨hshort, hlong⟩ := sameIdentity_iff.1 h
  unfold name OptionSpec.name
  rw [hshort, hlong]

theorem find?_sameIdentity_eq_some_iff :
    ((List.range r.size).find? fun k => (r.spec k).sameIdentity (r.spec id)) = some i ↔
      r.sameIdentity i id = true ∧ i < r.size ∧ ∀ k < i, r.sameIdentity k id = false := by
  simp only [List.find?_range_eq_some, sameIdentity_eq, List.mem_range, Bool.not_eq_true']

theorem canonical_eq (hi : i < r.size) (hsame : r.sameIdentity i id = true)
    (hleast : ∀ k < i, r.sameIdentity k id = false) : r.canonical id = i := by
  unfold canonical
  rw [find?_sameIdentity_eq_some_iff.2 ⟨hsame, hi, hleast⟩, Option.getD_some]

theorem canonical_spec (hid : id < r.size) :
    r.canonical id < r.size ∧ r.sameIdentity (r.canonical id) id = true ∧
      ∀ k < r.canonical id, r.sameIdentity k id = false := by
  unfold canonical
  cases hfind : (List.range r.size).find? fun k => (r.spec k).sameIdentity (r.spec id) with
  | none =>
    rw [List.find?_eq_none] at hfind
    have hself := hfind id (List.mem_range.2 hid)
    rw [sameIdentity_eq] at hself
    exact absurd (r.sameIdentity_self id) hself
  | some i =>
    obtain ⟨hsame, hi, hleast⟩ := find?_sameIdentity_eq_some_iff.1 hfind
    exact ⟨hi, hsame, hleast⟩

theorem canonical_eq_canonical_iff (hi : i < r.size) (hj : j < r.size) :
    r.canonical i = r.canonical j ↔ r.sameIdentity i j = true := by
  obtain ⟨hlt, hsame, hleast⟩ := canonical_spec hi
  constructor
  · intro h
    obtain ⟨-, hsame', -⟩ := canonical_spec hj
    rw [r.sameIdentity_comm] at hsame
    exact sameIdentity_trans hsame (h ▸ hsame')
  · intro h
    refine (canonical_eq hlt (sameIdentity_trans hsame h) fun k hk => ?_).symm
    rw [Bool.eq_false_iff]
    intro hkj
    rw [r.sameIdentity_comm] at h
    exact Bool.eq_false_iff.1 (hleast k hk) (sameIdentity_trans hkj h)

theorem canonical_canonical (hid : id < r.size) :
    r.canonical (r.canonical id) = r.canonical id := by
  obtain ⟨hlt, hsame, -⟩ := canonical_spec hid
  exact (canonical_eq_canonical_iff hlt hid).2 hsame

theorem name_canonical (hid : id < r.size) : r.name (r.canonical id) = r.name id :=
  name_eq_of_sameIdentity (canonical_spec hid).2.1

theorem idsWhere_eq_singleton {p : OptionSpec → Bool} (hid : id < r.size)
    (hp : p (r.spec id) = true) (honly : ∀ k < r.size, p (r.spec k) = true → k = id) :
    r.idsWhere p = [id] := by
  have hnodup : (r.idsWhere p).Nodup := List.Pairwise.filter _ List.nodup_range
  have hone : [id].Nodup := List.pairwise_singleton _ id
  refine ((List.perm_ext_iff_of_nodup hnodup hone).2 fun k => ?_).eq_singleton
  rw [mem_idsWhere, List.mem_singleton]
  constructor
  · rintro ⟨hk, hpk⟩
    exact honly k hk hpk
  · rintro rfl
    exact ⟨hid, hp⟩

theorem idsWhere_eq_nil {p : OptionSpec → Bool} (h : ∀ k < r.size, ¬ p (r.spec k) = true) :
    r.idsWhere p = [] :=
  List.filter_eq_nil_iff.2 fun k hk => h k (List.mem_range.1 hk)

structure Unambiguous (r : Registry) : Prop where
  short : ∀ i < r.size, ∀ j < r.size, (r.spec i).short = (r.spec j).short →
    (r.spec i).short.isSome = true → i = j
  long : ∀ i < r.size, ∀ j < r.size, (r.spec i).long = (r.spec j).long →
    (r.spec i).long.isSome = true → i = j

theorem Unambiguous.shortIds_eq {name : String} (h : r.Unambiguous) (hid : id < r.size)
    (hname : (r.spec id).short = some name) : r.shortIds name = [id] := by
  refine idsWhere_eq_singleton hid (beq_iff_eq.2 hname) fun k hk hshort => ?_
  have hshort := eq_of_beq hshort
  exact h.short k hk id hid (hshort.trans hname.symm) (Option.isSome_of_eq_some hshort)

theorem Unambiguous.longIds_eq {name : String} (h : r.Unambiguous) (hid : id < r.size)
    (hname : (r.spec id).long = some name) : r.longIds name = [id] := by
  refine idsWhere_eq_singleton hid (beq_iff_eq.2 hname) fun k hk hlong => ?_
  have hlong := eq_of_beq hlong
  exact h.long k hk id hid (hlong.trans hname.symm) (Option.isSome_of_eq_some hlong)

structure Sole (r : Registry) (id : OptionId) : Prop where
  lt : id < r.size
  unique : ∀ k < r.size, r.sameIdentity k id = true → k = id

/-- A property of names that one entry has alone makes this entry the only one of its identity. -/
theorem sole_of_idsWhere {p : OptionSpec → Bool}
    (hnames : ∀ a b : OptionSpec, a.short = b.short → a.long = b.long → p a = p b)
    (h : r.idsWhere p = [id]) : r.Sole id := by
  obtain ⟨hlt, hp⟩ := mem_idsWhere.1 (h ▸ List.mem_cons_self : id ∈ r.idsWhere p)
  refine ⟨hlt, fun k hk hsame => ?_⟩
  obtain ⟨hshort, hlong⟩ := sameIdentity_iff.1 hsame
  have hmem : k ∈ r.idsWhere p := mem_idsWhere.2 ⟨hk, (hnames _ _ hshort hlong).trans hp⟩
  exact List.mem_singleton.1 (h ▸ hmem)

theorem sole_of_shortIds {short : String} (h : r.shortIds short = [id]) : r.Sole id :=
  sole_of_idsWhere (fun a b hshort _ => by rw [hshort]) h

theorem sole_of_longIds {long : String} (h : r.longIds long = [id]) : r.Sole id :=
  sole_of_idsWhere (fun a b _ hlong => by rw [hlong]) h

theorem sole_of_longIdsFrom {start : String} (h : r.longIdsFrom start = [id]) : r.Sole id :=
  sole_of_idsWhere (fun a b _ hlong => by rw [hlong]) h

end Synopsis.Registry
