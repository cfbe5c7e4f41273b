import Synopsis.OptionSpec.Basic

/-!
# The option registry

All options of one usage text, in the order in which they were met: first those
that the text describes, then those that only the usage lines or the arguments
mention. An option is referred to by its place. Entries are never removed, so a
reference stays good.
-/

namespace Synopsis

abbrev OptionId := Nat

structure Registry where
  entries : List OptionSpec := []
  /-- How many entries come from the option descriptions. -/
  documented : Nat := 0
  documented_le : documented ≤ entries.length := by exact Nat.zero_le _
  deriving DecidableEq, Repr

namespace Registry

def ofDocumented (specs : List OptionSpec) : Registry where
  entries := specs
  documented := specs.length
  documented_le := Nat.le_refl _

def size (r : Registry) : Nat :=
  r.entries.length

def spec (r : Registry) (id : OptionId) : OptionSpec :=
  r.entries[id]?.getD default

def name (r : Registry) (id : OptionId) : String :=
  (r.spec id).name

/-- Adds an entry at the end, where its reference is the old size. -/
def push (r : Registry) (o : OptionSpec) : Registry where
  entries := r.entries ++ [o]
  documented := r.documented
  documented_le := by
    rw [List.length_append]
    exact Nat.le_trans r.documented_le (Nat.le_add_right _ _)

def setValue (r : Registry) (id : OptionId) (v : Value) : Registry where
  entries := r.entries.modify id fun o => { o with value := v }
  documented := r.documented
  documented_le := by
    rw [List.length_modify]
    exact r.documented_le

def idsWhere (r : Registry) (p : OptionSpec → Bool) : List OptionId :=
  (List.range r.size).filter fun id => p (r.spec id)

def documentedIds (r : Registry) : List OptionId :=
  List.range r.documented

def shortIds (r : Registry) (short : String) : List OptionId :=
  r.idsWhere (·.short == some short)

def longIds (r : Registry) (long : String) : List OptionId :=
  r.idsWhere (·.long == some long)

def longIdsFrom (r : Registry) (start : String) : List OptionId :=
  r.idsWhere fun o => o.long.any fun long => start.toList.isPrefixOf long.toList

def sameIdentity (r : Registry) (a b : OptionId) : Bool :=
  a == b || (r.spec a).sameIdentity (r.spec b)

/-- The first entry with the identity of `id`, which stands for all of them. -/
def canonical (r : Registry) (id : OptionId) : OptionId :=
  ((List.range r.size).find? fun other => (r.spec other).sameIdentity (r.spec id)).getD id

theorem sameIdentity_iff {r : Registry} {a b : OptionId} :
    r.sameIdentity a b = true ↔
      (r.spec a).short = (r.spec b).short ∧ (r.spec a).long = (r.spec b).long := by
  by_cases h : a = b
  · simp [sameIdentity, h]
  · simp [sameIdentity, OptionSpec.sameIdentity, h]

theorem sameIdentity_comm (r : Registry) (a b : OptionId) :
    r.sameIdentity a b = r.sameIdentity b a := by
  rw [Bool.eq_iff_iff, sameIdentity_iff, sameIdentity_iff, eq_comm, @eq_comm _ (r.spec a).long]

theorem sameIdentity_trans {r : Registry} {a b c : OptionId} (hab : r.sameIdentity a b = true)
    (hbc : r.sameIdentity b c = true) : r.sameIdentity a c = true := by
  rw [sameIdentity_iff] at hab hbc ⊢
  exact ⟨hab.1.trans hbc.1, hab.2.trans hbc.2⟩

theorem documented_le_size (r : Registry) : r.documented ≤ r.size :=
  r.documented_le

theorem lt_of_lt_documented {r : Registry} {id : OptionId} (h : id < r.documented) :
    id < r.size :=
  Nat.lt_of_lt_of_le h r.documented_le_size

@[simp]
theorem size_push (r : Registry) (o : OptionSpec) : (r.push o).size = r.size + 1 := by
  simp [size, push]

theorem spec_push_size (r : Registry) (o : OptionSpec) : (r.push o).spec r.size = o := by
  simp [spec, push, size]

theorem spec_push_of_lt {r : Registry} {id : OptionId} (h : id < r.size) (o : OptionSpec) :
    (r.push o).spec id = r.spec id := by
  unfold size at h
  simp [spec, push, List.getElem?_append_left h]

@[simp]
theorem size_setValue (r : Registry) (id : OptionId) (v : Value) :
    (r.setValue id v).size = r.size :=
  List.length_modify _ _ _

theorem spec_setValue_self {r : Registry} {id : OptionId} (h : id < r.size) (v : Value) :
    (r.setValue id v).spec id = { r.spec id with value := v } := by
  unfold size at h
  simp [spec, setValue, List.getElem?_modify_eq, List.getElem?_eq_getElem h]

theorem spec_setValue_of_ne (r : Registry) {id other : OptionId} (h : other ≠ id) (v : Value) :
    (r.setValue id v).spec other = r.spec other := by
  simp [spec, setValue, List.getElem?_modify_ne _ _ h.symm]

theorem spec_of_size_le {r : Registry} {id : OptionId} (h : r.size ≤ id) :
    r.spec id = default := by
  unfold size at h
  simp [spec, List.getElem?_eq_none h]

theorem ext_spec {r s : Registry} (hsize : r.size = s.size)
    (hdocumented : r.documented = s.documented) (hspec : ∀ id < r.size, r.spec id = s.spec id) :
    r = s := by
  have hentries : r.entries = s.entries := by
    refine List.ext_getElem hsize fun id hr hs => ?_
    have hid := hspec id hr
    simpa [spec, List.getElem?_eq_getElem hr, List.getElem?_eq_getElem hs] using hid
  cases r
  cases s
  simp only [mk.injEq]
  exact ⟨hentries, hdocumented⟩

theorem mem_idsWhere {r : Registry} {p : OptionSpec → Bool} {id : OptionId} :
    id ∈ r.idsWhere p ↔ id < r.size ∧ p (r.spec id) = true := by
  simp [idsWhere]

end Registry

end Synopsis
