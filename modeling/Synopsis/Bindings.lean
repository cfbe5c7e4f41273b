import Synopsis.Value

/-!
# Bindings

Values by name, one for each name, in the order of the names by code points.
-/

namespace Synopsis

def Bindings.put (name : String) (v : Value) : List (String × Value) → List (String × Value)
  | [] => [(name, v)]
  | (k, w) :: rest =>
    if name < k then (name, v) :: (k, w) :: rest
    else if name = k then (name, v) :: rest
    else (k, w) :: put name v rest

theorem Bindings.mem_put {name : String} {v : Value} {x : String × Value} :
    ∀ {l : List (String × Value)}, x ∈ put name v l → x = (name, v) ∨ x ∈ l
  | [], h => by simpa [put] using h
  | (k, w) :: rest, h => by
    unfold put at h
    split at h
    · simpa using h
    · split at h
      · rcases List.mem_cons.1 h with h | h
        · exact .inl h
        · exact .inr (List.mem_cons_of_mem _ h)
      · rcases List.mem_cons.1 h with h | h
        · exact .inr (h ▸ List.mem_cons_self)
        · exact (mem_put h).imp_right (List.mem_cons_of_mem _)

theorem Bindings.put_sorted (name : String) (v : Value) :
    ∀ {l : List (String × Value)}, l.Pairwise (·.1 < ·.1) → (put name v l).Pairwise (·.1 < ·.1)
  | [], _ => by simp [put]
  | (k, w) :: rest, h => by
    obtain ⟨below, sorted⟩ := List.pairwise_cons.1 h
    unfold put
    split
    · next lt =>
      refine List.pairwise_cons.2 ⟨fun x hx => ?_, h⟩
      rcases List.mem_cons.1 hx with rfl | hx
      · exact lt
      · exact Std.lt_trans lt (below x hx)
    · next not_lt =>
      split
      · next eq => exact List.pairwise_cons.2 ⟨fun x hx => eq ▸ below x hx, sorted⟩
      · next ne =>
        refine List.pairwise_cons.2 ⟨fun x hx => ?_, put_sorted name v sorted⟩
        rcases mem_put hx with rfl | hx
        · exact Std.lt_of_le_of_ne (Std.not_lt.1 not_lt) (Ne.symm ne)
        · exact below x hx

theorem Bindings.lookup_put_self (name : String) (v : Value) (l : List (String × Value)) :
    (put name v l).lookup name = some v := by
  induction l with
  | nil => simp [put]
  | cons x rest ih =>
    obtain ⟨k, w⟩ := x
    unfold put
    split
    · simp
    · split
      · simp
      · next ne => simp [List.lookup_cons, beq_eq_false_iff_ne.2 ne, ih]

theorem Bindings.lookup_put_of_ne {name other : String} (h : other ≠ name) (v : Value)
    (l : List (String × Value)) : (put name v l).lookup other = l.lookup other := by
  induction l with
  | nil => simp [put, h]
  | cons x rest ih =>
    obtain ⟨k, w⟩ := x
    have ne : (other == name) = false := beq_eq_false_iff_ne.2 h
    unfold put
    split
    · simp [List.lookup_cons, ne]
    · split
      · next eq => subst eq; simp [List.lookup_cons, ne]
      · simp [List.lookup_cons, ih]

structure Bindings where
  toList : List (String × Value) := []
  sorted : toList.Pairwise (·.1 < ·.1) := by simp

namespace Bindings

def empty : Bindings := {}

def insert (b : Bindings) (name : String) (v : Value) : Bindings where
  toList := put name v b.toList
  sorted := put_sorted name v b.sorted

def get? (b : Bindings) (name : String) : Option Value :=
  b.toList.lookup name

def flag? (b : Bindings) (name : String) : Option Bool :=
  (b.get? name).bind Value.flag?

def text? (b : Bindings) (name : String) : Option String :=
  (b.get? name).bind Value.text?

def items? (b : Bindings) (name : String) : Option (List String) :=
  (b.get? name).bind Value.items?

def count? (b : Bindings) (name : String) : Option Nat :=
  (b.get? name).bind Value.count?

def size (b : Bindings) : Nat :=
  b.toList.length

def isEmpty (b : Bindings) : Bool :=
  b.toList.isEmpty

@[simp]
theorem get?_insert_self (b : Bindings) (name : String) (v : Value) :
    (b.insert name v).get? name = some v :=
  lookup_put_self name v b.toList

theorem get?_insert_of_ne (b : Bindings) {name other : String} (h : other ≠ name) (v : Value) :
    (b.insert name v).get? other = b.get? other :=
  lookup_put_of_ne h v b.toList

end Bindings

end Synopsis
