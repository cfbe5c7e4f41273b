/-!
# Interleavings

A list is an interleaving of some lists if it can be taken apart into exactly these, each of them
keeping its order. Every tagged list is an interleaving of its parts by tag.
-/

namespace Synopsis

inductive Interleaving {α : Type} : List (List α) → List α → Prop
  | done {lists} : (∀ l ∈ lists, l = []) → Interleaving lists []
  | step {before after x rest l} : Interleaving (before ++ rest :: after) l →
      Interleaving (before ++ (x :: rest) :: after) (x :: l)

namespace Interleaving

variable {α κ : Type}

theorem left {x : α} {xs ys l : List α} (h : Interleaving [xs, ys] l) :
    Interleaving [x :: xs, ys] (x :: l) :=
  @step α [] [ys] x xs l h

theorem right {y : α} {xs ys l : List α} (h : Interleaving [xs, ys] l) :
    Interleaving [xs, y :: ys] (y :: l) :=
  @step α [xs] [] y ys l h

theorem nil_left (ys : List α) : Interleaving [[], ys] ys := by
  induction ys with
  | nil => exact done (by simp)
  | cons y ys ih => exact ih.right

theorem cons_cases {z : α} {xs ys l : List α} (h : Interleaving [xs, ys] (z :: l)) :
    (∃ rest, xs = z :: rest ∧ Interleaving [rest, ys] l) ∨
      ∃ rest, ys = z :: rest ∧ Interleaving [xs, rest] l := by
  generalize hlists : [xs, ys] = lists at h
  cases h with
  | @step before after _ rest _ hl =>
    match before, hlists with
    | [], hlists =>
      simp only [List.nil_append, List.cons.injEq] at hlists
      obtain ⟨rfl, rfl⟩ := hlists
      exact .inl ⟨rest, rfl, hl⟩
    | [_], hlists =>
      simp only [List.cons_append, List.nil_append, List.cons.injEq] at hlists
      obtain ⟨rfl, rfl, rfl⟩ := hlists
      exact .inr ⟨rest, rfl, hl⟩
    | _ :: _ :: before, hlists => simp at hlists

theorem eq_of_nil_right {xs l : List α} (h : Interleaving [xs, []] l) : xs = l := by
  induction l generalizing xs with
  | nil =>
    generalize hlists : [xs, []] = lists at h
    cases h with
    | done hnil => exact hnil xs (hlists ▸ List.mem_cons_self)
  | cons z l ih =>
    rcases h.cons_cases with ⟨rest, rfl, hl⟩ | ⟨rest, hrest, -⟩
    · rw [ih hl]
    · cases hrest

/-- An element put anywhere into an interleaving goes to a place in the first list, behind
elements that stand before it in the whole. -/
theorem insert {x : α} {xs ys front back : List α} (h : Interleaving [xs, ys] (front ++ back)) :
    ∃ init tail, xs = init ++ tail ∧ init ⊆ front ∧
      Interleaving [init ++ x :: tail, ys] (front ++ x :: back) := by
  induction front generalizing xs ys with
  | nil => exact ⟨[], xs, rfl, List.nil_subset _, h.left⟩
  | cons z front ih =>
    rcases h.cons_cases with ⟨rest, rfl, hl⟩ | ⟨rest, rfl, hl⟩
    · obtain ⟨init, tail, rfl, hinit, hl⟩ := ih hl
      exact ⟨z :: init, tail, rfl, List.cons_subset_cons z hinit, hl.left⟩
    · obtain ⟨init, tail, rfl, hinit, hl⟩ := ih hl
      exact ⟨init, tail, rfl, List.subset_cons_of_subset z hinit, hl.right⟩

theorem of_tags [DecidableEq κ] {keys : List κ} (distinct : keys.Nodup) {tagged : List (κ × α)}
    (known : ∀ t ∈ tagged, t.1 ∈ keys) :
    Interleaving (keys.map fun key => (tagged.filter (·.1 = key)).map Prod.snd)
      (tagged.map Prod.snd) := by
  induction tagged with
  | nil => exact done (by simp)
  | cons t tagged ih =>
    obtain ⟨hkey, hrest⟩ := List.forall_mem_cons.1 known
    have hih := ih hrest
    obtain ⟨before, after, rfl⟩ := List.append_of_mem hkey
    obtain ⟨-, hafter, hbefore⟩ := List.nodup_append.1 distinct
    have other {part : List κ} (hpart : ∀ key ∈ part, t.1 ≠ key) :
        (part.map fun key => ((t :: tagged).filter (·.1 = key)).map Prod.snd) =
          part.map fun key => (tagged.filter (·.1 = key)).map Prod.snd := by
      apply List.map_congr_left
      intro key hmem
      rw [List.filter_cons_of_neg (by simpa using hpart key hmem)]
    have before_ne : ∀ key ∈ before, t.1 ≠ key := fun key hmem =>
      (hbefore key hmem t.1 List.mem_cons_self).symm
    have after_ne : ∀ key ∈ after, t.1 ≠ key := by
      rintro key hmem rfl
      exact (List.nodup_cons.1 hafter).1 hmem
    simp only [List.map_append, List.map_cons] at hih ⊢
    rw [other before_ne, other after_ne, List.filter_cons_of_pos (by simp)]
    exact step hih

end Interleaving

end Synopsis
