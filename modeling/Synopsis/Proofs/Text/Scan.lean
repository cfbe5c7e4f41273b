import Synopsis.Text.Scan

/-!
# Pieces of a scan

What a scan has found, a recogniser has found at some place. A piece that is not empty is passed
over as a whole, and the search goes on behind it.
-/

namespace Synopsis.Text

variable {α : Type} {p : Char → Bool} {next : List Char → Option α} {found : α}
  {piece : Option Char → List Char → Option (List Char)} {last : Option Char} {closed : Bool}
  {inside : Nat} {cs front rest : List Char}

theorem exists_of_afterLongestRun (h : afterLongestRun p next cs = some found) :
    ∃ front back, cs = front ++ back ∧ (∀ c ∈ front, p c = true) ∧ next back = some found := by
  induction cs with
  | nil => exact ⟨[], [], rfl, by simp, h⟩
  | cons c cs ih =>
    rw [afterLongestRun] at h
    cases hlater : (if p c then afterLongestRun p next cs else none) with
    | some later =>
      rw [hlater] at h
      obtain rfl := Option.some.inj h
      by_cases hc : p c = true
      · rw [if_pos hc] at hlater
        obtain ⟨front, back, rfl, hfront, hback⟩ := ih hlater
        exact ⟨c :: front, back, rfl, List.forall_mem_cons.2 ⟨hc, hfront⟩, hback⟩
      · rw [if_neg hc] at hlater
        cases hlater
    | none =>
      rw [hlater] at h
      exact ⟨[], c :: cs, rfl, by simp, h⟩

theorem isSome_afterLongestRun (hfront : ∀ c ∈ front, p c = true)
    (h : (next rest).isSome = true) :
    (afterLongestRun p next (front ++ rest)).isSome = true := by
  induction front with
  | nil =>
    cases rest with
    | nil => exact h
    | cons c cs =>
      rw [List.nil_append, afterLongestRun]
      cases (if p c then afterLongestRun p next cs else none) with
      | some later => rfl
      | none => exact h
  | cons c front ih =>
    obtain ⟨hc, hfront⟩ := List.forall_mem_cons.1 hfront
    obtain ⟨later, hlater⟩ := Option.isSome_iff_exists.1 (ih hfront)
    rw [List.cons_append, afterLongestRun, if_pos hc, hlater]
    rfl

theorem afterLongestRun_eq_none (hcs : ∀ c ∈ front, ∀ cs, next (c :: cs) = none)
    (hnil : next [] = none) : afterLongestRun p next front = none := by
  induction front with
  | nil => exact hnil
  | cons c cs ih =>
    obtain ⟨hc, hcs⟩ := List.forall_mem_cons.1 hcs
    rw [afterLongestRun, ih hcs, ite_self]
    exact hc _

theorem afterLongestRun_eq_some (hfront : ∀ c ∈ front, p c = true)
    (hrest : afterLongestRun p next rest = some found) :
    afterLongestRun p next (front ++ rest) = some found := by
  induction front with
  | nil => exact hrest
  | cons c cs ih =>
    obtain ⟨hc, hcs⟩ := List.forall_mem_cons.1 hfront
    rw [List.cons_append, afterLongestRun, if_pos hc, ih hcs]

theorem before_append (front rest : List Char) : before (front ++ rest) rest = front := by
  unfold before
  rw [List.length_append, Nat.add_sub_cancel, List.take_left]

theorem exists_of_mem_scan {found : List Char} (h : found ∈ scan piece last inside closed cs) :
    ∃ last cs rest, piece last cs = some rest ∧ found = before cs rest := by
  induction cs generalizing last inside closed with
  | nil =>
    rw [scan] at h
    cases hpiece : piece last [] with
    | none =>
      rw [hpiece] at h
      cases h
    | some rest =>
      rw [hpiece] at h
      cases closed with
      | true => cases h
      | false =>
        obtain rfl : found = [] := List.mem_singleton.1 h
        exact ⟨last, [], rest, hpiece, List.take_nil.symm⟩
  | cons c cs ih =>
    cases inside with
    | succ inside => exact ih h
    | zero =>
      rw [scan] at h
      cases hpiece : piece last (c :: cs) with
      | none =>
        rw [hpiece] at h
        exact ih h
      | some rest =>
        simp only [hpiece] at h
        cases hbefore : before (c :: cs) rest with
        | nil =>
          simp only [hbefore] at h
          rcases List.mem_append.1 h with hhere | hlater
          · cases closed with
            | true => cases hhere
            | false =>
              exact ⟨last, c :: cs, rest, hpiece, (List.mem_singleton.1 hhere).trans hbefore.symm⟩
          · exact ih hlater
        | cons d tail =>
          simp only [hbefore] at h
          rcases List.mem_cons.1 h with rfl | hlater
          · have hprefix : before (c :: cs) rest <+: c :: cs := List.take_prefix _ _
            rw [hbefore] at hprefix
            obtain ⟨rfl, -⟩ := List.cons_prefix_cons.1 hprefix
            exact ⟨last, d :: cs, rest, hpiece, hbefore.symm⟩
          · exact ih hlater

theorem scan_cons_of_none {c : Char} (h : piece last (c :: cs) = none) :
    scan piece last 0 closed (c :: cs) = scan piece (some c) 0 false cs := by
  rw [scan, h]

theorem scan_inside (c : Char) (front rest : List Char) :
    scan piece (some c) front.length (front.length == 0) (front ++ rest) =
      scan piece (c :: front).getLast? 0 true rest := by
  induction front generalizing c with
  | nil => rfl
  | cons d front ih =>
    rw [List.getLast?_cons_cons, ← ih d]
    rfl

theorem scan_append_of_some (hne : front ≠ []) (h : piece last (front ++ rest) = some rest) :
    scan piece last 0 closed (front ++ rest) = front :: scan piece front.getLast? 0 true rest := by
  have hbefore := before_append front rest
  cases front with
  | nil => exact absurd rfl hne
  | cons c front =>
    rw [List.cons_append] at h hbefore ⊢
    rw [scan, h]
    simp only [hbefore]
    rw [scan_inside]

end Synopsis.Text
