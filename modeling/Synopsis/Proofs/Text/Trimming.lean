import Mathlib.Data.List.DropRight
import Mathlib.Data.List.TakeWhile
import Synopsis.Text.Blank

/-!
# Trimming

A word that neither begins nor ends with a blank is kept when the text around it is trimmed, and
blanks at the end of a text make no difference.
-/

namespace Synopsis.Text

variable {p : Char → Bool} {front word back gap cs : List Char}

theorem dropWhile_of_head (hcs : ∀ c ∈ cs.head?, p c = false) : cs.dropWhile p = cs := by
  cases cs with
  | nil => rfl
  | cons c cs => exact List.dropWhile_cons_of_neg (Bool.eq_false_iff.1 (hcs c rfl))

theorem dropWhile_append_of_head (hcs : ∀ c ∈ cs.head?, p c = false) (front : List Char) :
    (front ++ cs).dropWhile p = front.dropWhile p ++ cs := by
  rw [List.dropWhile_append, dropWhile_of_head hcs]
  split
  · next hempty => rw [List.isEmpty_iff.1 hempty, List.nil_append]
  · rfl

theorem takeWhile_prefix_takeWhile (h : front <+: cs) : front.takeWhile p <+: cs.takeWhile p := by
  obtain ⟨back, rfl⟩ := h
  rw [List.takeWhile_append]
  split_ifs
  · exact (List.takeWhile_prefix p).trans (List.prefix_append front _)
  · exact List.prefix_rfl

theorem trimStart_append (hne : word ≠ []) (hfirst : ∀ c ∈ word.head?, isBlank c = false)
    (front back : List Char) :
    trimStart (front ++ (word ++ back)) = trimStart front ++ (word ++ back) := by
  refine dropWhile_append_of_head ?_ front
  cases word with
  | nil => exact absurd rfl hne
  | cons c word => exact hfirst

theorem trimEnd_append (hne : word ≠ []) (hlast : ∀ c ∈ word.getLast?, isBlank c = false)
    (front back : List Char) :
    trimEnd (front ++ (word ++ back)) = front ++ (word ++ trimEnd back) := by
  have hhead : ∀ c ∈ (word.reverse ++ front.reverse).head?, isBlank c = false := by
    simpa [List.head?_append, hne] using hlast
  unfold trimEnd
  rw [List.reverse_append, List.reverse_append, List.append_assoc,
    dropWhile_append_of_head hhead]
  simp

theorem trim_append (hne : word ≠ []) (hfirst : ∀ c ∈ word.head?, isBlank c = false)
    (hlast : ∀ c ∈ word.getLast?, isBlank c = false) (front back : List Char) :
    trim (front ++ (word ++ back)) = trimStart front ++ (word ++ trimEnd back) := by
  rw [trim, trimStart_append hne hfirst, trimEnd_append hne hlast]

theorem trimEnd_gap (hgap : ∀ c ∈ gap, isBlank c = true) (cs : List Char) :
    trimEnd (cs ++ gap) = trimEnd cs := by
  unfold trimEnd
  rw [List.reverse_append,
    List.dropWhile_append_of_pos fun c hc => hgap c (List.mem_reverse.1 hc)]

theorem trimEnd_isPrefix (cs : List Char) : trimEnd cs <+: cs :=
  List.rdropWhile_prefix isBlank cs

/-- Blanks in front of a text are kept unless it is all blank. -/
theorem trimEnd_gap_append (hgap : ∀ c ∈ gap, isBlank c = true) (cs : List Char) :
    trimEnd cs = [] ∧ trimEnd (gap ++ cs) = [] ∨ trimEnd (gap ++ cs) = gap ++ trimEnd cs := by
  unfold trimEnd
  rw [List.reverse_append, List.dropWhile_append]
  split
  · next hempty =>
    have hreverse : ∀ c ∈ gap.reverse, isBlank c = true := fun c hc =>
      hgap c (List.mem_reverse.1 hc)
    rw [List.isEmpty_iff.1 hempty, List.dropWhile_eq_nil_iff.2 hreverse]
    exact .inl ⟨rfl, rfl⟩
  · rw [List.reverse_append, List.reverse_reverse]
    exact .inr rfl

theorem trim_gap (hgap : ∀ c ∈ gap, isBlank c = true) (cs : List Char) :
    trim (cs ++ gap) = trim cs := by
  have hdrop : trimStart (cs ++ gap) = trimStart cs ++ gap ∨
      trimStart cs = [] ∧ trimStart (cs ++ gap) = [] := by
    unfold trimStart
    rw [List.dropWhile_append]
    split
    · next hempty =>
      exact .inr ⟨List.isEmpty_iff.1 hempty, List.dropWhile_eq_nil_iff.2 hgap⟩
    · exact .inl rfl
  unfold trim
  rcases hdrop with hdrop | ⟨hnil, hdrop⟩
  · rw [hdrop, trimEnd_gap hgap]
  · rw [hdrop, hnil]

end Synopsis.Text
