import Mathlib.Data.List.Forall2
import Mathlib.Data.List.Infix
import Synopsis.Text.Blank
import Synopsis.Text.Folding

/-!
# Words in any letter case

A text holds a word in any letter case where its characters are alike to those of the word, one by
one. Folding sends characters to letters only: a line break, a colon or a blank is alike to nothing
but itself.
-/

namespace Synopsis.Text

variable {marker word cs rest front back : List Char} {c d : Char} {n m : Nat}

def InAnyCase (marker word : List Char) : Prop :=
  List.Forall₂ (fun c d => alike c d = true) marker word

theorem InAnyCase.exists_append {back : List Char} (h : InAnyCase (marker ++ back) cs) :
    ∃ word rest, cs = word ++ rest ∧ InAnyCase marker word ∧ InAnyCase back rest := by
  induction marker generalizing cs with
  | nil => exact ⟨[], cs, rfl, .nil, h⟩
  | cons c marker ih =>
    cases h with
    | @cons _ d _ _ hc h =>
      obtain ⟨word, rest, rfl, hword, hrest⟩ := ih h
      exact ⟨d :: word, rest, rfl, .cons hc hword, hrest⟩

instance decidableInAnyCase : DecidableRel InAnyCase := fun marker word =>
  inferInstanceAs (Decidable (List.Forall₂ _ marker word))

def Contains (marker cs : List Char) : Prop :=
  ∃ front word back, cs = front ++ (word ++ back) ∧ InAnyCase marker word

theorem dropWord?_eq_some_iff :
    dropWord? marker cs = some rest ↔ ∃ word, cs = word ++ rest ∧ InAnyCase marker word := by
  induction marker generalizing cs with
  | nil =>
    constructor
    · intro h
      exact ⟨[], Option.some.inj h, .nil⟩
    · rintro ⟨word, rfl, hword⟩
      cases hword
      rfl
  | cons c marker ih =>
    constructor
    · intro h
      cases cs with
      | nil => cases h
      | cons d cs =>
        rw [dropWord?] at h
        by_cases hc : alike c d = true
        · rw [if_pos hc] at h
          obtain ⟨word, rfl, hword⟩ := ih.1 h
          exact ⟨d :: word, rfl, .cons hc hword⟩
        · rw [if_neg hc] at h
          cases h
    · rintro ⟨word, rfl, hword⟩
      cases hword with
      | cons hc hword =>
        rw [List.cons_append, dropWord?, if_pos hc]
        exact ih.2 ⟨_, rfl, hword⟩

theorem isSome_dropWord?_iff : (dropWord? marker cs).isSome = true ↔
    ∃ word rest, cs = word ++ rest ∧ InAnyCase marker word := by
  rw [Option.isSome_iff_exists]
  simp only [dropWord?_eq_some_iff]
  exact ⟨fun ⟨rest, word, h⟩ => ⟨word, rest, h⟩, fun ⟨word, rest, h⟩ => ⟨rest, word, h⟩⟩

theorem contains_iff : Contains marker cs ↔
    ∃ front back, cs = front ++ back ∧ (dropWord? marker back).isSome = true := by
  simp only [isSome_dropWord?_iff]
  constructor
  · rintro ⟨front, word, back, hcs, hword⟩
    exact ⟨front, word ++ back, hcs, word, back, rfl, hword⟩
  · rintro ⟨front, -, rfl, word, back, rfl, hword⟩
    exact ⟨front, word, back, rfl, hword⟩

theorem Contains.mono (h : Contains marker cs) (hrest : cs <:+: rest) : Contains marker rest := by
  obtain ⟨front, word, back, rfl, hword⟩ := h
  obtain ⟨before, after, rfl⟩ := hrest
  exact ⟨before ++ front, word, back ++ after, by simp, hword⟩

instance decidableContains (marker : List Char) : DecidablePred (Contains marker) := fun cs =>
  decidable_of_iff (∃ back ∈ cs.tails, (dropWord? marker back).isSome = true) <| by
    rw [contains_iff]
    constructor
    · rintro ⟨back, hback, hsome⟩
      obtain ⟨front, rfl⟩ := (List.mem_tails _ _).1 hback
      exact ⟨front, back, rfl, hsome⟩
    · rintro ⟨front, back, rfl, hsome⟩
      exact ⟨back, (List.mem_tails _ _).2 (List.suffix_append front back), hsome⟩

/-! ### Characters alike to themselves only -/

theorem Run.exists_of_imageOf? {runs : List Run} (h : imageOf? runs n = some m) :
    ∃ r ∈ runs, r.image ≤ m := by
  induction runs with
  | nil => cases h
  | cons r runs ih =>
    rw [imageOf?] at h
    split_ifs at h
    · obtain rfl := Option.some.inj h
      exact ⟨r, List.mem_cons_self, Nat.le_add_right _ _⟩
    · obtain ⟨s, hs, hle⟩ := ih h
      exact ⟨s, List.mem_cons_of_mem r hs, hle⟩

/-- The images are letters, and the first of them is the small a. -/
theorem foldPoint_of_lt (h : foldPoint n < 0x61) : foldPoint n = n := by
  unfold foldPoint at h ⊢
  cases himage : Run.imageOf? foldingRuns n with
  | none => rfl
  | some m =>
    rw [himage, Option.getD_some] at h
    obtain ⟨r, hr, hle⟩ := Run.exists_of_imageOf? himage
    have hletters : ∀ r ∈ foldingRuns, 0x61 ≤ r.image := by decide +kernel
    exact absurd h (Nat.not_lt_of_le (Nat.le_trans (hletters r hr) hle))

theorem alike_comm (c d : Char) : alike c d = alike d c :=
  Bool.beq_comm

theorem eq_of_alike (hc : foldPoint c.toNat = c.toNat) (hlt : c.toNat < 0x61)
    (h : alike c d = true) : c = d := by
  have hfold : c.toNat = foldPoint d.toNat := hc.symm.trans (eq_of_beq h)
  rw [foldPoint_of_lt (hfold ▸ hlt)] at hfold
  exact Char.toNat_inj.1 hfold

theorem InAnyCase.not_mem (h : InAnyCase marker word) (hc : foldPoint c.toNat = c.toNat)
    (hlt : c.toNat < 0x61) (hmarker : c ∉ marker) : c ∉ word := by
  induction h with
  | nil => exact List.not_mem_nil
  | @cons d e _ _ hd _ ih =>
    obtain ⟨hne, hmarker⟩ := not_or.1 (mt List.mem_cons.2 hmarker)
    intro hmem
    rcases List.mem_cons.1 hmem with rfl | hmem
    · exact hne (eq_of_alike hc hlt (alike_comm _ _ ▸ hd))
    · exact ih hmarker hmem

theorem Ranges.exists_of_holds {ranges : Ranges} (h : ranges.holds n = true) :
    ∃ range ∈ ranges, range.1 ≤ n ∧ n ≤ range.2 := by
  induction ranges with
  | nil => cases h
  | cons range ranges ih =>
    rw [holds] at h
    split_ifs at h with hfirst hlast
    · exact ⟨range, List.mem_cons_self, Nat.le_of_not_lt hfirst, hlast⟩
    · obtain ⟨other, hother, hn⟩ := ih h
      exact ⟨other, List.mem_cons_of_mem range hother, hn⟩

theorem foldPoint_of_isBlank (h : isBlank c = true) : foldPoint c.toNat = c.toNat := by
  obtain ⟨range, hrange, hfirst, hlast⟩ := Ranges.exists_of_holds h
  have hblank : ∀ range ∈ blankRanges, ∀ n ∈ List.range' range.1 (range.2 + 1 - range.1),
      foldPoint n = n := by decide +kernel
  refine hblank range hrange _ (List.mem_range'_1.2 ⟨hfirst, ?_⟩)
  omega

theorem isBlank_of_alike (hc : foldPoint c.toNat = c.toNat) (hblank : isBlank c = false)
    (h : alike c d = true) : isBlank d = false := by
  rw [Bool.eq_false_iff]
  intro hd
  have hfold : foldPoint c.toNat = foldPoint d.toNat := eq_of_beq h
  rw [hc, foldPoint_of_isBlank hd] at hfold
  rw [Char.toNat_inj.1 hfold, hd] at hblank
  cases hblank

end Synopsis.Text
