import Synopsis.Text.Blank

/-!
# Words in a text

A text is laid out from its words with separators before, between and behind them, in any number
as long as two words do not touch. Cutting a text gives the words from which it is laid out, and no
other words.
-/

namespace Synopsis.Text

variable {separator : Char → Bool} {gap word rest cs : List Char} {ws : List (List Char)}

/-- The words one after the other. Their gaps consist of separators, and the words have none. -/
inductive Laid (separator : Char → Bool) : List (List Char) → List Char → Prop
  | nil {gap : List Char} : (∀ c ∈ gap, separator c = true) → Laid separator [] gap
  | cons {gap word rest : List Char} {ws : List (List Char)} : (∀ c ∈ gap, separator c = true) →
      word ≠ [] → (∀ c ∈ word, separator c = false) → (∀ c ∈ rest.head?, separator c = true) →
      Laid separator ws rest → Laid separator (word :: ws) (gap ++ (word ++ rest))

theorem Laid.eq_false (h : Laid separator ws cs) :
    ∀ word ∈ ws, ∀ c ∈ word, separator c = false := by
  induction h with
  | nil _ => simp
  | cons _ _ hword _ _ ih => exact List.forall_mem_cons.2 ⟨hword, ih⟩

theorem pieces_append_cons {c : Char} (hc : separator c = true) (cs rest : List Char) :
    pieces separator (cs ++ c :: rest) = pieces separator cs ++ pieces separator rest := by
  unfold pieces
  rw [List.splitOnP_append_cons cs rest hc, List.filter_append]

theorem pieces_gap (hgap : ∀ c ∈ gap, separator c = true) (rest : List Char) :
    pieces separator (gap ++ rest) = pieces separator rest := by
  induction gap with
  | nil => rfl
  | cons c gap ih =>
    obtain ⟨hc, hgap⟩ := List.forall_mem_cons.1 hgap
    exact (pieces_append_cons hc [] (gap ++ rest)).trans (ih hgap)

theorem pieces_word (hne : word ≠ []) (hword : ∀ c ∈ word, separator c = false) :
    pieces separator word = [word] := by
  unfold pieces
  rw [List.splitOnP_eq_singleton hword]
  exact List.filter_cons_of_pos (by simpa using hne)

theorem pieces_word_append (hne : word ≠ []) (hword : ∀ c ∈ word, separator c = false)
    (hrest : ∀ c ∈ rest.head?, separator c = true) :
    pieces separator (word ++ rest) = word :: pieces separator rest := by
  cases rest with
  | nil =>
    rw [List.append_nil, pieces_word hne hword]
    rfl
  | cons c rest =>
    have hc : separator c = true := hrest c rfl
    have hskip : pieces separator (c :: rest) = pieces separator rest :=
      pieces_append_cons hc [] rest
    rw [pieces_append_cons hc, pieces_word hne hword, hskip, List.singleton_append]

theorem Laid.pieces_eq (h : Laid separator ws cs) : pieces separator cs = ws := by
  induction h with
  | @nil gap hgap =>
    have hpieces := pieces_gap hgap []
    rw [List.append_nil] at hpieces
    rw [hpieces]
    rfl
  | cons hgap hne hword hrest _ ih => rw [pieces_gap hgap, pieces_word_append hne hword hrest, ih]

theorem exists_run (test : Char → Bool) (cs : List Char) :
    ∃ run rest, cs = run ++ rest ∧ (∀ c ∈ run, test c = true) ∧
      ∀ c ∈ rest.head?, test c = false := by
  refine ⟨cs.takeWhile test, cs.dropWhile test, List.takeWhile_append_dropWhile.symm,
    List.all_eq_true.1 List.all_takeWhile, fun c hc => ?_⟩
  have hhead := List.head?_dropWhile_not test cs
  rwa [Option.mem_def.1 hc] at hhead

theorem laid_pieces (separator : Char → Bool) (cs : List Char) :
    Laid separator (pieces separator cs) cs := by
  induction hlength : cs.length using Nat.strongRecOn generalizing cs with
  | ind n ih =>
    obtain ⟨gap, tail, rfl, hgap, htail⟩ := exists_run separator cs
    cases tail with
    | nil =>
      rw [List.append_nil, Laid.pieces_eq (.nil hgap)]
      exact .nil hgap
    | cons c tail =>
      obtain ⟨word, rest, hsplit, hword, hrest⟩ := exists_run (!separator ·) (c :: tail)
      have hne : word ≠ [] := by
        rintro rfl
        rw [List.nil_append] at hsplit
        have hc : (!separator c) = false := hrest c (by rw [← hsplit]; rfl)
        rw [htail c rfl] at hc
        cases hc
      have hclean : ∀ d ∈ word, separator d = false := fun d hd => by simpa using hword d hd
      have hstops : ∀ d ∈ rest.head?, separator d = true := fun d hd => by simpa using hrest d hd
      have hshorter : rest.length < n := by
        have hpos := List.length_pos_iff.2 hne
        rw [← hlength, hsplit, List.length_append, List.length_append]
        omega
      rw [hsplit, pieces_gap hgap, pieces_word_append hne hclean hstops]
      exact .cons hgap hne hclean hstops (ih _ hshorter rest rfl)

theorem pieces_eq_iff : pieces separator cs = ws ↔ Laid separator ws cs := by
  constructor
  · rintro rfl
    exact laid_pieces separator cs
  · exact Laid.pieces_eq

end Synopsis.Text
