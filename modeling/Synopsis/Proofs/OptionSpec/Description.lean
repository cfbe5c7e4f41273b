import Synopsis.OptionSpec.Description
import Synopsis.Proofs.Text.Trimming
import Synopsis.Proofs.Text.Words

/-!
# What a description gives

Blanks around a description make no difference. Its first word is a name of the option if the
description begins with a dash, and a name that was read is never lost.
-/

namespace Synopsis.OptionSpec

open Text

variable {n : Names} {o : OptionSpec} {cs gap : List Char} {ws : List (List Char)}

def Names.HasName (n : Names) : Prop :=
  n.short.isSome = true ∨ n.long.isSome = true

def HasName (o : OptionSpec) : Prop :=
  o.short.isSome = true ∨ o.long.isSome = true

theorem ofDescription_gap (hgap : ∀ c ∈ gap, isBlank c = true) (cs : List Char) :
    ofDescription (String.ofList (cs ++ gap)) = ofDescription (String.ofList cs) := by
  unfold ofDescription
  rw [String.toList_ofList, String.toList_ofList, trim_gap hgap]

theorem ofDescription_surrounded {front back : List Char} (hfront : ∀ c ∈ front, isBlank c = true)
    (hback : ∀ c ∈ back, isBlank c = true) (cs : List Char) :
    ofDescription (String.ofList (front ++ (cs ++ back))) = ofDescription (String.ofList cs) := by
  rw [← List.append_assoc, ofDescription_gap hback]
  unfold ofDescription trim trimStart
  rw [String.toList_ofList, String.toList_ofList, List.dropWhile_append_of_pos hfront]

theorem Names.hasName_add_dash (n : Names) (cs : List Char) : (n.add ('-' :: cs)).HasName := by
  unfold add
  split_ifs with hlong hshort
  · exact .inr rfl
  · exact .inl rfl
  · exact absurd rfl hshort

theorem Names.HasName.add (h : n.HasName) (word : List Char) : (n.add word).HasName := by
  unfold Names.add
  split_ifs
  · exact .inr rfl
  · exact .inl rfl
  · exact h

theorem Names.HasName.foldl (h : n.HasName) (ws : List (List Char)) :
    (ws.foldl Names.add n).HasName :=
  List.foldlRecOn ws Names.add h fun _ hn word _ => hn.add word

/-- The words of a text that begins with a dash give a name. -/
theorem hasName_foldl_pieces (cs : List Char) :
    ((pieces isNameSeparator ('-' :: cs)).foldl Names.add {}).HasName := by
  obtain ⟨run, rest, rfl, hrun, hrest⟩ := exists_run (!isNameSeparator ·) cs
  have hword : ∀ c ∈ '-' :: run, isNameSeparator c = false :=
    List.forall_mem_cons.2 ⟨by decide, fun c hc => by simpa using hrun c hc⟩
  have hstop : ∀ c ∈ rest.head?, isNameSeparator c = true := fun c hc => by simpa using hrest c hc
  rw [← List.cons_append, pieces_word_append (List.cons_ne_nil _ _) hword hstop, List.foldl_cons]
  exact (Names.hasName_add_dash {} run).foldl _

theorem hasName_ofDescription (cs : List Char) :
    (ofDescription (String.ofList ('-' :: cs))).HasName := by
  have hdash : isBlank '-' = false := by decide
  have htrim : trim ('-' :: cs) = '-' :: trimEnd cs :=
    trim_append (List.cons_ne_nil '-' []) (by simpa using hdash) (by simpa using hdash) [] cs
  have hnames := hasName_foldl_pieces (splitNames (trimEnd cs)).1
  unfold ofDescription
  rw [String.toList_ofList, htrim]
  cases hdefault : default? (splitNames ('-' :: trimEnd cs)).2 with
  | none =>
    simp only [hdefault]
    exact hnames
  | some value =>
    simp only [hdefault]
    exact hnames

end Synopsis.OptionSpec
