import Mathlib.Data.List.Forall2
import Synopsis.Layout.OptionList
import Synopsis.Proofs.Layout.Lines
import Synopsis.Proofs.OptionSpec.Description

/-!
# Option lists as blocks of lines

The options of a document are read from blocks of lines. In each section, a line that begins with a
dash, up to spaces and tabs, and has no blank behind the dash opens a block, and all lines up to the
next such line go on with it. The rest of the line with the marker counts as a line.
-/

namespace Synopsis.Layout

open OptionSpec Text

variable {line content cs pending : List Char} {c : Char} {ls block : List (List Char)}
  {found : List (List (List Char))}

/-- A dash without a blank behind it. -/
def isMarked : List Char → Bool
  | '-' :: c :: _ => !isBlank c
  | _ => false

/-- The first character of the line other than spaces and tabs is a dash, and what follows the dash
is not blank. -/
def Opens (line : List Char) : Prop :=
  ∃ gap c rest, line = gap ++ '-' :: c :: rest ∧ (∀ d ∈ gap, d = ' ' ∨ d = '\t') ∧
    isBlank c = false

/-! ### Opening lines -/

theorem dropWhile_isGap {gap : List Char} (hgap : ∀ d ∈ gap, d = ' ' ∨ d = '\t')
    (rest : List Char) : (gap ++ '-' :: rest).dropWhile isGap = '-' :: rest :=
  List.dropWhile_append_of_pos fun d hd => isGap_iff.2 (hgap d hd)

theorem isMarked_iff :
    isMarked cs = true ↔ ∃ c rest, cs = '-' :: c :: rest ∧ isBlank c = false := by
  constructor
  · intro h
    unfold isMarked at h
    split at h
    · next c rest => exact ⟨c, rest, rfl, by simpa using h⟩
    · cases h
  · rintro ⟨c, rest, rfl, hc⟩
    rw [isMarked, hc]
    rfl

theorem isMarked_cons_cons (c d : Char) (cs : List Char) :
    isMarked (c :: d :: cs) = (c == '-' && !isBlank d) := by
  by_cases hc : c = '-'
  · rw [hc]
    rfl
  · simp [isMarked, hc]

theorem opens_eq (line : List Char) : opens line = isMarked (line.dropWhile isGap) :=
  rfl

theorem opens_iff : opens line = true ↔ Opens line := by
  rw [opens_eq, isMarked_iff]
  constructor
  · rintro ⟨c, rest, hdrop, hc⟩
    refine ⟨line.takeWhile isGap, c, rest, ?_, fun d hd => ?_, hc⟩
    · rw [← hdrop, List.takeWhile_append_dropWhile]
    · exact isGap_iff.1 (List.all_eq_true.1 List.all_takeWhile d hd)
  · rintro ⟨gap, c, rest, rfl, hgap, hc⟩
    exact ⟨c, rest, dropWhile_isGap hgap _, hc⟩

instance decidableOpens : DecidablePred Opens := fun _ =>
  decidable_of_iff _ opens_iff

def optionBlocks (source : String) : List (List (List Char)) :=
  blocks (Opens ·) (¬ Opens ·) (lines (body source.toList))

def description (block : List (List Char)) : List Char :=
  block.flatten.dropWhile isGap

theorem optionBlocks_eq (source : String) :
    optionBlocks source = blocks opens (!opens ·) (lines (body source.toList)) := by
  have hopens (line : List Char) : decide (Opens line) = opens line := by
    rw [Bool.eq_iff_iff, decide_eq_true_iff, opens_iff]
  unfold optionBlocks
  simp only [decide_not, hopens]

theorem AreLines.opens_append (h : AreLines (line :: ls)) :
    opens (line ++ ls.flatten) = opens line := by
  cases h with
  | last _ _ => rw [List.flatten_nil, List.append_nil]
  | @cons body _ _ _ =>
    have hopens (rest : List Char) :
        opens (body ++ '\n' :: rest) = isMarked (body.dropWhile isGap ++ '\n' :: rest) := by
      rw [opens_eq, dropWhile_append_of_head fun c hc => Option.some.inj hc ▸ rfl]
    rw [List.append_assoc]
    change opens (body ++ '\n' :: ls.flatten) = opens (body ++ '\n' :: [])
    rw [hopens, hopens]
    rcases body.dropWhile isGap with _ | ⟨c, _ | ⟨d, cs⟩⟩
    · rfl
    · exact (isMarked_cons_cons c '\n' _).trans (isMarked_cons_cons c '\n' _).symm
    · exact (isMarked_cons_cons c d _).trans (isMarked_cons_cons c d _).symm

/-! ### The split of a text -/

/-- The text is the whole without some blanks at its end. -/
def UpToBlanks (whole text : List Char) : Prop :=
  ∃ gap, whole = text ++ gap ∧ ∀ c ∈ gap, isBlank c = true

theorem splitDescriptions_of_opens (h : opens cs = true) : splitDescriptions ('\n' :: cs) =
    ([], (splitDescriptions cs).1.dropWhile (· != '-') :: (splitDescriptions cs).2) := by
  simp [splitDescriptions, h]

theorem splitDescriptions_of_not_opens (h : ¬ opens cs = true) : splitDescriptions ('\n' :: cs) =
    ('\n' :: (splitDescriptions cs).1, (splitDescriptions cs).2) := by
  simp [splitDescriptions, h]

/-- Other characters than newlines are kept, except for a carriage return before an opening line. -/
theorem splitDescriptions_of_ne (hc : c ≠ '\n') (cs : List Char) :
    (splitDescriptions (c :: cs)).2 = (splitDescriptions cs).2 ∧
      ((splitDescriptions (c :: cs)).1 = c :: (splitDescriptions cs).1 ∨
        c = '\r' ∧ (splitDescriptions (c :: cs)).1 = [] ∧ (splitDescriptions cs).1 = []) := by
  have hnewline : ¬ (c == '\n' && opens cs) = true := by simp [hc]
  by_cases hreturn : (c == '\r' && cs.head? == some '\n' && opens (cs.drop 1)) = true
  · have hsplit : splitDescriptions (c :: cs) = ([], (splitDescriptions cs).2) := by
      simp only [splitDescriptions, if_neg hnewline, if_pos hreturn]
    simp only [Bool.and_eq_true, beq_iff_eq] at hreturn
    obtain ⟨⟨hc, hhead⟩, hopens⟩ := hreturn
    obtain ⟨rest, rfl⟩ := List.head?_eq_some_iff.1 hhead
    rw [hsplit]
    exact ⟨rfl, .inr ⟨hc, rfl, congrArg Prod.fst (splitDescriptions_of_opens hopens)⟩⟩
  · have hsplit : splitDescriptions (c :: cs) =
        (c :: (splitDescriptions cs).1, (splitDescriptions cs).2) := by
      simp only [splitDescriptions, if_neg hnewline, if_neg hreturn]
    rw [hsplit]
    exact ⟨rfl, .inl rfl⟩

/-- What a split gives: the text before the first description, and the descriptions. -/
structure Splits (cs pending : List Char) (found : List (List (List Char))) : Prop where
  pending : UpToBlanks pending (splitDescriptions cs).1
  found : List.Forall₂ (fun chunk block => UpToBlanks (description block) chunk)
    (splitDescriptions cs).2 found

theorem Splits.after (h : Splits cs pending found) (hcontent : '\n' ∉ content) :
    Splits (content ++ cs) (content ++ pending) found := by
  induction content with
  | nil => exact h
  | cons c content ih =>
    obtain ⟨hc, hcontent⟩ := not_or.1 (mt List.mem_cons.2 hcontent)
    obtain ⟨⟨gap, hpending, hgap⟩, hfound⟩ := ih hcontent
    obtain ⟨hlater, hlead⟩ := splitDescriptions_of_ne (Ne.symm hc) (content ++ cs)
    rw [← hlater] at hfound
    refine ⟨?_, hfound⟩
    rw [List.cons_append, List.cons_append, hpending]
    rcases hlead with hlead | ⟨rfl, hlead, hnil⟩
    · exact ⟨gap, by rw [hlead]; rfl, hgap⟩
    · exact ⟨'\r' :: gap, by rw [hlead, hnil]; rfl, List.forall_mem_cons.2 ⟨by decide, hgap⟩⟩

theorem UpToBlanks.dropWhile {text : List Char} (h : UpToBlanks (line ++ cs) text)
    (hopens : opens line = true) :
    UpToBlanks ((line ++ cs).dropWhile isGap) (text.dropWhile (· != '-')) := by
  obtain ⟨gap, hwhole, hgap⟩ := h
  obtain ⟨front, c, rest, rfl, hfront, -⟩ := opens_iff.1 hopens
  have hpass : ∀ d ∈ front, (d != '-') = true := by
    intro d hd
    rcases hfront d hd with rfl | rfl
    · rfl
    · rfl
  have hdrop : ((front ++ '-' :: c :: rest) ++ cs).dropWhile isGap = '-' :: (c :: rest ++ cs) := by
    rw [List.append_assoc]
    exact dropWhile_isGap hfront _
  have hdash : '-' ∉ gap := fun hmem => absurd (hgap '-' hmem) (by decide)
  rw [hdrop]
  rw [List.append_assoc] at hwhole
  rcases List.append_eq_append_iff.1 hwhole with ⟨more, rfl, hmore⟩ | ⟨more, -, rfl⟩
  · cases more with
    | nil =>
      rw [List.nil_append] at hmore
      exact absurd (hmore ▸ List.mem_cons_self) hdash
    | cons d more =>
      obtain rfl := (List.cons.inj hmore).1
      rw [List.dropWhile_append_of_pos hpass]
      exact ⟨gap, hmore, hgap⟩
  · exact absurd (by simp) hdash

theorem Splits.cons (h : Splits (line ++ ls.flatten) (line ++ (ls.takeWhile (!opens ·)).flatten)
    (blocks opens (!opens ·) ls)) (hlines : AreLines (line :: ls)) :
    Splits ('\n' :: (line ++ ls.flatten)) ('\n' :: ((line :: ls).takeWhile (!opens ·)).flatten)
      (blocks opens (!opens ·) (line :: ls)) := by
  have hline := hlines.opens_append
  have hskip : blocks opens (!opens ·) (ls.dropWhile (!opens ·)) = blocks opens (!opens ·) ls :=
    blocks_dropWhile (by simp) ls
  by_cases hopens : opens line = true
  · have htake : (line :: ls).takeWhile (!opens ·) = [] :=
      List.takeWhile_cons_of_neg (by simp [hopens])
    have hsplit := splitDescriptions_of_opens (hline.trans hopens)
    have hblock := h.pending.dropWhile hopens
    rw [htake, blocks_cons_of_opens hopens, hskip]
    constructor
    · rw [hsplit]
      exact ⟨['\n'], rfl, List.forall_mem_singleton.2 (by decide)⟩
    · rw [hsplit]
      exact .cons hblock h.found
  · have htake : (line :: ls).takeWhile (!opens ·) = line :: ls.takeWhile (!opens ·) :=
      List.takeWhile_cons_of_pos (by simp [hopens])
    have hsplit := splitDescriptions_of_not_opens (mt hline.symm.trans hopens)
    obtain ⟨gap, hpending, hgap⟩ := h.pending
    rw [htake, blocks_cons_of_not_opens hopens]
    constructor
    · rw [hsplit]
      exact ⟨gap, congrArg ('\n' :: ·) hpending, hgap⟩
    · rw [hsplit]
      exact h.found

theorem splits_lines (h : AreLines ls) :
    Splits ('\n' :: ls.flatten) ('\n' :: (ls.takeWhile (!opens ·)).flatten)
      (blocks opens (!opens ·) ls) := by
  induction h with
  | nil =>
    rw [blocks]
    exact ⟨⟨[], rfl, by simp⟩, .nil⟩
  | @last line hne hline =>
    have hempty : Splits [] [] (blocks opens (!opens ·) []) := by
      rw [blocks]
      exact ⟨⟨[], rfl, by simp⟩, .nil⟩
    exact (hempty.after hline).cons (.last hne hline)
  | @cons body ls hbody hls ih =>
    have hline : Splits ((body ++ ['\n']) ++ ls.flatten)
        ((body ++ ['\n']) ++ (ls.takeWhile (!opens ·)).flatten) (blocks opens (!opens ·) ls) := by
      rw [List.append_assoc, List.append_assoc]
      exact ih.after hbody
    exact hline.cons (.cons hbody hls)

/-- A dash inside a line begins no description. -/
example : (splitDescriptions "\n text\n -a, -b\n  not - c\r\n\t--d=X".toList).2 =
    ["-a, -b\n  not - c".toList, "--d=X".toList] := by
  decide

/-! ### The options of a document -/

theorem ofDescription_congr {whole text : List Char} (h : UpToBlanks whole text) :
    ofDescription (String.ofList text) = ofDescription (String.ofList whole) := by
  obtain ⟨gap, rfl, hgap⟩ := h
  exact (ofDescription_gap hgap text).symm

theorem map_ofDescription (source : String) :
    ((splitDescriptions ('\n' :: body source.toList)).2.map fun cs =>
      ofDescription (String.ofList cs)) =
    (optionBlocks source).map fun block => ofDescription (String.ofList (description block)) := by
  have hsplits := (splits_lines (areLines_lines (body source.toList))).found
  rw [flatten_lines, ← optionBlocks_eq] at hsplits
  rw [← List.forall₂_eq_eq_eq, List.forall₂_map_left_iff, List.forall₂_map_right_iff]
  exact hsplits.imp fun _ _ h => ofDescription_congr h

theorem covers_optionBlocks (source : String) :
    Covers (Opens ·) (¬ Opens ·) (lines (body source.toList)) (optionBlocks source) :=
  covers_blocks _ _ _

theorem hasName_of_mem_optionBlocks {source : String} (hblock : block ∈ optionBlocks source) :
    (ofDescription (String.ofList (description block))).HasName := by
  obtain ⟨first, more, rfl, hopens, -⟩ := (covers_optionBlocks source).exists_first block hblock
  obtain ⟨front, c, rest, rfl, hfront, -⟩ := of_decide_eq_true hopens
  have hdrop : description ((front ++ '-' :: c :: rest) :: more) =
      '-' :: (c :: rest ++ more.flatten) := by
    rw [description, List.flatten_cons, List.append_assoc]
    exact dropWhile_isGap hfront _
  rw [hdrop]
  exact hasName_ofDescription _

/-- The options are read from the blocks of lines that describe them, section by section. The
blocks cover all opening lines of a section, each opening line gives one option, and this option has
a name. -/
theorem describedOptions_eq_blocks (doc : String) :
    describedOptions doc = ((sections "options:" doc).flatMap fun source =>
        (optionBlocks source).map fun block => ofDescription (String.ofList (description block))) ∧
      (∀ source, Covers (Opens ·) (¬ Opens ·) (lines (body source.toList)) (optionBlocks source)) ∧
      (describedOptions doc).length = ((sections "options:" doc).flatMap fun source =>
        lines (body source.toList)).countP (Opens ·) ∧
      ∀ o ∈ describedOptions doc, o.HasName := by
  have heq : describedOptions doc = (sections "options:" doc).flatMap fun source =>
      (optionBlocks source).map fun block => ofDescription (String.ofList (description block)) := by
    unfold describedOptions
    simp only [map_ofDescription]
  refine ⟨heq, covers_optionBlocks, ?_, ?_⟩
  · have hlength (source : String) : (optionBlocks source).length =
        (lines (body source.toList)).countP (Opens ·) :=
      (covers_optionBlocks source).length_eq (by simp)
    rw [heq, List.length_flatMap, List.countP_flatMap]
    simp only [List.length_map, hlength]
    rfl
  · rw [heq]
    intro o ho
    obtain ⟨source, -, ho⟩ := List.mem_flatMap.1 ho
    obtain ⟨block, hblock, rfl⟩ := List.mem_map.1 ho
    exact hasName_of_mem_optionBlocks hblock

end Synopsis.Layout
