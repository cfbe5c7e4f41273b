import Synopsis.Proofs.Layout.Lines
import Synopsis.Proofs.Text.Folding
import Synopsis.Proofs.Text.Scan
import Synopsis.Proofs.Text.Trimming

/-!
# Sections as blocks of lines

The sections of a document are blocks of its lines. A line that has the marker in it, in any letter
case, opens a block, and the lines behind it that begin with a space or a tab go on with it. Such
lines belong to the block even if they have the marker themselves.

Lines end with a newline here, so a carriage return must not stand alone.
-/

namespace Synopsis.Layout

open Text

variable {marker cs rest content ending line : List Char} {ls : List (List Char)} {c d : Char}
  {last : Option Char} {closed : Bool}

def isIndented (line : List Char) : Bool :=
  line.head?.any isGap

def markedBlocks (marker source : String) : List (List (List Char)) :=
  blocks (Contains marker.toList ·) isIndented (lines source.toList)

/-! ### The marker in a line -/

theorem isLineBreak_of_alike (h : alike c d = true) (hc : isLineBreak c = false) :
    isLineBreak d = false := by
  rw [Bool.eq_false_iff]
  intro hd
  have heq : d = c := by
    rw [alike_comm] at h
    simp only [isLineBreak, Bool.or_eq_true, beq_iff_eq] at hd
    rcases hd with rfl | rfl
    · exact eq_of_alike (by decide) (by decide) h
    · exact eq_of_alike (by decide) (by decide) h
  rw [← heq, hd] at hc
  cases hc

theorem dropWord?_append (hmarker : ∀ c ∈ marker, isLineBreak c = false)
    (hrest : ∀ c ∈ rest.head?, isLineBreak c = true) (cs : List Char) :
    dropWord? marker (cs ++ rest) = (dropWord? marker cs).map (· ++ rest) := by
  induction marker generalizing cs with
  | nil => rfl
  | cons c marker ih =>
    obtain ⟨hc, hmarker⟩ := List.forall_mem_cons.1 hmarker
    cases cs with
    | nil =>
      cases rest with
      | nil => rfl
      | cons d rest =>
        have hd : ¬ alike c d = true := fun h =>
          Bool.eq_false_iff.1 (isLineBreak_of_alike h hc) (hrest d rfl)
        exact if_neg hd
    | cons d cs =>
      rw [List.cons_append, dropWord?, dropWord?, ih hmarker]
      by_cases hd : alike c d = true
      · rw [if_pos hd, if_pos hd]
      · rw [if_neg hd, if_neg hd]
        rfl

theorem dropWord?_nil (hne : marker ≠ []) : dropWord? marker [] = none := by
  cases marker with
  | nil => exact absurd rfl hne
  | cons c marker => rfl

theorem dropWord?_of_breaks (hne : marker ≠ []) (hmarker : ∀ c ∈ marker, isLineBreak c = false)
    (hrest : ∀ c ∈ rest.head?, isLineBreak c = true) : dropWord? marker rest = none := by
  have hdrop := dropWord?_append hmarker hrest []
  rwa [dropWord?_nil hne] at hdrop

theorem afterLongestRun_append (hne : marker ≠ []) (hmarker : ∀ c ∈ marker, isLineBreak c = false)
    (hcontent : ∀ c ∈ content, isLineBreak c = false)
    (hrest : ∀ c ∈ rest.head?, isLineBreak c = true) :
    afterLongestRun (!isLineBreak ·) (dropWord? marker) (content ++ rest) =
      (afterLongestRun (!isLineBreak ·) (dropWord? marker) content).map (· ++ rest) := by
  induction content with
  | nil =>
    have hnil : afterLongestRun (!isLineBreak ·) (dropWord? marker) [] = none := dropWord?_nil hne
    rw [hnil, List.nil_append]
    cases rest with
    | nil => exact hnil
    | cons c rest =>
      have hc : ¬ (!isLineBreak c) = true := by simp [hrest c rfl]
      rw [afterLongestRun, if_neg hc]
      exact dropWord?_of_breaks hne hmarker hrest
  | cons c content ih =>
    obtain ⟨hc, hcontent⟩ := List.forall_mem_cons.1 hcontent
    have hpass : (!isLineBreak c) = true := by simp [hc]
    have hhere := dropWord?_append hmarker hrest (c :: content)
    rw [List.cons_append] at hhere ⊢
    rw [afterLongestRun, afterLongestRun, if_pos hpass, if_pos hpass, ih hcontent, hhere]
    cases afterLongestRun (!isLineBreak ·) (dropWord? marker) content <;> rfl

theorem isSome_afterLongestRun_iff (marker : List Char)
    (hcontent : ∀ c ∈ content, isLineBreak c = false) :
    (afterLongestRun (!isLineBreak ·) (dropWord? marker) content).isSome = true ↔
      Contains marker content := by
  rw [contains_iff]
  constructor
  · intro h
    obtain ⟨found, hfound⟩ := Option.isSome_iff_exists.1 h
    obtain ⟨front, back, hsplit, -, hback⟩ := exists_of_afterLongestRun hfound
    exact ⟨front, back, hsplit, Option.isSome_of_eq_some hback⟩
  · rintro ⟨front, back, rfl, hback⟩
    refine isSome_afterLongestRun (fun c hc => ?_) hback
    simp [hcontent c (List.mem_append_left back hc)]

theorem Ends.head? (h : Ends ending ls) :
    ∀ c ∈ (ending ++ ls.flatten).head?, isLineBreak c = true := by
  cases h with
  | newline => exact fun c hc => Option.some.inj hc ▸ rfl
  | returned => exact fun c hc => Option.some.inj hc ▸ rfl
  | last => simp

theorem Ends.isLineBreak (h : Ends ending ls) : ∀ c ∈ ending, Layout.isLineBreak c = true := by
  cases h <;> simp [Layout.isLineBreak]

theorem Ends.dropLineBreak (h : Ends ending ls) :
    Layout.dropLineBreak (ending ++ ls.flatten) = ls.flatten := by
  cases h <;> rfl

theorem contains_content_iff (hne : marker ≠ []) (hmarker : ∀ c ∈ marker, isLineBreak c = false)
    (hending : ∀ c ∈ ending, isLineBreak c = true) :
    Contains marker (content ++ ending) ↔ Contains marker content := by
  have hhead {breaks : List Char} (hbreaks : ∀ c ∈ breaks, isLineBreak c = true) :
      ∀ c ∈ breaks.head?, isLineBreak c = true := fun c hc => hbreaks c (List.mem_of_head? hc)
  constructor
  · rw [contains_iff, contains_iff]
    rintro ⟨front, back, hsplit, hback⟩
    rcases List.append_eq_append_iff.1 hsplit with ⟨breaks, -, rfl⟩ | ⟨inner, rfl, rfl⟩
    · have hbreaks := List.forall_mem_append.1 hending
      rw [dropWord?_of_breaks hne hmarker (hhead hbreaks.2)] at hback
      cases hback
    · rw [dropWord?_append hmarker (hhead hending), Option.isSome_map] at hback
      exact ⟨front, inner, rfl, hback⟩
  · exact fun h => h.mono (List.prefix_append content ending).isInfix

/-! ### A section at the start of a line -/

theorem AreLines.dropIndented_inside (h : AreLines ((c :: cs) :: ls)) :
    dropIndented (c != '\n') (cs ++ ls.flatten) = dropIndented false ls.flatten := by
  induction cs generalizing c with
  | nil =>
    rcases h.eq_newline_or with rfl | rfl
    · rfl
    · rfl
  | cons d cs ih =>
    obtain ⟨hc, hrest⟩ := h.behind
    have hinside : (c != '\n') = true := by simpa using hc
    rw [hinside, List.cons_append, dropIndented, if_pos rfl, ih hrest]

theorem AreLines.dropIndented_flatten (h : AreLines ls) :
    dropIndented false ls.flatten = (ls.dropWhile isIndented).flatten := by
  induction ls with
  | nil => rfl
  | cons line ls ih =>
    obtain ⟨c, cs, rfl⟩ := List.exists_cons_of_ne_nil h.ne_nil
    have hstep : dropIndented false ((c :: cs) ++ ls.flatten) =
        if isIndented (c :: cs) = true then dropIndented true (cs ++ ls.flatten)
        else (c :: cs) ++ ls.flatten := rfl
    rw [List.flatten_cons, hstep]
    by_cases hc : isIndented (c :: cs) = true
    · have hinside : (c != '\n') = true := by
        rw [bne_iff_ne]
        rintro rfl
        cases hc
      rw [if_pos hc, List.dropWhile_cons_of_pos hc, ← hinside, h.dropIndented_inside, ih h.tail]
    · rw [if_neg hc, List.dropWhile_cons_of_neg hc]
      rfl

/-- A section at the start of a line is there if the line has the marker, and it ends before the
first line that is not indented. -/
theorem section?_line (hne : marker ≠ []) (hmarker : ∀ c ∈ marker, isLineBreak c = false)
    (hlines : AreLines (line :: ls)) (hpaired : Paired (line ++ ls.flatten)) :
    (section? marker (line ++ ls.flatten)) =
      if Contains marker line then some (ls.dropWhile isIndented).flatten else none := by
  obtain ⟨content, ending, rfl, hcontent, hends⟩ := hlines.exists_content hpaired
  have hfound := isSome_afterLongestRun_iff marker hcontent
  unfold section?
  rw [List.append_assoc, afterLongestRun_append hne hmarker hcontent hends.head?]
  cases hrun : afterLongestRun (!isLineBreak ·) (dropWord? marker) content with
  | none =>
    rw [hrun] at hfound
    rw [if_neg]
    · rfl
    · rw [contains_content_iff hne hmarker hends.isLineBreak, ← hfound]
      exact Bool.false_ne_true
  | some found =>
    rw [hrun] at hfound
    have hplain : ∀ c ∈ found, (!isLineBreak c) = true := by
      obtain ⟨front, back, rfl, -, hback⟩ := exists_of_afterLongestRun hrun
      obtain ⟨word, rfl, -⟩ := dropWord?_eq_some_iff.1 hback
      intro c hc
      simp [hcontent c (List.mem_append_right _ (List.mem_append_right _ hc))]
    have hstop : (ending ++ ls.flatten).dropWhile (!isLineBreak ·) = ending ++ ls.flatten :=
      dropWhile_of_head fun c hc => by simp [hends.head? c hc]
    rw [if_pos ((contains_content_iff hne hmarker hends.isLineBreak).2 (hfound.1 rfl)),
      Option.map_some, Option.map_some, List.dropWhile_append_of_pos hplain, hstop,
      hends.dropLineBreak, hlines.tail.dropIndented_flatten]

/-! ### All sections -/

theorem sectionAt?_nil (hne : marker ≠ []) (last : Option Char) :
    sectionAt? marker last [] = none := by
  have hsection : section? marker [] = none := by
    unfold section?
    rw [afterLongestRun, dropWord?_nil hne]
    rfl
  unfold sectionAt?
  rw [hsection, ite_self]

theorem sectionAt?_of_ne (hc : c ≠ '\n') (cs : List Char) : sectionAt? marker (some c) cs = none :=
  if_neg (by simpa using hc)

theorem AreLines.scan_inside (marker : List Char) (h : AreLines ((c :: cs) :: ls)) :
    ∃ last, (last = some '\n' ∨ ls = []) ∧
      scan (sectionAt? marker) (some c) 0 false (cs ++ ls.flatten) =
        scan (sectionAt? marker) last 0 false ls.flatten := by
  induction cs generalizing c with
  | nil => exact ⟨some c, h.eq_newline_or.imp_left (congrArg some), rfl⟩
  | cons d cs ih =>
    obtain ⟨hc, hrest⟩ := h.behind
    rw [List.cons_append, scan_cons_of_none (sectionAt?_of_ne hc _)]
    exact ih hrest

theorem scan_eq_blocks (hne : marker ≠ []) (hmarker : ∀ c ∈ marker, isLineBreak c = false)
    (hlines : AreLines ls) (hpaired : Paired ls.flatten) {last : Option Char} (closed : Bool)
    (hlast : last.all (· == '\n') = true ∨ ls = []) :
    scan (sectionAt? marker) last 0 closed ls.flatten =
      (blocks (Contains marker ·) isIndented ls).map List.flatten := by
  induction ls using blocks.induct (Contains marker ·) isIndented generalizing last closed with
  | case1 =>
    rw [blocks, List.flatten_nil, scan, sectionAt?_nil hne]
    rfl
  | case2 line rest hopens ih =>
    have hstart : last.all (· == '\n') = true := hlast.resolve_right (List.cons_ne_nil _ _)
    have hsplit : rest = rest.takeWhile isIndented ++ rest.dropWhile isIndented :=
      List.takeWhile_append_dropWhile.symm
    have hflat : line ++ rest.flatten = (line :: rest.takeWhile isIndented).flatten ++
        (rest.dropWhile isIndented).flatten := by
      rw [List.flatten_cons, List.append_assoc, ← List.flatten_append, ← hsplit]
    rw [List.flatten_cons] at hpaired ⊢
    have hsection : sectionAt? marker last (line ++ rest.flatten) =
        some (rest.dropWhile isIndented).flatten := by
      unfold sectionAt?
      rw [if_pos hstart, section?_line hne hmarker hlines hpaired,
        if_pos (of_decide_eq_true hopens)]
    rw [hflat] at hpaired hsection ⊢
    rw [hsplit, ← List.cons_append] at hlines
    have hne' : (line :: rest.takeWhile isIndented).flatten ≠ [] :=
      List.append_ne_nil_of_left_ne_nil hlines.ne_nil _
    rw [scan_append_of_some hne' hsection, blocks_cons_of_opens hopens, List.map_cons,
      ih hlines.append_right hpaired.append_right true]
    by_cases hrest : rest.dropWhile isIndented = []
    · exact .inr hrest
    · rw [hlines.getLast?_flatten (List.cons_ne_nil _ _) hrest]
      exact .inl rfl
  | case3 line rest hopens ih =>
    have hstart : last.all (· == '\n') = true := hlast.resolve_right (List.cons_ne_nil _ _)
    rw [List.flatten_cons] at hpaired ⊢
    have hsection : sectionAt? marker last (line ++ rest.flatten) = none := by
      unfold sectionAt?
      rw [if_pos hstart, section?_line hne hmarker hlines hpaired,
        if_neg (mt decide_eq_true hopens)]
    obtain ⟨c, cs, rfl⟩ := List.exists_cons_of_ne_nil hlines.ne_nil
    obtain ⟨last', hlast', hscan⟩ := hlines.scan_inside marker
    rw [List.cons_append] at hsection ⊢
    rw [scan_cons_of_none hsection, hscan, blocks_cons_of_not_opens hopens,
      ih hlines.tail hpaired.append_right false]
    rcases hlast' with rfl | hrest
    · exact .inl rfl
    · exact .inr hrest

theorem exists_not_isLineBreak_of_contains (hne : marker ≠ [])
    (hmarker : ∀ c ∈ marker, isLineBreak c = false) (h : Contains marker line) :
    ∃ c ∈ line, isLineBreak c = false := by
  obtain ⟨front, word, back, rfl, hword⟩ := h
  cases hword with
  | nil => exact absurd rfl hne
  | @cons c d _ word hd _ =>
    have hbreak := isLineBreak_of_alike hd (List.forall_mem_cons.1 hmarker).1
    exact ⟨d, by simp, hbreak⟩

theorem exists_not_isLineBreak_of_isIndented (h : isIndented line = true) :
    ∃ c ∈ line, isLineBreak c = false := by
  cases line with
  | nil => cases h
  | cons c line =>
    refine ⟨c, List.mem_cons_self, ?_⟩
    have hc : isGap c = true := h
    rcases isGap_iff.1 hc with rfl | rfl
    · decide
    · decide

/-- The sections are the blocks of lines with the marker. They cover all lines that have the marker,
and an empty line is in none of them. -/
theorem sections_eq_blocks {marker source : String} (hne : marker ≠ "")
    (hmarker : ∀ c ∈ marker.toList, isLineBreak c = false) (hpaired : Paired source.toList) :
    sections marker source =
        (markedBlocks marker source).map (fun block => String.ofList (trim block.flatten)) ∧
      Covers (Contains marker.toList ·) isIndented (lines source.toList)
        (markedBlocks marker source) ∧
      ∀ block ∈ markedBlocks marker source, ∀ line ∈ block, ∃ c ∈ line, isLineBreak c = false := by
  have hne' : marker.toList ≠ [] := mt String.toList_eq_nil_iff.1 hne
  have hcovers := covers_blocks (Contains marker.toList ·) isIndented (lines source.toList)
  refine ⟨?_, hcovers, fun block hblock => ?_⟩
  · have hstart : (none : Option Char).all (· == '\n') = true := rfl
    have hscan := scan_eq_blocks hne' hmarker (areLines_lines source.toList)
      (by rwa [flatten_lines]) false (.inl hstart)
    rw [flatten_lines] at hscan
    unfold sections
    rw [hscan, List.map_map]
    rfl
  · obtain ⟨first, more, rfl, hopens, hmore⟩ := hcovers.exists_first block hblock
    have hfirst : Contains marker.toList first := of_decide_eq_true hopens
    exact List.forall_mem_cons.2 ⟨exists_not_isLineBreak_of_contains hne' hmarker hfirst,
      fun line hline => exists_not_isLineBreak_of_isIndented (hmore line hline)⟩

/-- A marker in an indented line does not open a section of its own, and an empty line ends the
section. -/
theorem sections_eq_blocks_twice :
    let source := "My tool\r\nUsage: p a\r\n  usage: p b\r\n\r\n  p c\nMore USAGE: q\n\tq d"
    "usage:" ≠ "" ∧ (∀ c ∈ "usage:".toList, isLineBreak c = false) ∧ Paired source.toList ∧
      (markedBlocks "usage:" source).map (fun block => String.ofList (trim block.flatten)) =
        ["Usage: p a\r\n  usage: p b", "More USAGE: q\n\tq d"] := by
  intro source
  have hne : "usage:" ≠ "" := by decide
  have hmarker : ∀ c ∈ "usage:".toList, isLineBreak c = false := by simp [isLineBreak]
  have hpaired : Paired source.toList := by decide +kernel
  have hsections : sections "usage:" source =
      ["Usage: p a\r\n  usage: p b", "More USAGE: q\n\tq d"] := by decide +kernel
  refine ⟨hne, hmarker, hpaired, ?_⟩
  rw [← hsections]
  exact (sections_eq_blocks hne hmarker hpaired).1.symm

end Synopsis.Layout
