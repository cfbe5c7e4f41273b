import Synopsis.Usage.Formal
import Synopsis.Proofs.Text.Words
import Synopsis.Proofs.Usage.Continuation
import Synopsis.Proofs.Usage.Tokens

/-!
# Usage lines as alternatives

A usage section is read as if its lines were read one by one, each with the options that the earlier
ones have introduced, and the alternatives of all lines were put together. A single line has no bar
behind it and is what it is on its own.

The formal usage has the lines in brackets with bars between them. No token reaches from one line
into the next, because every angle bracket is closed in its own line.
-/

namespace Synopsis

namespace Pattern

variable {p : Pattern} {ps : List Pattern}

/-- The alternatives that a group offers. -/
def alternatives : List Pattern → List Pattern
  | [either ps] => ps
  | [] => []
  | [p] => [p]
  | ps => [required ps]

def oneOf : List Pattern → List Pattern
  | p :: q :: rest => [either (p :: q :: rest)]
  | ps => ps

def grouped (sequences : List (List Pattern)) : List Pattern :=
  (sequences.filter (!·.isEmpty)).map group

theorem choice_eq_oneOf (sequences : List (List Pattern)) :
    choice sequences = oneOf (distinct (grouped sequences)) := rfl

theorem grouped_append (sequences others : List (List Pattern)) :
    grouped (sequences ++ others) = grouped sequences ++ grouped others := by
  unfold grouped
  rw [List.filter_append, List.map_append]

theorem alternatives_singleton (h : p.isEither = false) : alternatives [p] = [p] := by
  cases p with
  | either ps => cases h
  | _ => rfl

theorem alternatives_oneOf (h : ∀ p ∈ ps, p.isEither = false) : alternatives (oneOf ps) = ps := by
  match ps with
  | [] => rfl
  | [p] => exact alternatives_singleton (h p List.mem_cons_self)
  | p :: q :: rest => rfl

theorem IsSequence.alternatives_eq (h : IsSequence ps) :
    alternatives ps = distinct (grouped [ps]) := by
  match ps with
  | [] => rfl
  | [p] => exact alternatives_singleton (h.choice p List.mem_cons_self)
  | p :: q :: rest => cases p <;> rfl

end Pattern

namespace Usage

open Pattern

variable {r s t : Registry} {program usage : String} {line : List String}
  {lines : List (List String)} {pss : List (List Pattern)} {earlier : List (List Pattern)}

/-- A usage line by itself, as formal usage has it. -/
def lineText (line : List String) : String :=
  " ".intercalate ("(" :: (line ++ [")"]))

/-- The lines are read one after the other, each by itself, with the options of the earlier ones. -/
inductive ReadsLines : Registry → List (List String) → List (List Pattern) → Registry → Prop
  | nil {r : Registry} : ReadsLines r [] [] r
  | cons {r s t : Registry} {line lines ps pss} :
      (readPattern (lineText line)).run r = .ok (.required ps) s → ReadsLines s lines pss t →
      ReadsLines r (line :: lines) (ps :: pss) t

/-- What several lines are together: one of their alternatives, those alike counted once. -/
def joined : List (List Pattern) → List Pattern
  | [ps] => ps
  | pss => oneOf (distinct (pss.flatMap alternatives))

/-- A usage section: a marker with its colon, and then the lines, each with the program in front, in
any layout. Only the program itself is named in this way, and an angle bracket is closed in its
line. -/
structure IsUsage (program : String) (lines : List (List String)) (usage : String) : Prop where
  nonempty : lines ≠ []
  unnamed : ∀ line ∈ lines, program ∉ line
  closed : ∀ line ∈ lines, Closed (lineText line).toList
  layout : ∃ marker body, usage.toList = marker ++ ':' :: body ∧ ':' ∉ marker ∧
    Text.Laid Text.isBlank ((lines.flatMap (program :: ·)).map String.toList) body

theorem Frame.Normal.alternatives_content {f : Frame} (h : f.Normal) :
    alternatives f.content = distinct (grouped f.all) := by
  unfold Frame.content
  by_cases hsequences : f.sequences.isEmpty = true
  · rw [if_pos hsequences, h.sequence.alternatives_eq, Frame.all, List.isEmpty_iff.1 hsequences]
    rfl
  · rw [if_neg hsequences]
    change alternatives (choice f.all) = _
    rw [choice_eq_oneOf]
    refine alternatives_oneOf fun p hp => ?_
    obtain ⟨ps, hps, rfl⟩ := List.mem_map.1 (distinct_subset _ hp)
    exact (h.all_sequences ps (List.mem_filter.1 hps).1).isEither_group

theorem Frame.content_after {f : Frame} (hearlier : earlier ≠ []) :
    (f.after earlier).content = oneOf (distinct (grouped earlier ++ grouped f.all)) := by
  have hsequences : ¬ (f.after earlier).sequences.isEmpty = true := by
    simp [Frame.after, hearlier]
  have hall : (f.after earlier).all = earlier ++ f.all := List.append_assoc _ _ _
  unfold Frame.content
  rw [if_neg hsequences, ← grouped_append, ← hall]
  rfl

/-! ### Tokens of the lines -/

theorem tokens_bar_append {first : String} (hclosed : Closed first.toList)
    (hbreak : '\n' ∉ first.toList) (second : String) :
    tokens (first ++ " | " ++ second) = tokens first ++ "|" :: tokens second := by
  have hspaces : " | " = " |" ++ " " := rfl
  have space : ∀ c ∈ " ".toList, Text.isBlank c = true := List.forall_mem_singleton.2 (by decide)
  have hstops : Stops (" |" ++ (" " ++ second)).toList := by
    rw [String.toList_append]
    exact stops_space _
  have hstops' : Stops (" " ++ second).toList := by
    rw [String.toList_append]
    exact stops_space _
  have hbar : tokens " |" = ["|"] := by decide +kernel
  rw [hspaces, String.append_assoc, String.append_assoc, tokens_append hclosed hbreak hstops,
    tokens_append (closed_of_not_mem (by decide)) (by decide) hstops', hbar,
    tokens_gap_append space, List.singleton_append]

theorem not_mem_intercalate {c : Char} {separator : List Char} {ws : List (List Char)}
    (hseparator : c ∉ separator) (hws : ∀ w ∈ ws, c ∉ w) : c ∉ separator.intercalate ws := by
  induction ws with
  | nil => simp
  | cons w ws ih =>
    obtain ⟨hw, hws⟩ := List.forall_mem_cons.1 hws
    cases ws with
    | nil => simpa using hw
    | cons next ws =>
      rw [List.intercalate_cons_cons]
      simp only [List.mem_append, not_or]
      exact ⟨⟨hw, hseparator⟩, ih hws⟩

theorem break_not_mem_lineText (h : ∀ w ∈ line, '\n' ∉ w.toList) :
    '\n' ∉ (lineText line).toList := by
  unfold lineText
  rw [String.toList_intercalate]
  refine not_mem_intercalate (by decide) (List.forall_mem_map.2 ?_)
  exact List.forall_mem_cons.2 ⟨by decide, List.forall_mem_append.2
    ⟨h, List.forall_mem_singleton.2 (by decide)⟩⟩

/-! ### The formal usage of the lines -/

theorem map_formalWord (h : program ∉ line) : line.map (formalWord program) = line := by
  refine (List.map_congr_left fun w hw => ?_).trans (List.map_id line)
  have hne : w ≠ program := by
    rintro rfl
    exact h hw
  exact if_neg hne

theorem lineText_eq (line : List String) :
    lineText line = " ".intercalate ("(" :: line) ++ " " ++ ")" := by
  have hsplit := String.intercalate_append_of_ne_nil (s := " ") (List.cons_ne_nil "(" line)
    (List.cons_ne_nil ")" [])
  rwa [String.intercalate_singleton] at hsplit

theorem intercalate_formalWord (hfirst : program ∉ line) (hlines : ∀ l ∈ lines, program ∉ l) :
    " ".intercalate ("(" ::
      (line ++ lines.flatMap (program :: ·)).map (formalWord program) ++ [")"]) =
      " | ".intercalate ((line :: lines).map lineText) := by
  induction lines generalizing line with
  | nil =>
    rw [List.flatMap_nil, List.append_nil, map_formalWord hfirst]
    exact String.intercalate_singleton.symm
  | cons next lines ih =>
    obtain ⟨hnext, hlines⟩ := List.forall_mem_cons.1 hlines
    have hlater := ih hnext hlines
    generalize hrest : (next ++ lines.flatMap (program :: ·)).map (formalWord program) = rest
      at hlater
    have hbreak : formalWord program program = ")" ++ (" | " ++ "(") := if_pos rfl
    have hwords : (line ++ (next :: lines).flatMap (program :: ·)).map (formalWord program) =
        line ++ (")" ++ (" | " ++ "(")) :: rest := by
      rw [List.map_append, map_formalWord hfirst, List.flatMap_cons, List.cons_append,
        List.map_cons, hbreak, hrest]
    calc " ".intercalate ("(" ::
          (line ++ (next :: lines).flatMap (program :: ·)).map (formalWord program) ++ [")"])
      _ = " ".intercalate ("(" :: line ++ (")" ++ (" | " ++ "(")) :: (rest ++ [")"])) := by
        rw [hwords, List.cons_append, List.append_assoc]
        rfl
      _ = " ".intercalate ("(" :: line) ++ " " ++
          (")" ++ (" | " ++ " ".intercalate ("(" :: (rest ++ [")"])))) := by
        rw [String.intercalate_append_of_ne_nil (List.cons_ne_nil _ _) (List.cons_ne_nil _ _),
          String.intercalate_cons_append, String.intercalate_cons_append]
      _ = lineText line ++ " | " ++ " | ".intercalate ((next :: lines).map lineText) := by
        rw [← hlater, lineText_eq]
        simp only [String.append_assoc, List.cons_append]
      _ = " | ".intercalate ((line :: next :: lines).map lineText) :=
        String.intercalate_cons_cons.symm

theorem body_append_cons {marker : List Char} (h : ':' ∉ marker) (cs : List Char) :
    Layout.body (marker ++ ':' :: cs) = cs := by
  have hpass : ∀ c ∈ marker, (c != ':') = true := by
    intro c hc
    have hne : c ≠ ':' := fun heq => h (heq ▸ hc)
    simpa using hne
  unfold Layout.body
  rw [List.dropWhile_append_of_pos hpass]
  rfl

theorem IsUsage.formal_eq (h : IsUsage program lines usage) :
    formal usage = .ok (" | ".intercalate (lines.map lineText)) := by
  obtain ⟨marker, body, husage, hmarker, hlaid⟩ := h.layout
  have hwords : (Text.words (Layout.body usage.toList)).map String.ofList =
      lines.flatMap (program :: ·) := by
    rw [husage, body_append_cons hmarker, Text.words, hlaid.pieces_eq, List.map_map]
    exact (List.map_congr_left fun w _ => String.ofList_toList).trans (List.map_id _)
  cases lines with
  | nil => exact absurd rfl h.nonempty
  | cons line lines =>
    obtain ⟨hline, hlines⟩ := List.forall_mem_cons.1 h.unnamed
    unfold formal
    rw [hwords, List.flatMap_cons, List.cons_append]
    exact congrArg Except.ok (intercalate_formalWord hline hlines)

theorem IsUsage.break_not_mem (h : IsUsage program lines usage) :
    ∀ line ∈ lines, '\n' ∉ (lineText line).toList := by
  obtain ⟨marker, body, -, -, hlaid⟩ := h.layout
  intro line hline
  refine break_not_mem_lineText fun w hw hbreak => ?_
  have hmem : w.toList ∈ (lines.flatMap (program :: ·)).map String.toList :=
    List.mem_map_of_mem (List.mem_flatMap.2 ⟨line, hline, List.mem_cons_of_mem program hw⟩)
  exact absurd (hlaid.eq_false w.toList hmem '\n' hbreak) (by decide)

/-! ### Reading the lines -/

theorem Reader.Behind.start (earlier : List (List Pattern)) :
    Reader.Behind earlier {} { frame := { sequences := earlier } } := by
  have hroot : Reader.Behind earlier {} { frame := ({} : Frame).after earlier } := .root
  simpa [Frame.after] using hroot

theorem exists_read_line {ps : List Pattern}
    (h : (readPattern (lineText line)).run r = .ok (.required ps) s)
    (earlier : List (List Pattern)) (us : List String) :
    ∃ last : Frame, last.Normal ∧ last.content = ps ∧
      (Reader.read (tokens (lineText line) ++ us) { frame := { sequences := earlier } }).run r =
        (Reader.read us { frame := last.after earlier }).run s := by
  obtain ⟨qs, hread, heq⟩ := run_readPattern_eq_ok_iff.1 h
  obtain rfl := Pattern.required.inj heq
  exact Reader.Behind.exists_run_read hread (.start earlier) ⟨.empty, by simp⟩ us

/-- The lines add their alternatives to those of the sequences before them. -/
theorem ReadsLines.run_read (h : ReadsLines r lines pss s)
    (hclosed : ∀ line ∈ lines, Closed (lineText line).toList)
    (hbreak : ∀ line ∈ lines, '\n' ∉ (lineText line).toList) (hne : lines ≠ [])
    (earlier : List (List Pattern)) (hseveral : earlier ≠ [] ∨ 2 ≤ lines.length) :
    (Reader.read (tokens (" | ".intercalate (lines.map lineText)))
      { frame := { sequences := earlier } }).run r =
        .ok (oneOf (distinct (grouped earlier ++ pss.flatMap alternatives))) s := by
  induction h generalizing earlier with
  | nil => exact absurd rfl hne
  | @cons r s t line lines ps pss hline hlines ih =>
    obtain ⟨hclosedLine, hclosed⟩ := List.forall_mem_cons.1 hclosed
    obtain ⟨hbreakLine, hbreak⟩ := List.forall_mem_cons.1 hbreak
    cases lines with
    | nil =>
      cases hlines
      obtain ⟨last, hlast, rfl, hrun⟩ := exists_read_line hline earlier []
      have hearlier : earlier ≠ [] := hseveral.resolve_right (by simp)
      rw [List.append_nil] at hrun
      have htext : " | ".intercalate ([line].map lineText) = lineText line :=
        String.intercalate_singleton
      rw [htext, hrun, List.flatMap_singleton, hlast.alternatives_content, distinct_append_distinct,
        ← Frame.content_after hearlier]
      rfl
    | cons next lines =>
      obtain ⟨last, hlast, rfl, hrun⟩ := exists_read_line hline earlier
        ("|" :: tokens (" | ".intercalate ((next :: lines).map lineText)))
      have hlater := ih hclosed hbreak (List.cons_ne_nil next lines) (earlier ++ last.all)
        (.inl (by simp [Frame.all]))
      have htext : " | ".intercalate ((line :: next :: lines).map lineText) =
          lineText line ++ " | " ++ " | ".intercalate ((next :: lines).map lineText) :=
        String.intercalate_cons_cons
      have hnext : (last.after earlier).next = { sequences := earlier ++ last.all } :=
        Frame.next_after
      rw [htext, tokens_bar_append hclosedLine hbreakLine, hrun, Reader.run_read_bar, hnext, hlater,
        List.flatMap_cons, hlast.alternatives_content, distinct_append_distinct_append,
        grouped_append, List.append_assoc]

/-- A usage section is read line by line, and the alternatives of the lines are put together. -/
theorem readPattern_formal (h : IsUsage program lines usage) (hlines : ReadsLines r lines pss s) :
    ∃ text, formal usage = .ok text ∧
      (readPattern text).run r = .ok (.required (joined pss)) s := by
  refine ⟨_, h.formal_eq, ?_⟩
  have hne := h.nonempty
  have hclosed := h.closed
  have hbreak := h.break_not_mem
  cases hlines with
  | nil => exact absurd rfl hne
  | @cons _ s _ line lines ps pss hline hlater =>
    cases hlater with
    | nil =>
      have htext : " | ".intercalate ([line].map lineText) = lineText line :=
        String.intercalate_singleton
      rw [htext]
      exact hline
    | cons hnext hlater =>
      have hread := ReadsLines.run_read (.cons hline (.cons hnext hlater)) hclosed hbreak hne []
        (.inr (by simp))
      rw [readPattern, EStateM.run_bind, hread]
      rfl

/-- A placeholder that is wrapped, a later line that gives the option of an earlier one its value,
and a line that ends its bracket and opens another: of its two alternatives the second is known. -/
theorem readPattern_formal_wrapped :
    let usage := "Usage: p [--out=<a\n    b>]\n  p --out FILE\n  p go ) | ( --out=<x>"
    let lines := [["[--out=<a", "b>]"], ["--out", "FILE"], ["go", ")", "|", "(", "--out=<x>"]]
    let options : Registry := { entries := [.ofNames none (some "--out") 1] }
    let choices : List Pattern :=
      [.required [.optional [.option 0]], .required [.option 0], .required [.command "go"]]
    let pss : List (List Pattern) := [[.required [.optional [.option 0]]],
      [.required [.option 0]], [.either [.required [.command "go"], .required [.option 0]]]]
    IsUsage "p" lines usage ∧ ReadsLines {} lines pss options ∧
      ∃ text, formal usage = .ok text ∧
        (readPattern text).run {} = .ok (.required [.either choices]) options := by
  intro usage lines options choices pss
  have husage : IsUsage "p" lines usage := by
    refine ⟨by decide, by decide, ?_, "Usage".toList,
      " p [--out=<a\n    b>]\n  p --out FILE\n  p go ) | ( --out=<x>".toList, by decide +kernel,
      by decide, ?_⟩
    · simp [lines, lineText, Closed]
    · exact Text.pieces_eq_iff.1 (by decide +kernel)
  have hfirst : (readPattern (lineText lines[0])).run {} = .ok (.required pss[0]) options := by
    decide +kernel
  have hsecond : (readPattern (lineText lines[1])).run options =
      .ok (.required pss[1]) options := by decide +kernel
  have hthird : (readPattern (lineText lines[2])).run options =
      .ok (.required pss[2]) options := by decide +kernel
  have hlines : ReadsLines {} lines pss options :=
    .cons hfirst (.cons hsecond (.cons hthird .nil))
  exact ⟨husage, hlines, readPattern_formal husage hlines⟩

/-- A single line that ends its bracket and opens another stays a sequence of two groups, while the
alternatives of several lines are single patterns. -/
theorem readPattern_formal_ne_oneOf :
    let line := ["a", ")", "(", "b"]
    let ps : List Pattern := [.required [.command "a"], .required [.command "b"]]
    IsUsage "p" [line] "usage: p a ) ( b" ∧ ReadsLines {} [line] [ps] {} ∧
      ∃ text, formal "usage: p a ) ( b" = .ok text ∧ (readPattern text).run {} ≠
        .ok (.required (oneOf (distinct ([ps].flatMap alternatives)))) {} := by
  intro line ps
  have husage : IsUsage "p" [line] "usage: p a ) ( b" := by
    refine ⟨by decide, by decide, ?_, "usage".toList, " p a ) ( b".toList, rfl, by decide, ?_⟩
    · simp [line, lineText, Closed]
    · exact Text.pieces_eq_iff.1 (by decide +kernel)
  have hread : (readPattern (lineText line)).run {} = .ok (.required ps) {} := by
    decide +kernel
  refine ⟨husage, .cons hread .nil, lineText line, husage.formal_eq, fun h => ?_⟩
  have hcontent := Pattern.required.inj (EStateM.Result.ok.inj (hread.symm.trans h)).1
  cases congrArg List.length hcontent

end Usage

end Synopsis
