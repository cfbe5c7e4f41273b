import Mathlib.Data.List.TakeWhile
import Synopsis.Proofs.Usage.Locality

/-!
# Tokens that stand apart

A text is whole if it stays one token when there are blanks on either side of it: the grouping
tokens, words, and placeholders with what touches them in front. Words and placeholders must not
contain what the grammar cuts out of them. Whole texts with blanks between them are read back one
by one.
-/

namespace Synopsis

namespace Usage

open Text

variable {cs gap rest front name : List Char} {ts : List (List Char)}

/-- Neither blanks nor brackets, bars, ellipses or the beginning of a placeholder. -/
structure PlainWord (cs : List Char) : Prop where
  blank : ∀ c ∈ cs, isBlank c = false
  grouping : ∀ c ∈ cs, isGrouping c = false
  angle : '<' ∉ cs
  ellipsis : ¬ ['.', '.', '.'] <:+: cs

inductive Whole : List Char → Prop
  | grouping {c} : isGrouping c = true → Whole [c]
  | ellipsis : Whole ['.', '.', '.']
  | word {cs : List Char} : cs ≠ [] → PlainWord cs → Whole cs
  | placeholder {front name : List Char} : PlainWord front → PlainWord name → '>' ∉ name →
      Whole (front ++ '<' :: (name ++ ['>']))

inductive Spaced : List (List Char) → List Char → Prop
  | nil {gap : List Char} : (∀ c ∈ gap, isBlank c = true) → Spaced [] gap
  | cons {gap cs rest : List Char} {ts : List (List Char)} : (∀ c ∈ gap, isBlank c = true) →
      Whole cs → Stops rest → Spaced ts rest → Spaced (cs :: ts) (gap ++ (cs ++ rest))

theorem plainWord_nil : PlainWord [] :=
  ⟨by simp, by simp, by simp, by simp⟩

theorem PlainWord.cons {c : Char} (h : PlainWord cs) (hblank : isBlank c = false)
    (hgrouping : isGrouping c = false) (hangle : c ≠ '<') (hdot : c ≠ '.') :
    PlainWord (c :: cs) := by
  refine ⟨List.forall_mem_cons.2 ⟨hblank, h.blank⟩, List.forall_mem_cons.2 ⟨hgrouping, h.grouping⟩,
    fun hmem => ?_, fun hinfix => ?_⟩
  · exact (List.mem_cons.1 hmem).elim (fun heq => hangle heq.symm) h.angle
  · rcases List.infix_cons_iff.1 hinfix with hprefix | hinfix
    · exact hdot (List.cons_prefix_cons.1 hprefix).1.symm
    · exact h.ellipsis hinfix

theorem plainWord_of_all
    (h : cs.all fun c => !isBlank c && !isGrouping c && c != '<' && c != '.') :
    PlainWord cs := by
  induction cs with
  | nil => exact plainWord_nil
  | cons c cs ih =>
    simp only [List.all_cons, Bool.and_eq_true, Bool.not_eq_true', bne_iff_ne, ne_eq] at h
    obtain ⟨⟨⟨⟨hblank, hgrouping⟩, hangle⟩, hdot⟩, hcs⟩ := h
    exact (ih (by simpa using hcs)).cons hblank hgrouping hangle hdot

theorem PlainWord.tail {c : Char} (h : PlainWord (c :: cs)) : PlainWord cs :=
  ⟨(List.forall_mem_cons.1 h.blank).2, (List.forall_mem_cons.1 h.grouping).2,
    fun hmem => h.angle (List.mem_cons_of_mem c hmem),
    fun hdots => h.ellipsis (hdots.trans (List.suffix_cons c cs).isInfix)⟩

theorem PlainWord.pad_eq (h : PlainWord cs) : pad cs = cs := by
  induction cs with
  | nil => rfl
  | cons c cs ih =>
    rw [pad_cons (h.grouping c List.mem_cons_self) fun hdots => h.ellipsis hdots.isInfix, ih h.tail]

theorem PlainWord.break_not_mem (h : PlainWord cs) : '\n' ∉ cs := fun hmem =>
  absurd (h.blank '\n' hmem) (by decide)

theorem closed_of_not_mem (h : '<' ∉ cs) : Closed cs := by
  induction cs with
  | nil => trivial
  | cons c cs ih =>
    obtain ⟨hc, hcs⟩ := not_or.1 (mt List.mem_cons.2 h)
    exact ⟨fun heq => absurd heq.symm hc, ih hcs⟩

theorem closed_concat (cs : List Char) : Closed (cs ++ ['>']) := by
  induction cs with
  | nil => exact ⟨fun hangle => absurd hangle (by decide), trivial⟩
  | cons c cs ih => exact ⟨fun _ => List.mem_append_right cs (List.mem_singleton_self '>'), ih⟩

theorem Whole.closed (h : Whole cs) : Closed cs := by
  cases h with
  | grouping hc =>
    refine closed_of_not_mem ?_
    rw [List.mem_singleton]
    rintro rfl
    exact absurd hc (by decide)
  | ellipsis => exact closed_of_not_mem (by decide)
  | word _ hplain => exact closed_of_not_mem hplain.angle
  | @placeholder front name _ _ _ =>
    have hclosed := closed_concat (front ++ '<' :: name)
    rwa [List.append_assoc, List.cons_append] at hclosed

theorem Whole.break_not_mem (h : Whole cs) : '\n' ∉ cs := by
  cases h with
  | grouping hc =>
    rw [List.mem_singleton]
    rintro rfl
    exact absurd hc (by decide)
  | ellipsis => decide
  | word _ hplain => exact hplain.break_not_mem
  | placeholder hfront hname _ => simp [hfront.break_not_mem, hname.break_not_mem]

theorem dropToken?_word (hne : cs ≠ []) (hblank : ∀ c ∈ cs, isBlank c = false)
    (hangle : '<' ∉ cs) : dropToken? cs = some [] := by
  have hnone : Text.afterLongestRun (!isBlank ·) dropPlaceholder? cs = none :=
    afterLongestRun_eq_none
      (fun c hc cs' => dropPlaceholder?_of_ne (fun heq => hangle (heq ▸ hc)) cs') rfl
  unfold dropToken?
  rw [hnone]
  cases cs with
  | nil => exact absurd rfl hne
  | cons c cs =>
    have hdrop : (c :: cs).dropWhile (!isBlank ·) = [] :=
      List.dropWhile_eq_nil_iff.2 fun x hx => by simp [hblank x hx]
    simp only [hblank c List.mem_cons_self, Bool.false_eq_true, if_false, hdrop]

theorem dropToken?_placeholder (hfront : PlainWord front) (hname : PlainWord name)
    (hclose : '>' ∉ name) : dropToken? (front ++ '<' :: (name ++ ['>'])) = some [] := by
  have hlater : Text.afterLongestRun (!isBlank ·) dropPlaceholder? (name ++ ['>']) = none := by
    refine afterLongestRun_eq_none (fun c hc cs' => dropPlaceholder?_of_ne ?_ cs') rfl
    rintro rfl
    rcases List.mem_append.1 hc with hc | hc
    · exact hname.angle hc
    · exact absurd hc (by decide)
  have hsome : Text.afterLongestRun (!isBlank ·) dropPlaceholder?
      (front ++ '<' :: (name ++ ['>'])) = some [] := by
    refine afterLongestRun_eq_some (fun c hc => by simp [hfront.blank c hc]) ?_
    rw [Text.afterLongestRun, hlater, ite_self]
    exact dropPlaceholder?_append_cons hname.break_not_mem hclose []
  unfold dropToken?
  rw [hsome]

theorem Whole.dropToken?_eq (h : Whole cs) : dropToken? cs = some [] := by
  cases h with
  | @grouping c hc =>
    have hangle : '<' ∉ [c] := by
      rw [List.mem_singleton]
      rintro rfl
      exact absurd hc (by decide)
    exact dropToken?_word (List.cons_ne_nil c [])
      (List.forall_mem_singleton.2 (isBlank_eq_false_of_isGrouping hc)) hangle
  | ellipsis => decide
  | word hne hplain => exact dropToken?_word hne hplain.blank hplain.angle
  | placeholder hfront hname hclose => exact dropToken?_placeholder hfront hname hclose

theorem Whole.cut_eq (h : Whole cs) : cut cs = [cs] := by
  have hdrop := h.dropToken?_eq
  obtain ⟨token, htoken, hcs⟩ := exists_of_dropToken? hdrop
  rw [List.append_nil] at hcs
  have hcut := cut_append_of_some (hcs ▸ htoken.ne_nil) ((List.append_nil cs).symm ▸ hdrop)
  rwa [List.append_nil] at hcut

/-- Padding puts blanks around a whole text at most. -/
theorem Whole.exists_pad_eq (h : Whole cs) : ∃ before after : List Char,
    (∀ c ∈ before, isBlank c = true) ∧ (∀ c ∈ after, isBlank c = true) ∧
      pad cs = before ++ (cs ++ after) := by
  cases h with
  | grouping hc =>
    exact ⟨[' '], [' '], isBlank_of_mem_space, isBlank_of_mem_space, pad_cons_of_isGrouping hc⟩
  | ellipsis => exact ⟨[' '], [' '], isBlank_of_mem_space, isBlank_of_mem_space, rfl⟩
  | word _ hplain =>
    exact ⟨[], [], List.forall_mem_nil _, List.forall_mem_nil _, by simp [hplain.pad_eq]⟩
  | @placeholder front name hfront hname _ =>
    refine ⟨[], [], List.forall_mem_nil _, List.forall_mem_nil _, ?_⟩
    rw [pad_append (by simp), hfront.pad_eq, pad_cons_of_ne (by decide) (by decide),
      pad_append (by simp), hname.pad_eq]
    simp [pad, isGrouping]

theorem spaced_nil : Spaced [] [] :=
  .nil (List.forall_mem_nil _)

theorem Spaced.token (h : Spaced ts rest) (hcs : Whole cs) (hrest : Stops rest) :
    Spaced (cs :: ts) (cs ++ rest) :=
  @Spaced.cons [] cs rest ts (List.forall_mem_nil _) hcs hrest h

theorem Spaced.gap_append (h : Spaced ts cs) (hgap : ∀ c ∈ gap, isBlank c = true) :
    Spaced ts (gap ++ cs) := by
  cases h with
  | nil hnext => exact .nil (List.forall_mem_append.2 ⟨hgap, hnext⟩)
  | cons hnext hcs hrest hts =>
    rw [← List.append_assoc]
    exact .cons (List.forall_mem_append.2 ⟨hgap, hnext⟩) hcs hrest hts

theorem Stops.gap_append (h : Stops rest) (hgap : ∀ c ∈ gap, isBlank c = true) :
    Stops (gap ++ rest) := by
  cases gap with
  | nil => exact h
  | cons c gap => exact fun x hx => Option.some.inj hx ▸ hgap c List.mem_cons_self

theorem Spaced.pad (h : Spaced ts cs) : Spaced ts (pad cs) := by
  induction h with
  | @nil gap hgap =>
    have hpad := pad_gap hgap []
    rw [List.append_nil] at hpad
    rw [hpad, Usage.pad, List.append_nil]
    exact .nil hgap
  | @cons gap cs rest ts hgap hcs hrest _ ih =>
    obtain ⟨before, after, hbefore, hafter, hpad⟩ := hcs.exists_pad_eq
    rw [pad_gap hgap, pad_append hrest.head?_ne, hpad, List.append_assoc, List.append_assoc,
      ← List.append_assoc gap]
    exact .cons (List.forall_mem_append.2 ⟨hgap, hbefore⟩) hcs (hrest.pad.gap_append hafter)
      (ih.gap_append hafter)

theorem Spaced.cut_eq (h : Spaced ts cs) : cut cs = ts := by
  induction h with
  | @nil gap hgap =>
    have hcut := cut_gap hgap []
    rw [List.append_nil] at hcut
    rw [hcut]
    rfl
  | cons hgap hcs hrest _ ih =>
    rw [cut_gap hgap, hcs.closed.cut_append hcs.break_not_mem hrest, hcs.cut_eq, ih]
    rfl

theorem spaced_intercalate (h : ∀ cs ∈ ts, Whole cs) : Spaced ts ([' '].intercalate ts) := by
  induction ts with
  | nil => exact spaced_nil
  | cons cs ts ih =>
    obtain ⟨hcs, hts⟩ := List.forall_mem_cons.1 h
    cases ts with
    | nil => simpa using spaced_nil.token hcs stops_nil
    | cons next ts =>
      rw [List.intercalate_cons_cons, List.append_assoc]
      exact ((ih hts).gap_append isBlank_of_mem_space).token hcs (stops_space _)

/-- Whole tokens with one space between them are the tokens of the text. -/
theorem tokens_intercalate {ts : List String} (h : ∀ t ∈ ts, Whole t.toList) :
    tokens (" ".intercalate ts) = ts := by
  have hspaced := spaced_intercalate (List.forall_mem_map.2 h)
  rw [tokens_eq, String.toList_intercalate]
  refine (congrArg (List.map String.ofList) hspaced.pad.cut_eq).trans ?_
  rw [List.map_map]
  exact (List.map_congr_left fun t _ => String.ofList_toList).trans (List.map_id ts)

end Usage

end Synopsis
