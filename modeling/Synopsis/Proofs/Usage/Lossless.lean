import Mathlib.Data.List.Infix
import Synopsis.Proofs.Usage.Tokens

/-!
# Tokens lose nothing

Blanks apart, the tokens of a text hold all of its characters in their order. In a text without
angle brackets every token is whole: it is a bracket, a bar or an ellipsis, or it has none of them
in it. The tokens of such a text can be written with one space between them and read again.
-/

namespace Synopsis.Usage

open Text

variable {cs rest : List Char}

def solid (cs : List Char) : List Char :=
  cs.filter (!isBlank ·)

/-- The tokens that the grammar cuts out of a text wherever they stand. -/
def marks : List String :=
  ["(", ")", "[", "]", "|", "..."]

theorem solid_cons_of_blank {c : Char} (hc : isBlank c = true) : solid (c :: cs) = solid cs :=
  List.filter_cons_of_neg (by simpa using hc)

theorem solid_cons {c : Char} (hc : isBlank c = false) : solid (c :: cs) = c :: solid cs :=
  List.filter_cons_of_pos (by simpa using hc)

theorem solid_append (cs rest : List Char) : solid (cs ++ rest) = solid cs ++ solid rest :=
  List.filter_append ..

theorem solid_pad (cs : List Char) : solid (pad cs) = solid cs := by
  induction cs using pad.induct with
  | case1 => rfl
  | case2 cs ih =>
    have hdots : solid (pad ('.' :: '.' :: '.' :: cs)) = ['.', '.', '.'] ++ solid (pad cs) := rfl
    rw [hdots, ih]
    rfl
  | case3 c cs _ hc ih =>
    have hsolid := isBlank_eq_false_of_isGrouping hc
    rw [pad_cons_of_isGrouping hc, List.cons_append, solid_cons_of_blank (by decide),
      List.cons_append, solid_cons hsolid, List.cons_append, solid_cons_of_blank (by decide),
      List.nil_append, ih, solid_cons hsolid]
  | case4 c cs hdots hc ih =>
    have hpad : pad (c :: cs) = c :: pad cs := by
      rw [pad, if_neg hc]
      exact hdots
    rw [hpad]
    by_cases hblank : isBlank c = true
    · rw [solid_cons_of_blank hblank, solid_cons_of_blank hblank, ih]
    · have hsolid : isBlank c = false := Bool.eq_false_iff.2 hblank
      rw [solid_cons hsolid, solid_cons hsolid, ih]

/-! ### Any text -/

theorem solid_flatten_cut (cs : List Char) : solid (cut cs).flatten = solid cs := by
  induction cs using cut_induction with
  | nil => rfl
  | skip c cs hdrop ih =>
    rw [cut_cons_of_none hdrop, solid_cons_of_blank (isBlank_of_dropToken? hdrop), ih]
  | token front rest hfront hdrop ih =>
    rw [cut_append_of_some hfront.ne_nil hdrop, List.flatten_cons, solid_append, solid_append, ih]

theorem isToken_of_mem_cut {token : List Char} (h : token ∈ cut cs) : IsToken token := by
  induction cs using cut_induction with
  | nil => cases h
  | skip c cs hdrop ih =>
    rw [cut_cons_of_none hdrop] at h
    exact ih h
  | token front rest hfront hdrop ih =>
    rw [cut_append_of_some hfront.ne_nil hdrop] at h
    rcases List.mem_cons.1 h with rfl | hlater
    · exact hfront
    · exact ih hlater

theorem IsToken.isBlank_head (h : IsToken cs) : ∃ c ∈ cs.head?, isBlank c = false := by
  cases h with
  | word hne hword => exact ⟨cs.head hne, List.head?_eq_some_head hne, hword _ (List.head_mem hne)⟩
  | @placeholder front name hfront =>
    cases front with
    | nil => exact ⟨'<', rfl, by decide⟩
    | cons c front => exact ⟨c, rfl, hfront c List.mem_cons_self⟩

theorem IsToken.of_blank (h : IsToken cs) (hblank : ∃ c ∈ cs, isBlank c = true) :
    '<' ∈ cs ∧ cs.getLast? = some '>' := by
  cases h with
  | word _ hword =>
    obtain ⟨c, hc, hblank⟩ := hblank
    rw [hword c hc] at hblank
    cases hblank
  | @placeholder front name _ =>
    refine ⟨by simp, ?_⟩
    rw [← List.cons_append, ← List.append_assoc]
    exact List.getLast?_concat

/-! ### Texts without angle brackets -/

/-- A padded text begins with a space, or with a character of the text that is no grouping. -/
theorem pad_eq_cons {c : Char} (h : pad cs = c :: rest) :
    c = ' ' ∨ isGrouping c = false ∧ ∃ cs', cs = c :: cs' ∧ pad cs' = rest := by
  unfold pad at h
  split at h
  · cases h
  · exact .inl (List.cons.inj h).1.symm
  · next d cs _ =>
    by_cases hd : isGrouping d = true
    · rw [if_pos hd] at h
      exact .inl (List.cons.inj h).1.symm
    · rw [if_neg hd] at h
      obtain ⟨rfl, hrest⟩ := List.cons.inj h
      exact .inr ⟨Bool.eq_false_iff.2 hd, cs, rfl, hrest⟩

theorem dots_prefix_of_pad {n : Nat} (h : List.replicate n '.' <+: pad cs) :
    List.replicate n '.' <+: cs := by
  induction n generalizing cs with
  | zero => exact List.nil_prefix
  | succ n ih =>
    obtain ⟨rest, hrest⟩ := h
    obtain hspace | ⟨-, cs', rfl, hpad⟩ := pad_eq_cons hrest.symm
    · exact absurd hspace (by decide)
    · exact List.cons_prefix_cons.2 ⟨rfl, ih ⟨rest, hpad.symm⟩⟩

/-- An ellipsis never stands at the beginning, since there is a space before it. -/
theorem not_ellipsis_prefix_pad (cs : List Char) : ¬ ['.', '.', '.'] <+: pad cs := by
  intro h
  obtain ⟨rest, rfl⟩ := dots_prefix_of_pad (n := 3) h
  obtain ⟨tail, htail⟩ := h
  exact absurd (List.cons.inj htail).1 (by decide)

theorem plainWord_of_pad {word : List Char} (hword : Whole word) (hangle : '<' ∉ word)
    (h : pad cs = word ++ rest) : PlainWord word := by
  cases hword with
  | @grouping c hc =>
    obtain rfl | ⟨hplain, -⟩ := pad_eq_cons h
    · exact absurd hc (by decide)
    · rw [hc] at hplain
      cases hplain
  | ellipsis => exact absurd ⟨rest, h.symm⟩ (not_ellipsis_prefix_pad cs)
  | word _ hplain => exact hplain
  | placeholder _ _ _ => exact absurd (by simp) hangle

theorem PlainWord.cons_of_pad {c : Char} {word : List Char} (hword : PlainWord word)
    (hblank : isBlank c = false) (hgrouping : isGrouping c = false) (hangle : c ≠ '<')
    (hdots : ¬ ['.', '.', '.'] <+: c :: cs) (h : pad cs = word ++ rest) :
    PlainWord (c :: word) := by
  refine ⟨List.forall_mem_cons.2 ⟨hblank, hword.blank⟩,
    List.forall_mem_cons.2 ⟨hgrouping, hword.grouping⟩, fun hmem => ?_, fun hinfix => ?_⟩
  · exact (List.mem_cons.1 hmem).elim (fun heq => hangle heq.symm) hword.angle
  · rcases List.infix_cons_iff.1 hinfix with hprefix | hinfix
    · obtain ⟨hc, hprefix⟩ := List.cons_prefix_cons.1 hprefix
      have hpad : List.replicate 2 '.' <+: pad cs :=
        h ▸ hprefix.trans (List.prefix_append word rest)
      exact hdots (List.cons_prefix_cons.2 ⟨hc, dots_prefix_of_pad hpad⟩)
    · exact hword.ellipsis hinfix

/-- A character in front of a padded text begins a word of its own, or it belongs to the word that
follows at once. -/
theorem exists_spaced_cons {c : Char} {ts : List (List Char)} (h : Spaced ts (pad cs))
    (hsolid : isBlank c = false) (hgrouping : isGrouping c = false) (hangle : '<' ∉ c :: cs)
    (hdots : ¬ ['.', '.', '.'] <+: c :: cs) : ∃ ts, Spaced ts (c :: pad cs) := by
  obtain ⟨hne, hlater⟩ := not_or.1 (mt List.mem_cons.2 hangle)
  have hdot : ¬ ['.', '.', '.'] <+: [c] := by simp
  have hnil : pad [] = [] ++ [] := rfl
  have halone : Whole [c] := .word (List.cons_ne_nil c [])
    (plainWord_nil.cons_of_pad hsolid hgrouping (Ne.symm hne) hdot hnil)
  have hpadded : '<' ∉ pad cs := fun hmem => hlater ((mem_pad_iff (by decide)).1 hmem)
  generalize hpad : pad cs = padded at h hpadded
  cases h with
  | nil hgap =>
    exact ⟨_, (Spaced.nil hgap).token halone fun d hd => hgap d (List.mem_of_mem_head? hd)⟩
  | @cons gap word rest ts hgap hword hrest hts =>
    cases gap with
    | nil =>
      rw [List.nil_append] at hpad hpadded
      have hplain := plainWord_of_pad hword
        (fun hmem => hpadded (List.mem_append_left rest hmem)) hpad
      have hlonger : Whole (c :: word) := .word (List.cons_ne_nil c word)
        (hplain.cons_of_pad hsolid hgrouping (Ne.symm hne) hdots hpad)
      exact ⟨_, hts.token hlonger hrest⟩
    | cons d gap =>
      have hstops : Stops (d :: gap ++ (word ++ rest)) := fun x hx =>
        Option.some.inj hx ▸ hgap d List.mem_cons_self
      exact ⟨_, (Spaced.cons hgap hword hrest hts).token halone hstops⟩

theorem exists_spaced_pad (h : '<' ∉ cs) : ∃ ts, Spaced ts (pad cs) := by
  induction cs using pad.induct with
  | case1 => exact ⟨[], spaced_nil⟩
  | case2 cs ih =>
    obtain ⟨ts, hts⟩ := ih (by simpa using h)
    exact ⟨_, ((hts.gap_append isBlank_of_mem_space).token .ellipsis (stops_space _)).gap_append
      isBlank_of_mem_space⟩
  | case3 c cs _ hc ih =>
    obtain ⟨ts, hts⟩ := ih fun hmem => h (List.mem_cons_of_mem c hmem)
    rw [pad_cons_of_isGrouping hc]
    exact ⟨_, ((hts.gap_append isBlank_of_mem_space).token (.grouping hc)
      (stops_space _)).gap_append isBlank_of_mem_space⟩
  | case4 c cs hdots hc ih =>
    obtain ⟨ts, hts⟩ := ih fun hmem => h (List.mem_cons_of_mem c hmem)
    have hgrouping : isGrouping c = false := Bool.eq_false_iff.2 hc
    have hprefix := not_ellipsis_prefix hdots
    rw [pad_cons hgrouping hprefix]
    by_cases hblank : isBlank c = true
    · have hgap : ∀ d ∈ [c], isBlank d = true := List.forall_mem_singleton.2 hblank
      exact ⟨ts, hts.gap_append hgap⟩
    · exact exists_spaced_cons hts (Bool.eq_false_iff.2 hblank) hgrouping h hprefix

theorem Spaced.whole {ts : List (List Char)} (h : Spaced ts cs) : ∀ token ∈ ts, Whole token := by
  induction h with
  | nil _ => simp
  | cons _ hcs _ _ ih => exact List.forall_mem_cons.2 ⟨hcs, ih⟩

theorem whole_of_mem_tokens {source : String} (h : '<' ∉ source.toList) :
    ∀ t ∈ tokens source, Whole t.toList := by
  intro t ht
  obtain ⟨token, htoken, rfl⟩ := List.mem_map.1 ht
  obtain ⟨ts, hts⟩ := exists_spaced_pad h
  rw [String.toList_ofList]
  exact hts.whole token (hts.cut_eq ▸ htoken)

theorem PlainWord.unmarked (h : PlainWord cs) : ∀ mark ∈ marks, ¬ mark.toList <:+: cs := by
  have hsingle : ∀ c : Char, isGrouping c = true → ¬ [c] <:+: cs := by
    intro c hc hinside
    have hplain := h.grouping c (hinside.subset (List.mem_singleton_self c))
    rw [hc] at hplain
    cases hplain
  simp only [marks, List.forall_mem_cons]
  exact ⟨hsingle '(' rfl, hsingle ')' rfl, hsingle '[' rfl, hsingle ']' rfl, hsingle '|' rfl,
    h.ellipsis, by simp⟩

theorem Whole.mark_or_unmarked {t : String} (h : Whole t.toList) (hangle : '<' ∉ t.toList) :
    t ∈ marks ∨ ∀ mark ∈ marks, ¬ mark.toList <:+: t.toList := by
  generalize hcs : t.toList = cs at h hangle
  cases h with
  | @grouping c hc =>
    left
    obtain rfl : t = String.ofList [c] := String.toList_injective (by simp [hcs])
    simp only [isGrouping, Bool.or_eq_true, beq_iff_eq] at hc
    rcases hc with (((rfl | rfl) | rfl) | rfl) | rfl <;> decide
  | ellipsis =>
    left
    obtain rfl : t = "..." := String.toList_injective (by simp [hcs])
    decide
  | word _ hplain => exact .inr hplain.unmarked
  | placeholder _ _ _ => exact absurd (by simp) hangle

/-! ### All tokens -/

theorem solid_tokens (source : String) :
    solid ((tokens source).flatMap String.toList) = solid source.toList := by
  have hflat : (tokens source).flatMap String.toList = (cut (pad source.toList)).flatten := by
    rw [tokens_eq, List.flatMap_map]
    simp only [String.toList_ofList, List.flatMap_id']
  rw [hflat, solid_flatten_cut, solid_pad]

theorem isToken_of_mem_tokens {source t : String} (h : t ∈ tokens source) : IsToken t.toList := by
  obtain ⟨token, htoken, rfl⟩ := List.mem_map.1 h
  rw [String.toList_ofList]
  exact isToken_of_mem_cut htoken

theorem angle_not_mem_of_mem_tokens {source t : String} (h : '<' ∉ source.toList)
    (ht : t ∈ tokens source) : '<' ∉ t.toList := by
  intro hmem
  have hsolid : '<' ∈ solid ((tokens source).flatMap String.toList) :=
    List.mem_filter.2 ⟨List.mem_flatMap.2 ⟨t, ht, hmem⟩, by decide⟩
  rw [solid_tokens] at hsolid
  exact h (List.mem_filter.1 hsolid).1

/-- No character other than a blank is lost or made up, and blanks stay in placeholders only. A text
without angle brackets is cut at all brackets, bars and ellipses, once and for all. -/
theorem tokens_lossless (source : String) :
    solid ((tokens source).flatMap String.toList) = solid source.toList ∧
      (∀ t ∈ tokens source, (∃ c ∈ t.toList.head?, isBlank c = false) ∧
        ((∃ c ∈ t.toList, isBlank c = true) → '<' ∈ t.toList ∧ t.toList.getLast? = some '>')) ∧
      ('<' ∉ source.toList →
        (∀ t ∈ tokens source, t ∈ marks ∨ ∀ mark ∈ marks, ¬ mark.toList <:+: t.toList) ∧
          tokens (" ".intercalate (tokens source)) = tokens source) := by
  refine ⟨solid_tokens source, fun t ht => ?_, fun hangle => ⟨fun t ht => ?_, ?_⟩⟩
  · have htoken := isToken_of_mem_tokens ht
    exact ⟨htoken.isBlank_head, htoken.of_blank⟩
  · exact (whole_of_mem_tokens hangle t ht).mark_or_unmarked
      (angle_not_mem_of_mem_tokens hangle ht)
  · exact tokens_intercalate (whole_of_mem_tokens hangle)

theorem tokens_lossless_dots :
    '<' ∉ "go....[a|b]".toList ∧
      tokens "go....[a|b]" = ["go", "...", ".", "[", "a", "|", "b", "]"] ∧
      tokens "go ... . [ a | b ]" = ["go", "...", ".", "[", "a", "|", "b", "]"] := by
  have hangle : '<' ∉ "go....[a|b]".toList := by decide
  have htokens : tokens "go....[a|b]" = ["go", "...", ".", "[", "a", "|", "b", "]"] := by decide
  have hagain := ((tokens_lossless "go....[a|b]").2.2 hangle).2
  rw [htokens] at hagain
  exact ⟨hangle, htokens, hagain⟩

end Synopsis.Usage
