import Synopsis.Proofs.Text.Scan
import Synopsis.Usage.Token

/-!
# Tokens of texts put together

A placeholder in angle brackets can run over blanks, so a text that breaks off inside of one takes
what follows it into its last token. A text in which every angle bracket is closed again does not do
this. Its tokens are the same wherever it stands, as long as a blank follows, and what follows has
its own tokens.
-/

namespace Synopsis

namespace Usage

open Text

variable {cs gap rest front name : List Char}

/-- The text is over or goes on with a blank. -/
def Stops (cs : List Char) : Prop :=
  ∀ c ∈ cs.head?, isBlank c = true

/-- Every opening angle bracket has a closing one behind it. -/
def Closed : List Char → Prop
  | [] => True
  | c :: cs => (c = '<' → '>' ∈ cs) ∧ Closed cs

theorem ne_of_isBlank {c d : Char} (hc : isBlank c = true) (hd : isBlank d = false) : c ≠ d := by
  rintro rfl
  exact Bool.noConfusion (hc.symm.trans hd)

theorem isBlank_of_mem_space : ∀ c ∈ [' '], isBlank c = true :=
  List.forall_mem_singleton.2 (by decide)

theorem stops_nil : Stops [] :=
  fun _ hc => nomatch hc

theorem stops_space (cs : List Char) : Stops (' ' :: cs) := by
  intro c hc
  obtain rfl := Option.some.inj hc
  decide

theorem isBlank_eq_false_of_isGrouping {c : Char} (h : isGrouping c = true) :
    isBlank c = false := by
  unfold isGrouping at h
  simp only [Bool.or_eq_true, beq_iff_eq] at h
  rcases h with (((rfl | rfl) | rfl) | rfl) | rfl <;> decide

/-! ### Padding -/

theorem pad_cons {c : Char} (hc : isGrouping c = false)
    (hdots : ¬ ['.', '.', '.'] <+: c :: rest) : pad (c :: rest) = c :: pad rest := by
  rw [pad]
  · exact if_neg (by simp [hc])
  · rintro rest' rfl rfl
    exact hdots ⟨rest', rfl⟩

theorem pad_cons_of_ne {c : Char} (hc : isGrouping c = false) (hne : c ≠ '.') :
    pad (c :: rest) = c :: pad rest :=
  pad_cons hc fun h => hne (List.cons_prefix_cons.1 h).1.symm

theorem pad_cons_of_isGrouping {c : Char} (hc : isGrouping c = true) :
    pad (c :: rest) = [' ', c, ' '] ++ pad rest := by
  have hne : c ≠ '.' := by
    rintro rfl
    exact absurd hc (by decide)
  rw [pad]
  · exact if_pos hc
  · exact fun _ hdot _ => hne hdot

theorem not_ellipsis_prefix {c : Char}
    (h : ∀ tail, c = '.' → cs = '.' :: '.' :: tail → False) : ¬ ['.', '.', '.'] <+: c :: cs := by
  rintro ⟨tail, htail⟩
  obtain ⟨rfl, rfl⟩ := List.cons.inj htail
  exact h tail rfl rfl

/-- An ellipsis does not run out of a text into what goes on without a dot. -/
theorem ellipsis_prefix_of_append (hne : cs ≠ []) (hrest : rest.head? ≠ some '.')
    (h : ['.', '.', '.'] <+: cs ++ rest) : ['.', '.', '.'] <+: cs := by
  obtain ⟨tail, htail⟩ := h
  match cs with
  | [] => exact absurd rfl hne
  | [a] =>
    obtain ⟨-, rfl⟩ := List.cons.inj htail
    exact absurd rfl hrest
  | [a, b] =>
    obtain ⟨-, htail⟩ := List.cons.inj htail
    obtain ⟨-, rfl⟩ := List.cons.inj htail
    exact absurd rfl hrest
  | a :: b :: c :: cs =>
    obtain ⟨ha, htail⟩ := List.cons.inj htail
    obtain ⟨hb, htail⟩ := List.cons.inj htail
    obtain ⟨hc, -⟩ := List.cons.inj htail
    exact ⟨cs, by rw [← ha, ← hb, ← hc]; rfl⟩

theorem pad_append (hrest : rest.head? ≠ some '.') : pad (cs ++ rest) = pad cs ++ pad rest := by
  induction cs using pad.induct with
  | case1 => rfl
  | case2 cs ih =>
    change [' ', '.', '.', '.', ' '] ++ pad (cs ++ rest) = _
    rw [ih]
    rfl
  | case3 c cs _ hc ih =>
    rw [List.cons_append, pad_cons_of_isGrouping hc, pad_cons_of_isGrouping hc, ih,
      List.append_assoc]
  | case4 c cs hdots hc ih =>
    have hplain : isGrouping c = false := Bool.not_eq_true _ ▸ hc
    have hinside := not_ellipsis_prefix hdots
    have hacross : ¬ ['.', '.', '.'] <+: c :: (cs ++ rest) := fun h =>
      hinside (ellipsis_prefix_of_append (List.cons_ne_nil c cs) hrest h)
    rw [List.cons_append, pad_cons hplain hacross, pad_cons hplain hinside, ih, List.cons_append]

theorem pad_gap (hgap : ∀ c ∈ gap, isBlank c = true) (rest : List Char) :
    pad (gap ++ rest) = gap ++ pad rest := by
  induction gap with
  | nil => rfl
  | cons c cs ih =>
    obtain ⟨hc, hcs⟩ := List.forall_mem_cons.1 hgap
    have hgrouping : isGrouping c = false := by
      rw [Bool.eq_false_iff]
      intro h
      exact Bool.noConfusion (hc.symm.trans (isBlank_eq_false_of_isGrouping h))
    have hne : c ≠ '.' := ne_of_isBlank hc (by decide)
    rw [List.cons_append, pad_cons_of_ne hgrouping hne, ih hcs]
    rfl

theorem mem_pad_iff {c : Char} (hc : c ≠ ' ') : c ∈ pad cs ↔ c ∈ cs := by
  induction cs using pad.induct with
  | case1 => rfl
  | case2 cs ih => simp [pad, hc, ih]
  | case3 d cs _ hd ih => simp [pad_cons_of_isGrouping hd, hc, ih]
  | case4 d cs _ hd ih => simp [pad, hd, ih]

theorem Closed.pad (h : Closed cs) : Closed (pad cs) := by
  induction cs using pad.induct with
  | case1 => trivial
  | case2 cs ih => simpa [Usage.pad, Closed] using ih h.2.2.2
  | case3 c cs _ hc ih =>
    have hne : c ≠ '<' := by
      rintro rfl
      exact absurd hc (by decide)
    simpa [pad_cons_of_isGrouping hc, Closed, hne] using ih h.2
  | case4 c cs hdots hc ih =>
    rw [Usage.pad, if_neg hc]
    · exact ⟨fun hangle => (mem_pad_iff (by decide)).2 (h.1 hangle), ih h.2⟩
    · exact hdots

theorem Stops.head?_ne (h : Stops rest) : rest.head? ≠ some '.' := fun hdot =>
  ne_of_isBlank (h '.' hdot) (by decide) rfl

theorem Stops.pad (h : Stops rest) : Stops (pad rest) := by
  cases rest with
  | nil => exact h
  | cons c rest =>
    have hc : isBlank c = true := h c rfl
    have hgap := pad_gap (List.forall_mem_singleton.2 hc) rest
    rw [List.singleton_append, List.singleton_append] at hgap
    rw [hgap]
    exact h

/-! ### One token -/

theorem dropPlaceholder?_of_ne {c : Char} (h : c ≠ '<') (cs : List Char) :
    dropPlaceholder? (c :: cs) = none := by
  unfold dropPlaceholder?
  split
  · next heq => exact absurd (List.cons.inj heq).1 h
  · rfl

theorem dropPlaceholder?_append_cons (hbreak : '\n' ∉ name) (hclose : '>' ∉ name)
    (rest : List Char) : dropPlaceholder? ('<' :: (name ++ '>' :: rest)) = some rest := by
  have hpass : ∀ c ∈ name, (c != '>' && c != '\n') = true := by
    intro c hc
    have hgt : c ≠ '>' := fun heq => hclose (heq ▸ hc)
    have hne : c ≠ '\n' := fun heq => hbreak (heq ▸ hc)
    simp [hgt, hne]
  rw [dropPlaceholder?, List.dropWhile_append_of_pos hpass]
  rfl

theorem exists_of_dropPlaceholder? (h : dropPlaceholder? cs = some rest) :
    ∃ name, cs = '<' :: (name ++ '>' :: rest) := by
  unfold dropPlaceholder? at h
  split at h
  · next cs =>
    split at h
    · next rest' hdrop =>
      obtain rfl := Option.some.inj h
      refine ⟨cs.takeWhile fun c => c != '>' && c != '\n', ?_⟩
      rw [← hdrop, List.takeWhile_append_dropWhile]
    · cases h
  · cases h

/-- A word, or a placeholder with what touches it in front. -/
inductive IsToken : List Char → Prop
  | word {cs : List Char} : cs ≠ [] → (∀ c ∈ cs, isBlank c = false) → IsToken cs
  | placeholder {front : List Char} (name : List Char) : (∀ c ∈ front, isBlank c = false) →
      IsToken (front ++ '<' :: (name ++ ['>']))

theorem IsToken.ne_nil (h : IsToken cs) : cs ≠ [] := by
  cases h with
  | word hne _ => exact hne
  | placeholder _ _ => simp

theorem exists_of_dropToken? (h : dropToken? cs = some rest) :
    ∃ token, IsToken token ∧ cs = token ++ rest := by
  unfold dropToken? at h
  cases hrun : afterLongestRun (!isBlank ·) dropPlaceholder? cs with
  | some rest' =>
    rw [hrun] at h
    obtain rfl := Option.some.inj h
    obtain ⟨front, back, rfl, hfront, hback⟩ := exists_of_afterLongestRun hrun
    obtain ⟨name, rfl⟩ := exists_of_dropPlaceholder? hback
    exact ⟨_, .placeholder name fun c hc => by simpa using hfront c hc, by simp⟩
  | none =>
    rw [hrun] at h
    cases cs with
    | nil => cases h
    | cons c cs =>
      by_cases hc : isBlank c = true
      · cases (if_pos hc).symm.trans h
      · obtain rfl := Option.some.inj ((if_neg hc).symm.trans h)
        have hword : ∀ d ∈ (c :: cs).takeWhile (!isBlank ·), isBlank d = false := fun d hd => by
          simpa using List.all_eq_true.1 List.all_takeWhile d hd
        refine ⟨(c :: cs).takeWhile (!isBlank ·), .word ?_ hword,
          List.takeWhile_append_dropWhile.symm⟩
        rw [List.takeWhile_cons_of_pos (by simpa using hc)]
        exact List.cons_ne_nil _ _

theorem isBlank_of_dropToken? {c : Char} (h : dropToken? (c :: cs) = none) : isBlank c = true := by
  unfold dropToken? at h
  cases hrun : afterLongestRun (!isBlank ·) dropPlaceholder? (c :: cs) with
  | some rest =>
    rw [hrun] at h
    cases h
  | none =>
    rw [hrun] at h
    by_cases hc : isBlank c = true
    · exact hc
    · cases (if_neg hc).symm.trans h

theorem Stops.dropPlaceholder? (h : Stops rest) : dropPlaceholder? rest = none := by
  cases rest with
  | nil => rfl
  | cons c rest => exact dropPlaceholder?_of_ne (ne_of_isBlank (h c rfl) (by decide)) rest

theorem Stops.afterLongestRun (h : Stops rest) :
    Text.afterLongestRun (!isBlank ·) Usage.dropPlaceholder? rest = none := by
  cases rest with
  | nil => rfl
  | cons c rest =>
    have hc : isBlank c = true := h c rfl
    rw [Text.afterLongestRun, if_neg (by simp [hc])]
    exact h.dropPlaceholder?

theorem Stops.dropWhile (h : Stops rest) : rest.dropWhile (!isBlank ·) = rest := by
  cases rest with
  | nil => rfl
  | cons c rest =>
    have hc : isBlank c = true := h c rfl
    simp [hc]

theorem Stops.dropToken? (h : Stops rest) : dropToken? rest = none := by
  unfold Usage.dropToken?
  rw [h.afterLongestRun]
  cases rest with
  | nil => rfl
  | cons c rest => exact if_pos (h c rfl)

namespace Closed

theorem dropPlaceholder?_append (h : Closed cs) (hbreak : '\n' ∉ cs) (hrest : Stops rest) :
    dropPlaceholder? (cs ++ rest) = (dropPlaceholder? cs).map (· ++ rest) := by
  cases cs with
  | nil => exact hrest.dropPlaceholder?
  | cons c cs =>
    by_cases hc : c = '<'
    · subst hc
      obtain ⟨name, after, rfl, hclose⟩ := List.eq_append_cons_of_mem (h.1 rfl)
      have hname : '\n' ∉ name := fun hmem =>
        hbreak (List.mem_cons_of_mem _ (List.mem_append_left _ hmem))
      rw [List.cons_append, List.append_assoc, List.cons_append,
        dropPlaceholder?_append_cons hname hclose, dropPlaceholder?_append_cons hname hclose]
      rfl
    · rw [List.cons_append, dropPlaceholder?_of_ne hc, dropPlaceholder?_of_ne hc]
      rfl

theorem afterLongestRun_append (h : Closed cs) (hbreak : '\n' ∉ cs) (hrest : Stops rest) :
    Text.afterLongestRun (!isBlank ·) dropPlaceholder? (cs ++ rest) =
      (Text.afterLongestRun (!isBlank ·) dropPlaceholder? cs).map (· ++ rest) := by
  induction cs with
  | nil => exact hrest.afterLongestRun
  | cons c cs ih =>
    have hlater := ih h.2 fun hmem => hbreak (List.mem_cons_of_mem c hmem)
    have hhere := h.dropPlaceholder?_append hbreak hrest
    rw [List.cons_append] at hhere ⊢
    rw [Text.afterLongestRun, Text.afterLongestRun, hlater, hhere]
    by_cases hc : (!isBlank c) = true
    · rw [if_pos hc, if_pos hc]
      cases Text.afterLongestRun (!isBlank ·) dropPlaceholder? cs <;> rfl
    · rw [if_neg hc, if_neg hc]

/-- Where a token can begin, what follows the text does not matter. -/
theorem dropToken?_append (h : Closed cs) (hbreak : '\n' ∉ cs) (hrest : Stops rest) :
    dropToken? (cs ++ rest) = (dropToken? cs).map (· ++ rest) := by
  cases cs with
  | nil => exact hrest.dropToken?
  | cons c cs =>
    unfold dropToken?
    rw [h.afterLongestRun_append hbreak hrest]
    cases Text.afterLongestRun (!isBlank ·) dropPlaceholder? (c :: cs) with
    | some after => rfl
    | none =>
      simp only [Option.map_none, List.cons_append]
      by_cases hc : isBlank c = true
      · rw [if_pos hc, if_pos hc]
        rfl
      · have hdrop : (c :: (cs ++ rest)).dropWhile (!isBlank ·) =
            (c :: cs).dropWhile (!isBlank ·) ++ rest := by
          rw [← List.cons_append, List.dropWhile_append, hrest.dropWhile]
          split
          · next hempty => rw [List.isEmpty_iff.1 hempty, List.nil_append]
          · rfl
        rw [if_neg hc, if_neg hc, hdrop]
        rfl

end Closed

/-! ### All tokens -/

def cut (cs : List Char) : List (List Char) :=
  scan (fun _ => dropToken?) none 0 false cs

/-- What stood before a text does not matter for its tokens. -/
theorem scan_eq_cut (last : Option Char) (closed : Bool) (cs : List Char) :
    scan (fun _ => dropToken?) last 0 closed cs = cut cs := by
  cases cs with
  | nil => rfl
  | cons c cs =>
    unfold cut
    rw [scan, scan]
    cases hdrop : dropToken? (c :: cs) with
    | none => rfl
    | some after =>
      obtain ⟨token, htoken, heq⟩ := exists_of_dropToken? hdrop
      have hbefore : before (c :: cs) after = token := heq ▸ before_append token after
      simp only [hbefore]
      cases token with
      | nil => exact absurd rfl htoken.ne_nil
      | cons d token => rfl

theorem cut_cons_of_none {c : Char} (h : dropToken? (c :: cs) = none) :
    cut (c :: cs) = cut cs :=
  (scan_cons_of_none h).trans (scan_eq_cut (some c) false cs)

theorem cut_append_of_some (hne : front ≠ []) (h : dropToken? (front ++ rest) = some rest) :
    cut (front ++ rest) = front :: cut rest := by
  unfold cut
  rw [scan_append_of_some hne h, scan_eq_cut]
  rfl

/-- Cutting goes from token to token, and over blanks from place to place. -/
theorem cut_induction {motive : List Char → Prop} (nil : motive [])
    (skip : ∀ c cs, dropToken? (c :: cs) = none → motive cs → motive (c :: cs))
    (token : ∀ front rest, IsToken front → dropToken? (front ++ rest) = some rest →
      motive rest → motive (front ++ rest)) (cs : List Char) : motive cs := by
  induction hlength : cs.length using Nat.strongRecOn generalizing cs with
  | ind n ih =>
    cases hdrop : dropToken? cs with
    | none =>
      cases cs with
      | nil => exact nil
      | cons c cs => exact skip c cs hdrop (ih cs.length (hlength ▸ Nat.lt_succ_self _) cs rfl)
    | some rest =>
      obtain ⟨front, hfront, rfl⟩ := exists_of_dropToken? hdrop
      have hshorter : rest.length < n := by
        have hpos := List.length_pos_iff.2 hfront.ne_nil
        rw [← hlength, List.length_append]
        omega
      exact token front rest hfront hdrop (ih rest.length hshorter rest rfl)

theorem cut_gap (hgap : ∀ c ∈ gap, isBlank c = true) (rest : List Char) :
    cut (gap ++ rest) = cut rest := by
  induction gap with
  | nil => rfl
  | cons c gap ih =>
    obtain ⟨hc, hgap⟩ := List.forall_mem_cons.1 hgap
    have hstop : Stops (c :: (gap ++ rest)) := fun x hx => Option.some.inj hx ▸ hc
    rw [List.cons_append, cut_cons_of_none hstop.dropToken?, ih hgap]

theorem Closed.suffix (h : Closed (front ++ rest)) : Closed rest := by
  induction front with
  | nil => exact h
  | cons c front ih => exact ih h.2

theorem Closed.cut_append (h : Closed cs) (hbreak : '\n' ∉ cs) (hrest : Stops rest) :
    cut (cs ++ rest) = cut cs ++ cut rest := by
  induction cs using cut_induction with
  | nil => rfl
  | skip c cs hdrop ih =>
    have hlocal := h.dropToken?_append hbreak hrest
    rw [hdrop, List.cons_append] at hlocal
    rw [List.cons_append, cut_cons_of_none hlocal, cut_cons_of_none hdrop]
    exact ih h.2 fun hmem => hbreak (List.mem_cons_of_mem c hmem)
  | token front after hfront hdrop ih =>
    have hlocal := h.dropToken?_append hbreak hrest
    rw [hdrop, List.append_assoc] at hlocal
    rw [List.append_assoc, cut_append_of_some hfront.ne_nil hlocal,
      cut_append_of_some hfront.ne_nil hdrop, List.cons_append]
    exact congrArg (front :: ·) (ih h.suffix fun hmem => hbreak (List.mem_append_right _ hmem))

theorem tokens_eq (source : String) :
    tokens source = (cut (pad source.toList)).map String.ofList := rfl

/-- A text whose angle brackets are closed has its own tokens, and so has what follows behind a
blank. -/
theorem tokens_append {first second : String} (hclosed : Closed first.toList)
    (hbreak : '\n' ∉ first.toList) (hstops : Stops second.toList) :
    tokens (first ++ second) = tokens first ++ tokens second := by
  have hpadded : '\n' ∉ pad first.toList := fun hmem => hbreak ((mem_pad_iff (by decide)).1 hmem)
  rw [tokens_eq, tokens_eq, tokens_eq, String.toList_append, pad_append hstops.head?_ne,
    hclosed.pad.cut_append hpadded hstops.pad, List.map_append]

theorem tokens_gap_append {gap : String} (hgap : ∀ c ∈ gap.toList, isBlank c = true)
    (rest : String) : tokens (gap ++ rest) = tokens rest := by
  rw [tokens_eq, tokens_eq, String.toList_append, pad_gap hgap, cut_gap hgap]

end Usage

end Synopsis
