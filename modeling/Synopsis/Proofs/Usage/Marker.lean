import Mathlib.Data.List.Forall2
import Mathlib.Data.Nat.Find
import Synopsis.Proofs.Text.Folding
import Synopsis.Proofs.Text.Scan
import Synopsis.Proofs.Text.Trimming
import Synopsis.Proofs.Usage.Lines

/-!
# The marker of the usage section

A section has its marker on its first line. The formal usage, however, begins behind the first colon
of the section. This is the colon of the first marker unless the text before the marker has a colon
of its own. In that case the rest of that text and the marker itself are taken for usage.
-/

namespace Synopsis.Usage

open Layout Text

variable {marker word cs rest front tail name : List Char} {source doc s : String}

/-- The place where the marker first stands in a text. -/
structure FirstMarker (marker cs front word tail : List Char) : Prop where
  split : cs = front ++ (word ++ tail)
  inAnyCase : InAnyCase marker word
  first : ∀ front' word' tail' : List Char, cs = front' ++ (word' ++ tail') →
    InAnyCase marker word' → front.length ≤ front'.length

/-! ### The marker in a section -/

theorem exists_firstMarker (h : Contains marker cs) :
    ∃ front word tail, FirstMarker marker cs front word tail := by
  have hplace : ∃ n, ∃ front word tail, cs = front ++ (word ++ tail) ∧ InAnyCase marker word ∧
      front.length = n := by
    obtain ⟨front, word, tail, hsplit, hword⟩ := h
    exact ⟨_, front, word, tail, hsplit, hword, rfl⟩
  classical
  obtain ⟨front, word, tail, hsplit, hword, hlength⟩ := Nat.find_spec hplace
  refine ⟨front, word, tail, hsplit, hword, fun front' word' tail' hsplit' hword' => ?_⟩
  rw [hlength]
  exact Nat.find_min' hplace ⟨front', word', tail', hsplit', hword', rfl⟩

/-- No other marker is complete before the first one is. -/
theorem firstMarker_of_not_contains (hcs : cs = front ++ (word ++ tail))
    (hword : InAnyCase marker word) (h : ¬ Contains marker (front ++ word.dropLast)) :
    FirstMarker marker cs front word tail := by
  refine ⟨hcs, hword, fun front' word' tail' hsplit hword' => ?_⟩
  by_contra hlt
  have hlength : word'.length = word.length := hword'.length_eq.symm.trans hword.length_eq
  have hshort : front' ++ word' <+: cs := by
    rw [hsplit, ← List.append_assoc]
    exact List.prefix_append _ _
  have hlong : front ++ word.dropLast <+: cs := by
    rw [hcs]
    exact (List.prefix_append_right_inj front).2
      ((List.dropLast_prefix word).trans (List.prefix_append word tail))
  have hle : (front' ++ word').length ≤ (front ++ word.dropLast).length := by
    rw [List.length_append, List.length_append, List.length_dropLast]
    omega
  obtain ⟨rest, hrest⟩ := List.prefix_of_prefix_length_le hshort hlong hle
  exact h ⟨front', word', rest, by rw [← hrest, List.append_assoc], hword'⟩

theorem dropLineBreak_suffix (cs : List Char) : dropLineBreak cs <:+ cs := by
  unfold dropLineBreak
  split
  · exact ⟨['\r', '\n'], rfl⟩
  · exact ⟨['\r'], rfl⟩
  · exact ⟨['\n'], rfl⟩
  · exact List.suffix_rfl

theorem dropIndented_suffix (inside : Bool) (cs : List Char) : dropIndented inside cs <:+ cs := by
  induction cs generalizing inside with
  | nil => exact List.suffix_rfl
  | cons c cs ih =>
    rw [dropIndented]
    split_ifs
    · exact (ih _).trans (List.suffix_cons c cs)
    · exact (ih _).trans (List.suffix_cons c cs)
    · exact List.suffix_rfl

theorem exists_of_section? (h : section? marker cs = some rest) :
    ∃ front word middle, cs = (front ++ (word ++ middle)) ++ rest ∧ InAnyCase marker word ∧
      ∀ c ∈ front, isLineBreak c = false := by
  obtain ⟨behind, hrun, hrest⟩ := Option.map_eq_some_iff.1 h
  obtain ⟨front, back, rfl, hfront, hback⟩ := exists_of_afterLongestRun hrun
  obtain ⟨word, rfl, hword⟩ := dropWord?_eq_some_iff.1 hback
  have hsuffix : rest <:+ behind := by
    rw [← hrest]
    exact (dropIndented_suffix _ _).trans
      ((dropLineBreak_suffix _).trans (List.dropWhile_suffix _))
  obtain ⟨middle, rfl⟩ := hsuffix
  refine ⟨front, word, middle, ?_, hword, fun c hc => ?_⟩
  · simp only [List.append_assoc]
  · simpa using hfront c hc

theorem isBlank_of_mem_head? (h : InAnyCase marker word)
    (hmarker : ∀ c ∈ marker.head?, foldPoint c.toNat = c.toNat ∧ isBlank c = false) :
    ∀ c ∈ word.head?, isBlank c = false := by
  cases h with
  | nil => simp
  | @cons c d _ _ hd _ =>
    obtain ⟨hfold, hblank⟩ := hmarker c rfl
    intro e he
    obtain rfl := Option.some.inj he
    exact isBlank_of_alike hfold hblank hd

theorem exists_of_mem_sections {marker : String} (h : s ∈ sections marker source)
    (hne : marker.toList ≠ [])
    (hfirst : ∀ c ∈ marker.toList.head?, foldPoint c.toNat = c.toNat ∧ isBlank c = false)
    (hlast : ∀ c ∈ marker.toList.reverse.head?, foldPoint c.toNat = c.toNat ∧ isBlank c = false) :
    ∃ front word tail, s.toList = front ++ (word ++ tail) ∧ InAnyCase marker.toList word ∧
      ∀ c ∈ front, isLineBreak c = false := by
  obtain ⟨found, hfound, rfl⟩ := List.mem_map.1 h
  obtain ⟨last, cs, rest, hpiece, rfl⟩ := exists_of_mem_scan hfound
  have hsection : section? marker.toList cs = some rest := by
    unfold sectionAt? at hpiece
    split_ifs at hpiece
    exact hpiece
  obtain ⟨front, word, middle, rfl, hword, hfront⟩ := exists_of_section? hsection
  have hnonempty : word ≠ [] := by
    rintro rfl
    exact hne (List.forall₂_nil_right_iff.1 hword)
  have hend : ∀ c ∈ word.getLast?, isBlank c = false := by
    have hreverse : InAnyCase marker.toList.reverse word.reverse := List.rel_reverse hword
    rw [← List.head?_reverse]
    exact isBlank_of_mem_head? hreverse hlast
  refine ⟨trimStart front, word, trimEnd middle, ?_, hword, fun c hc => ?_⟩
  · rw [String.toList_ofList, before_append,
      trim_append hnonempty (isBlank_of_mem_head? hword hfirst) hend]
  · exact hfront c ((List.dropWhile_suffix _).subset hc)

/-! ### The first colon -/

theorem formal_congr {usage usage' : String} (h : body usage.toList = body usage'.toList) :
    formal usage = formal usage' := by
  unfold formal
  rw [h]

/-- A marker has its colons where the word that is alike to it has them. -/
theorem exists_colon_of_inAnyCase (h : InAnyCase (name ++ [':']) word) (hname : ':' ∉ name) :
    ∃ spelling, word = spelling ++ [':'] ∧ ':' ∉ spelling := by
  obtain ⟨spelling, colon, rfl, hspelling, hcolon⟩ := h.exists_append
  cases hcolon with
  | cons hd hnil =>
    cases hnil
    rw [← eq_of_alike (by decide) (by decide) hd]
    exact ⟨spelling, rfl, hspelling.not_mem (by decide) (by decide) hname⟩

theorem body_of_inAnyCase (hname : ':' ∉ name) (h : InAnyCase (name ++ [':']) word)
    (hfront : ':' ∉ front) (tail : List Char) : body (front ++ (word ++ tail)) = tail := by
  obtain ⟨spelling, rfl, hspelling⟩ := exists_colon_of_inAnyCase h hname
  have hbefore : ':' ∉ front ++ spelling :=
    fun hmem => (List.mem_append.1 hmem).elim hfront hspelling
  rw [List.append_assoc, ← List.append_assoc]
  exact body_append_cons hbefore tail

theorem body_usage_append (tail : List Char) :
    body ("usage:" ++ String.ofList tail).toList = tail := by
  have htext : ("usage:" ++ String.ofList tail).toList = "usage".toList ++ ':' :: tail := by
    rw [String.toList_append, String.toList_ofList (l := tail)]
    rfl
  rw [htext]
  exact body_append_cons (by decide) tail

theorem exists_firstMarker_of_usageSection (h : usageSection doc = .ok s) :
    ∃ front word tail, FirstMarker "usage:".toList s.toList front word tail ∧
      ∀ c ∈ front, isLineBreak c = false := by
  have hmem : s ∈ sections "usage:" doc := by
    unfold usageSection at h
    split at h
    · cases h
    · next one hsections =>
      obtain rfl := Except.ok.inj h
      rw [hsections]
      exact List.mem_singleton_self one
    · cases h
  have hfirst : ∀ c ∈ "usage:".toList.head?, foldPoint c.toNat = c.toNat ∧ isBlank c = false := by
    intro c hc
    obtain rfl : 'u' = c := Option.some.inj hc
    exact ⟨by decide, by decide⟩
  have hlast : ∀ c ∈ "usage:".toList.reverse.head?,
      foldPoint c.toNat = c.toNat ∧ isBlank c = false := by
    intro c hc
    obtain rfl : ':' = c := Option.some.inj hc
    exact ⟨by decide, by decide⟩
  obtain ⟨front, word, tail, hsplit, hword, hfront⟩ :=
    exists_of_mem_sections hmem (by decide) hfirst hlast
  obtain ⟨front', word', tail', hfirst⟩ := exists_firstMarker ⟨front, word, tail, hsplit, hword⟩
  refine ⟨front', word', tail', hfirst, fun c hc => hfront c ?_⟩
  have hle := hfirst.first front word tail hsplit hword
  have hprefix : front' <+: front := by
    refine List.prefix_of_prefix_length_le ⟨word' ++ tail', hfirst.split.symm⟩ ?_ hle
    exact ⟨word ++ tail, hsplit.symm⟩
  exact hprefix.subset hc

/-- The first marker stands on the first line, and the usage text begins behind it unless a colon
stands before it. In that case the usage text begins behind that colon. -/
theorem formal_usageSection (h : usageSection doc = .ok s) :
    (∃ front word tail, FirstMarker "usage:".toList s.toList front word tail ∧
      ∀ c ∈ front, isLineBreak c = false) ∧
    ∀ front word tail, FirstMarker "usage:".toList s.toList front word tail →
      (':' ∉ front → formal s = formal ("usage:" ++ String.ofList tail)) ∧
      ∀ ahead behind, front = ahead ++ ':' :: behind → ':' ∉ ahead →
        formal s = formal ("usage:" ++ String.ofList (behind ++ (word ++ tail))) := by
  refine ⟨exists_firstMarker_of_usageSection h, fun front word tail hfirst => ⟨?_, ?_⟩⟩
  · intro hfront
    refine formal_congr ?_
    rw [hfirst.split, body_usage_append]
    exact body_of_inAnyCase (by decide : ':' ∉ "usage".toList) hfirst.inAnyCase hfront tail
  · rintro ahead behind rfl hahead
    refine formal_congr ?_
    rw [hfirst.split, body_usage_append, List.append_assoc]
    exact body_append_cons hahead _

/-- Text without a colon may stand before the marker. -/
theorem formal_usageSection_text :
    let doc := "My tool. USAGE: p x\n  p y"
    let front := "My tool. ".toList
    let tail := " p x\n  p y".toList
    usageSection doc = .ok doc ∧
      FirstMarker "usage:".toList doc.toList front "USAGE:".toList tail ∧
      formal doc = formal ("usage:" ++ String.ofList tail) := by
  intro doc front tail
  have hsection : usageSection doc = .ok doc := by decide +kernel
  have hsplit : doc.toList = front ++ ("USAGE:".toList ++ tail) := by decide
  have hword : InAnyCase "usage:".toList "USAGE:".toList := by decide
  have hbefore : ¬ Contains "usage:".toList (front ++ "USAGE:".toList.dropLast) := by decide
  have hfirst := firstMarker_of_not_contains hsplit hword hbefore
  have hfront : ':' ∉ front := by decide
  exact ⟨hsection, hfirst, ((formal_usageSection hsection).2 front _ tail hfirst).1 hfront⟩

/-- A colon before the marker makes the marker the program. -/
theorem formal_ne_of_colon_before_marker :
    let doc := "Note: usage: p x"
    let tail := " p x".toList
    usageSection doc = .ok doc ∧
      FirstMarker "usage:".toList doc.toList "Note: ".toList "usage:".toList tail ∧
      formal doc = .ok "( p x )" ∧ formal ("usage:" ++ String.ofList tail) = .ok "( x )" := by
  intro doc tail
  have hsection : usageSection doc = .ok doc := by decide +kernel
  have hsplit : doc.toList = "Note: ".toList ++ ("usage:".toList ++ tail) := by decide
  have hword : InAnyCase "usage:".toList "usage:".toList := by decide
  have hbefore : ¬ Contains "usage:".toList ("Note: ".toList ++ "usage:".toList.dropLast) := by
    decide
  have hfirst := firstMarker_of_not_contains hsplit hword hbefore
  exact ⟨hsection, hfirst, by decide +kernel, by decide +kernel⟩

end Synopsis.Usage
