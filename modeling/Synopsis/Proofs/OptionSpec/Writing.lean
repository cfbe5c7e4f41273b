import Mathlib.Data.List.Perm.Basic
import Synopsis.Proofs.OptionSpec.Description
import Synopsis.Proofs.Text.Folding
import Synopsis.Proofs.Text.Scan

/-!
# Descriptions as they are written

The names of an option are read as they are written, in any order and with any separators between
them, and a placeholder among them means a value. The text behind the names counts for the default
alone, which is what stands between its first opening and the last bracket of that line.
-/

namespace Synopsis.OptionSpec

open Text

variable {short long : Option (List Char)} {ws placeholders : List (List Char)} {c : Char}
  {word names text tail value front rest cs gap : List Char}

/-! ### Names and placeholders -/

theorem Names.add_long (hword : ['-', '-'] <+: word) (n : Names) :
    n.add word = { n with long := some (String.ofList word) } :=
  if_pos (List.isPrefixOf_iff_prefix.2 hword)

theorem Names.add_short (hword : ['-'] <+: word) (hlong : ¬ ['-', '-'] <+: word) (n : Names) :
    n.add word = { n with short := some (String.ofList word) } :=
  (if_neg (mt List.isPrefixOf_iff_prefix.1 hlong)).trans
    (if_pos (List.isPrefixOf_iff_prefix.2 hword))

theorem Names.add_placeholder (hword : ¬ ['-'] <+: word) (n : Names) :
    n.add word = { n with arity := 1 } := by
  have hlong : ¬ ['-', '-'] <+: word := fun h => hword ((List.prefix_append ['-'] ['-']).trans h)
  exact (if_neg (mt List.isPrefixOf_iff_prefix.1 hlong)).trans
    (if_neg (mt List.isPrefixOf_iff_prefix.1 hword))

/-- At most one short and one long name, and words for values. A short name begins with one dash, a
long name with two and a word for a value with none. -/
structure Wording (short long : Option (List Char)) (placeholders : List (List Char)) : Prop where
  short : ∀ word ∈ short, ['-'] <+: word ∧ ¬ ['-', '-'] <+: word
  long : ∀ word ∈ long, ['-', '-'] <+: word
  placeholder : ∀ word ∈ placeholders, ¬ ['-'] <+: word

theorem Wording.add_eq (h : Wording short long placeholders)
    (hword : word ∈ short.toList ++ (long.toList ++ placeholders)) :
    (short = some word ∧ ∀ n : Names, n.add word = { n with short := some (String.ofList word) }) ∨
      (long = some word ∧ ∀ n : Names, n.add word = { n with long := some (String.ofList word) }) ∨
      ∀ n : Names, n.add word = { n with arity := 1 } := by
  rcases List.mem_append.1 hword with hshort | hword
  · have hsome : short = some word := Option.mem_toList.1 hshort
    obtain ⟨hdash, hdashes⟩ := h.short word hsome
    exact .inl ⟨hsome, Names.add_short hdash hdashes⟩
  · rcases List.mem_append.1 hword with hlong | hplaceholder
    · have hsome : long = some word := Option.mem_toList.1 hlong
      exact .inr (.inl ⟨hsome, Names.add_long (h.long word hsome)⟩)
    · exact .inr (.inr (Names.add_placeholder (h.placeholder word hplaceholder)))

/-- With one name of either kind it makes no difference which word is read first. -/
theorem Wording.add_comm {word' : List Char} (h : Wording short long placeholders)
    (hword : word ∈ short.toList ++ (long.toList ++ placeholders))
    (hword' : word' ∈ short.toList ++ (long.toList ++ placeholders)) (n : Names) :
    (n.add word).add word' = (n.add word').add word := by
  rcases h.add_eq hword with ⟨hsome, heq⟩ | ⟨hsome, heq⟩ | heq <;>
    rcases h.add_eq hword' with ⟨hsome', heq'⟩ | ⟨hsome', heq'⟩ | heq'
  case inl.inl | inr.inl.inr.inl =>
    obtain rfl : word = word' := Option.some.inj (hsome.symm.trans hsome')
    rfl
  all_goals rw [heq, heq', heq', heq]

theorem foldl_add_placeholders (hplaceholders : ∀ word ∈ placeholders, ¬ ['-'] <+: word)
    (n : Names) :
    placeholders.foldl Names.add n =
      { n with arity := if placeholders = [] then n.arity else 1 } := by
  induction placeholders generalizing n with
  | nil => rfl
  | cons word placeholders ih =>
    obtain ⟨hword, hlater⟩ := List.forall_mem_cons.1 hplaceholders
    rw [List.foldl_cons, Names.add_placeholder hword, ih hlater, ite_self,
      if_neg (List.cons_ne_nil _ _)]

theorem Wording.foldl_add (h : Wording short long placeholders)
    (hws : ws.Perm (short.toList ++ (long.toList ++ placeholders))) :
    ws.foldl Names.add {} =
      { short := short.map String.ofList
        long := long.map String.ofList
        arity := if placeholders = [] then 0 else 1 } := by
  have hshort : ∀ n : Names, short.toList.foldl Names.add n =
      { n with short := (short.map String.ofList).or n.short } := by
    intro n
    cases short with
    | none => rfl
    | some word => exact Names.add_short (h.short word rfl).1 (h.short word rfl).2 n
  have hlong : ∀ n : Names, long.toList.foldl Names.add n =
      { n with long := (long.map String.ofList).or n.long } := by
    intro n
    cases long with
    | none => rfl
    | some word => exact Names.add_long (h.long word rfl) n
  have hcomm : ∀ word ∈ ws, ∀ word' ∈ ws, ∀ n : Names,
      (n.add word).add word' = (n.add word').add word := fun word hword word' hword' =>
    h.add_comm (hws.subset hword) (hws.subset hword')
  rw [hws.foldl_eq' hcomm, List.foldl_append, List.foldl_append, hshort, hlong,
    foldl_add_placeholders h.placeholder, Option.or_none, Option.or_none]

/-! ### Where the names end -/

/-- The words with separators between them, in a text that has no tab and no two spaces in a row. -/
structure NamesText (ws : List (List Char)) (names : List Char) : Prop where
  laid : Laid isNameSeparator ws names
  nonempty : names ≠ []
  first : ∀ c ∈ names.head?, isBlank c = false
  last : ∀ c ∈ names.getLast?, isBlank c = false
  tab : '\t' ∉ names
  spaces : ¬ [' ', ' '] <:+: names

/-- What follows the names: nothing, or two spaces or a tab, and then a text. -/
inductive Tail : (text tail : List Char) → Prop
  | none : Tail [] []
  | behind {gap : List Char} (text : List Char) :
      gap ∈ [[' ', ' '], ['\t']] → Tail text (gap ++ text)

theorem splitNames_cons (htab : c ≠ '\t') (hspaces : c = ' ' → rest.head? ≠ some ' ') :
    splitNames (c :: rest) = (c :: (splitNames rest).1, (splitNames rest).2) := by
  rw [splitNames]
  · rintro later rfl rfl
    exact hspaces rfl rfl
  · exact htab

theorem splitNames_append (htab : '\t' ∉ names) (hspaces : ¬ [' ', ' '] <:+: names)
    (hlast : ∀ c ∈ names.getLast?, isBlank c = false) (hrest : splitNames rest = ([], rest)) :
    splitNames (names ++ rest) = (names, rest) := by
  induction names with
  | nil => exact hrest
  | cons c names ih =>
    have hc : c ≠ '\t' := fun h => htab (h ▸ List.mem_cons_self)
    have hspace : c = ' ' → (names ++ rest).head? ≠ some ' ' := by
      rintro rfl hhead
      cases names with
      | nil => exact absurd (hlast ' ' rfl) (by decide)
      | cons d names =>
        obtain rfl : d = ' ' := Option.some.inj hhead
        exact hspaces (List.prefix_append [' ', ' '] names).isInfix
    have hlater : splitNames (names ++ rest) = (names, rest) := by
      refine ih (fun h => htab (List.mem_cons_of_mem c h))
        (fun h => hspaces (h.trans (List.suffix_cons c names).isInfix)) ?_
      cases names with
      | nil => exact fun _ h => nomatch h
      | cons d names => rwa [List.getLast?_cons_cons] at hlast
    rw [List.cons_append, splitNames_cons hc hspace, hlater]

theorem isBlank_of_mem_gap (hgap : gap ∈ [[' ', ' '], ['\t']]) (hc : c ∈ gap) :
    isBlank c = true := by
  rcases List.mem_pair.1 hgap with rfl | rfl
  · rcases List.mem_pair.1 hc with rfl | rfl <;> rfl
  · rw [List.mem_singleton.1 hc]
    rfl

theorem Tail.trimEnd (h : Tail text tail) : Tail (trimEnd text) (trimEnd tail) := by
  cases h with
  | none => exact .none
  | behind text hgap =>
    rcases trimEnd_gap_append (fun c => isBlank_of_mem_gap hgap) text with ⟨htext, htail⟩ | htail
    · rw [htext, htail]
      exact .none
    · rw [htail]
      exact .behind _ hgap

theorem Tail.splitNames_eq (h : Tail text tail) : splitNames tail = ([], tail) := by
  cases h with
  | none => rfl
  | behind text hgap =>
    rcases List.mem_pair.1 hgap with rfl | rfl <;> rfl

/-! ### The default -/

theorem default?_cons_of_ne (hc : c ≠ '[') (cs : List Char) : default? (c :: cs) = default? cs := by
  have hdrop : dropWord? "[default: ".toList (c :: cs) = none :=
    if_neg fun h => hc (eq_of_alike rfl (by decide) h).symm
  rw [default?, hdrop]
  rfl

theorem default?_gap (hgap : ∀ c ∈ gap, isBlank c = true) (cs : List Char) :
    default? (gap ++ cs) = default? cs := by
  induction gap with
  | nil => rfl
  | cons c gap ih =>
    obtain ⟨hc, hgap⟩ := List.forall_mem_cons.1 hgap
    have hne : c ≠ '[' := by
      rintro rfl
      cases hc
    rw [List.cons_append, default?_cons_of_ne hne, ih hgap]

theorem Tail.default?_eq (h : Tail text tail) : default? tail = default? text := by
  cases h with
  | none => rfl
  | behind _ hgap => exact default?_gap (fun c => isBlank_of_mem_gap hgap) _

theorem contains_of_default? (h : default? cs = some value) :
    Contains "[default: ".toList cs := by
  induction cs with
  | nil => cases h
  | cons c cs ih =>
    rw [default?] at h
    cases hdrop : dropWord? "[default: ".toList (c :: cs) with
    | none =>
      rw [hdrop] at h
      exact (ih h).mono (List.suffix_cons c cs).isInfix
    | some rest =>
      obtain ⟨word, hcs, hword⟩ := dropWord?_eq_some_iff.1 hdrop
      exact ⟨[], word, rest, hcs, hword⟩

theorem uptoBracket?_append {after : List Char} (hvalue : '\n' ∉ value)
    (hafter : ']' ∉ after.takeWhile (· != '\n')) :
    uptoBracket? (value ++ ']' :: after) = some value := by
  have hline : ∀ c ∈ value, (c != '\n') = true := fun c hc =>
    bne_iff_ne.2 fun h => hvalue (h ▸ hc)
  have hnone : afterLongestRun (· != '\n')
      (fun r => if r.head? == some ']' then some r else none) after = none := by
    rw [Option.eq_none_iff_forall_ne_some]
    intro found hfound
    obtain ⟨front, back, rfl, hfront, hback⟩ := exists_of_afterLongestRun hfound
    split_ifs at hback with hhead
    obtain ⟨rest, rfl⟩ := List.head?_eq_some_iff.1 (eq_of_beq hhead)
    rw [List.takeWhile_append_of_pos hfront] at hafter
    exact hafter (List.mem_append_right front List.mem_cons_self)
  have hbracket : afterLongestRun (· != '\n')
      (fun r => if r.head? == some ']' then some r else none) (']' :: after) =
      some (']' :: after) := by
    rw [afterLongestRun, hnone]
    rfl
  rw [uptoBracket?, afterLongestRun_eq_some hline hbracket, Option.map_some, before_append]

theorem default?_append (hfront : ¬ Contains "[default: ".toList front) (rest : List Char) :
    default? (front ++ '[' :: rest) = default? ('[' :: rest) := by
  induction front with
  | nil => rfl
  | cons c front ih =>
    have hlater : ¬ Contains "[default: ".toList front :=
      fun h => hfront (h.mono (List.suffix_cons c front).isInfix)
    have hdrop : dropWord? "[default: ".toList (c :: (front ++ '[' :: rest)) = none := by
      rw [Option.eq_none_iff_forall_ne_some]
      intro back hback
      obtain ⟨word, hsplit, hword⟩ := dropWord?_eq_some_iff.1 hback
      rw [← List.cons_append] at hsplit
      rcases List.append_eq_append_iff.1 hsplit with ⟨inner, rfl, hrest⟩ | ⟨inner, hinner, -⟩
      · cases inner with
        | nil => exact hfront ⟨[], c :: front, [], by simp, by simpa using hword⟩
        | cons d inner =>
          obtain ⟨rfl, -⟩ := List.cons_eq_cons.1 hrest
          cases hword with
          | cons _ hword =>
            exact InAnyCase.not_mem hword rfl (by decide) (by decide)
              (List.mem_append_right front List.mem_cons_self)
      · exact hfront ⟨[], word, inner, hinner, hword⟩
    rw [List.cons_append, default?, hdrop]
    exact ih hlater

/-- The first opening of the text has its bracket on the same line. The value is what stands before
the last one. -/
def GivesDefault (text value : List Char) : Prop :=
  ∃ before word after, text = before ++ (word ++ (value ++ ']' :: after)) ∧
    InAnyCase "[default: ".toList word ∧ ¬ Contains "[default: ".toList before ∧
    '\n' ∉ value ∧ ']' ∉ after.takeWhile (· != '\n')

theorem GivesDefault.default?_eq (h : GivesDefault text value) : default? text = some value := by
  obtain ⟨before, word, after, rfl, hword, hbefore, hvalue, hafter⟩ := h
  cases word with
  | nil => cases hword
  | cons c word =>
    have hdrop : dropWord? "[default: ".toList (c :: (word ++ (value ++ ']' :: after))) =
        some (value ++ ']' :: after) :=
      dropWord?_eq_some_iff.2 ⟨c :: word, rfl, hword⟩
    have hc : c = '[' := by
      cases hword with
      | cons hc _ => exact (eq_of_alike rfl (by decide) hc).symm
    subst hc
    rw [List.cons_append, default?_append hbefore, default?, hdrop, Option.bind_some,
      uptoBracket?_append hvalue hafter]

theorem GivesDefault.trimEnd (h : GivesDefault text value) :
    GivesDefault (trimEnd text) value := by
  obtain ⟨before, word, after, rfl, hword, hbefore, hvalue, hafter⟩ := h
  have hbracket : ∀ c ∈ [']'].getLast?, isBlank c = false := fun c hc => Option.some.inj hc ▸ rfl
  have hend := trimEnd_append (List.cons_ne_nil ']' []) hbracket
    (before ++ (word ++ value)) after
  refine ⟨before, word, Text.trimEnd after, ?_, hword, hbefore, hvalue, fun hmem => ?_⟩
  · simpa using hend
  · exact hafter ((takeWhile_prefix_takeWhile (trimEnd_isPrefix after)).subset hmem)

/-! ### The whole description -/

theorem NamesText.splitNames_eq (h : NamesText ws names) (htail : Tail text tail) :
    splitNames (trim (names ++ tail)) = (names, trimEnd tail) := by
  have htrim : trim (names ++ tail) = names ++ trimEnd tail :=
    trim_append h.nonempty h.first h.last [] tail
  rw [htrim]
  exact splitNames_append h.tab h.spaces h.last htail.trimEnd.splitNames_eq

theorem ofDescription_eq (hwording : Wording short long placeholders)
    (hws : ws.Perm (short.toList ++ (long.toList ++ placeholders))) (hnames : NamesText ws names)
    (htail : Tail text tail) :
    ofDescription (String.ofList (names ++ tail)) =
      match default? (trimEnd text) with
      | some value =>
        { short := short.map String.ofList
          long := long.map String.ofList
          arity := 1
          value := .text (String.ofList value) }
      | none =>
        ofNames (short.map String.ofList) (long.map String.ofList)
          (if placeholders = [] then 0 else 1) := by
  unfold ofDescription
  rw [String.toList_ofList, hnames.splitNames_eq htail]
  simp only [hnames.laid.pieces_eq, hwording.foldl_add hws, htail.trimEnd.default?_eq]
  rfl

/-- The names are those that are written. The option takes a value if there is a placeholder or a
default, and blanks around the description make no difference. -/
theorem ofDescription_written (hwording : Wording short long placeholders)
    (hws : ws.Perm (short.toList ++ (long.toList ++ placeholders))) (hnames : NamesText ws names)
    (htail : Tail text tail) :
    let o := ofDescription (String.ofList (names ++ tail))
    (o.short = short.map String.ofList ∧ o.long = long.map String.ofList) ∧
      (¬ Contains "[default: ".toList text →
        if placeholders = [] then o.arity = 0 ∧ o.value = .flag false
        else o.arity = 1 ∧ o.value = .absent) ∧
      (∀ value, GivesDefault text value → o.arity = 1 ∧ o.value = .text (String.ofList value)) ∧
      ∀ front back : List Char, (∀ c ∈ front, isBlank c = true) → (∀ c ∈ back, isBlank c = true) →
        ofDescription (String.ofList (front ++ (names ++ tail ++ back))) = o := by
  intro o
  have ho : o = _ := ofDescription_eq hwording hws hnames htail
  refine ⟨?_, fun hnone => ?_, fun value hvalue => ?_, fun front back hfront hback => ?_⟩
  · rw [ho]
    cases default? (trimEnd text) <;> exact ⟨rfl, rfl⟩
  · have hdefault : default? (trimEnd text) = none := by
      rw [Option.eq_none_iff_forall_ne_some]
      intro value hvalue
      exact hnone ((contains_of_default? hvalue).mono (trimEnd_isPrefix text).isInfix)
    rw [ho, hdefault]
    split_ifs with hplaceholders
    · exact ⟨rfl, rfl⟩
    · exact ⟨rfl, rfl⟩
  · rw [ho, hvalue.trimEnd.default?_eq]
    exact ⟨rfl, rfl⟩
  · exact ofDescription_surrounded hfront hback (names ++ tail)

theorem ofDescription_written_brackets :
    let placeholders := ["FILE".toList, "FILE".toList]
    let names := "-o FILE, --output=FILE".toList
    let text := "Where to [Default: a[0] b] write.\n[no]".toList
    Wording (some "-o".toList) (some "--output".toList) placeholders ∧
      NamesText ["-o".toList, "FILE".toList, "--output".toList, "FILE".toList] names ∧
      GivesDefault text "a[0] b".toList ∧
      ofDescription "-o FILE, --output=FILE  Where to [Default: a[0] b] write.\n[no]" =
        { short := some "-o", long := some "--output", arity := 1, value := .text "a[0] b" } := by
  intro placeholders names text
  have hwording : Wording (some "-o".toList) (some "--output".toList) placeholders :=
    ⟨by decide, by decide, by decide⟩
  have hnames : NamesText ["-o".toList, "FILE".toList, "--output".toList, "FILE".toList] names :=
    ⟨pieces_eq_iff.1 rfl, List.cons_ne_nil _ _, fun c hc => Option.some.inj hc ▸ rfl,
      fun c hc => Option.some.inj hc ▸ rfl, by decide, by decide⟩
  have hdefault : GivesDefault text "a[0] b".toList :=
    ⟨"Where to ".toList, "[Default: ".toList, " write.\n[no]".toList, rfl, by decide, by decide,
      by decide, by decide⟩
  have hws : ["-o".toList, "FILE".toList, "--output".toList, "FILE".toList].Perm
      (["-o".toList] ++ (["--output".toList] ++ placeholders)) := by decide
  have htail : Tail text ([' ', ' '] ++ text) := .behind text List.mem_cons_self
  obtain ⟨⟨hshort, hlong⟩, -, hgiven, -⟩ := ofDescription_written hwording hws hnames htail
  obtain ⟨harity, hvalue⟩ := hgiven _ hdefault
  refine ⟨hwording, hnames, hdefault, ?_⟩
  rw [OptionSpec.mk.injEq]
  exact ⟨hshort, hlong, harity, hvalue⟩

end Synopsis.OptionSpec
