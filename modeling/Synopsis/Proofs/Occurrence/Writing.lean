import Synopsis.Proofs.Occurrence.Tokens
import Synopsis.Proofs.OptionToken.Spelling

/-!
# Writing occurrences down

An option is written under its long name, with its value behind an equals sign, or under its short
name, with its value behind the letter. An empty value has no place behind the letter and stands in
a token of its own. When no two entries share a name, reading what has been written gives the
occurrences back, whatever the values are, and adds nothing to the registry.
-/

namespace Synopsis

namespace OptionSpec

/-- The long name, if it is more than its dashes and has no equals sign in it. -/
def writtenLong? (o : OptionSpec) : Option String :=
  o.long.filter fun long =>
    OptionToken.isLong long && long != "--" && !long.toList.contains '='

def writtenUnderLong (long : String) : Value → List String
  | .text value => [long ++ "=" ++ value]
  | _ => [long]

def writtenUnderShort (short : String) : Value → List String
  | .text value => if value = "" then [short, value] else [short ++ value]
  | _ => [short]

def written (o : OptionSpec) (v : Value) : List String :=
  match o.writtenLong? with
  | some long => writtenUnderLong long v
  | none => writtenUnderShort (o.short.getD "") v

/-- The option has a long name to be written under or, lacking one, a short name. -/
inductive Writable (o : OptionSpec) : Prop
  | long {word : List Char} : word ≠ [] → '=' ∉ word →
      o.long = some (String.ofList ('-' :: '-' :: word)) → Writable o
  | short {c : Char} : o.writtenLong? = none → c ≠ '-' →
      o.short = some (String.ofList ['-', c]) → Writable o

theorem writtenLong?_eq {o : OptionSpec} {word : List Char} (hword : word ≠ [])
    (hequals : '=' ∉ word) (hlong : o.long = some (String.ofList ('-' :: '-' :: word))) :
    o.writtenLong? = some (String.ofList ('-' :: '-' :: word)) := by
  have hdashes : (String.ofList ('-' :: '-' :: word) != "--") = true := by
    rw [bne_iff_ne]
    intro h
    have hlist := congrArg String.toList h
    rw [String.toList_ofList] at hlist
    exact hword (List.cons.inj (List.cons.inj hlist).2).2
  rw [writtenLong?, hlong, Option.filter_some, hdashes, if_pos]
  simp [OptionToken.isLong, hequals]

end OptionSpec

namespace Occurrence

open OptionToken OptionSpec

def written (r : Registry) : Occurrence → List String
  | argument _ (.text text) => [text]
  | option id v => (r.spec id).written v
  | _ => []

/-- A positional that is read as one, or an option that can be written, with a value of its
arity. -/
inductive Writable (r : Registry) : Occurrence → Prop
  | positional {text : String} : text = "-" ∨ text.toList.head? ≠ some '-' →
      Writable r (positional text)
  | option {id : OptionId} {v : Value} : id < r.size → (r.spec id).Writable →
      (r.spec id).admits v = true → Writable r (option id v)

variable {r : Registry} {id : OptionId} {v : Value} {x : Occurrence}

theorem run_readTokens_writtenUnderLong {word : List Char} (hword : word ≠ [])
    (hequals : '=' ∉ word) (hids : candidates .input r (String.ofList ('-' :: '-' :: word)) = [id])
    (hv : (r.spec id).admits v = true) (rest : List String) :
    (readTokens false none
        (writtenUnderLong (String.ofList ('-' :: '-' :: word)) v ++ rest)).run r =
      ((option id v :: ·) <$> readTokens false none rest).run r := by
  by_cases hvalued : (r.spec id).takesValue = true
  · obtain ⟨value, rfl⟩ := exists_text_of_admits hv hvalued
    have hread := run_read_long_value hequals hids value.toList
    rw [if_pos hvalued, String.ofList_toList] at hread
    have htoken : String.ofList ('-' :: '-' :: word) ++ "=" ++ value =
        String.ofList ('-' :: '-' :: (word ++ '=' :: value.toList)) :=
      String.toList_injective (by simp)
    rw [writtenUnderLong, htoken]
    exact run_readTokens_one (isOption_long (by simp)) hread
  · obtain rfl := eq_flag_of_admits hv hvalued
    have hread := run_read_long hequals hids
    rw [Reading.bare, if_neg hvalued] at hread
    exact run_readTokens_one (isOption_long hword) hread

theorem run_readTokens_writtenUnderShort {c : Char} (hc : c ≠ '-')
    (hids : r.shortIds (String.ofList ['-', c]) = [id]) (hv : (r.spec id).admits v = true)
    (rest : List String) :
    (readTokens false none (writtenUnderShort (String.ofList ['-', c]) v ++ rest)).run r =
      ((option id v :: ·) <$> readTokens false none rest).run r := by
  have hbare := run_read_short hc hids .input
  by_cases hvalued : (r.spec id).takesValue = true
  · obtain ⟨value, rfl⟩ := exists_text_of_admits hv hvalued
    rw [writtenUnderShort]
    by_cases hempty : value = ""
    · rw [Reading.bare, if_pos hvalued] at hbare
      rw [if_pos hempty]
      have hseparator : value ≠ "--" := by
        rw [hempty]
        decide
      exact run_readTokens_wait (isOption_short hc []) hbare hseparator
    · have hvalue : value.toList ≠ [] := by simpa using hempty
      have hread := run_read_short_value hc hids hvalued hvalue .input
      rw [String.ofList_toList] at hread
      have htoken : String.ofList ['-', c] ++ value = String.ofList ('-' :: c :: value.toList) :=
        String.toList_injective (by simp)
      rw [if_neg hempty, htoken]
      exact run_readTokens_one (isOption_short hc _) hread
  · obtain rfl := eq_flag_of_admits hv hvalued
    rw [Reading.bare, if_neg hvalued] at hbare
    exact run_readTokens_one (isOption_short hc []) hbare

theorem run_readTokens_written (hr : r.Unambiguous) (hx : x.Writable r) (rest : List String) :
    (readTokens false none (x.written r ++ rest)).run r =
      ((x :: ·) <$> readTokens false none rest).run r := by
  cases hx with
  | @positional text htext =>
    have hpositional : OptionToken.isOption text = false := by
      rcases htext with rfl | hdash
      · decide
      · simp [OptionToken.isOption, hdash]
    have hseparator : text ≠ "--" := by
      rintro rfl
      revert htext
      decide
    exact congrArg (EStateM.run · r) (readTokens_positional hseparator hpositional)
  | @option id v hid hname hv =>
    rw [written, OptionSpec.written]
    cases hname with
    | long hword hequals hlong =>
      have hids := candidates_of_longIds (hr.longIds_eq hid hlong) .input
      rw [writtenLong?_eq hword hequals hlong]
      exact run_readTokens_writtenUnderLong hword hequals hids hv rest
    | short hlong hc hshort =>
      rw [hlong, hshort]
      exact run_readTokens_writtenUnderShort hc (hr.shortIds_eq hid hshort) hv rest

theorem readTokens_separated {texts : List String} (h : texts = [] ∨ texts.head? = some "--") :
    readTokens false none texts = pure (texts.map positional) := by
  rcases h with rfl | h
  · rfl
  · obtain ⟨rest, rfl⟩ := List.head?_eq_some_iff.1 h
    rfl

/-- Occurrences that have been written down are read back as they were. From a separator on the
positionals can be any texts. -/
theorem run_readArguments_written (hr : r.Unambiguous) {xs : List Occurrence}
    (hxs : ∀ x ∈ xs, x.Writable r) {texts : List String}
    (htexts : texts = [] ∨ texts.head? = some "--") :
    (readArguments false ((xs ++ texts.map positional).flatMap (written r))).run r =
      .ok (xs ++ texts.map positional) r := by
  unfold readArguments
  induction xs with
  | nil =>
    have htokens : (texts.map positional).flatMap (written r) = texts := by
      rw [List.flatMap_map]
      exact List.flatMap_singleton' texts
    rw [List.nil_append, htokens, readTokens_separated htexts]
    rfl
  | cons x xs ih =>
    obtain ⟨hx, hxs⟩ := List.forall_mem_cons.1 hxs
    rw [List.cons_append, List.flatMap_cons, run_readTokens_written hr hx, map_eq_pure_bind,
      EStateM.run_bind, ih hxs]
    rfl

theorem run_readArguments_written_values :
    let r := Registry.ofDocumented [.ofNames (some "-a") none 0,
      .ofNames (some "-o") (some "--output") 1, .ofNames (some "-x") none 1]
    let xs := [option 0 (.flag true), option 1 (.text "--"), option 2 (.text ""),
      option 2 (.text "-a"), positional "-", positional "last"]
    r.Unambiguous ∧ (∀ x ∈ xs, x.Writable r) ∧
      (readArguments false
          ["-a", "--output=--", "-x", "", "-x-a", "-", "last", "--", "-a"]).run r =
        .ok (xs ++ [positional "--", positional "-a"]) r := by
  intro r xs
  have hr : r.Unambiguous := ⟨by decide, by decide⟩
  have ha : (r.spec 0).Writable := .short (c := 'a') rfl (by decide) rfl
  have hlong : (r.spec 1).long = some (String.ofList ('-' :: '-' :: "output".toList)) := by decide
  have houtput : (r.spec 1).Writable := .long (by decide) (by decide) hlong
  have hx : (r.spec 2).Writable := .short (c := 'x') rfl (by decide) rfl
  have hxs : ∀ x ∈ xs, x.Writable r := by
    simp only [xs, List.forall_mem_cons, List.not_mem_nil, false_imp_iff, implies_true, and_true]
    exact ⟨.option (by decide) ha rfl, .option (by decide) houtput rfl, .option (by decide) hx rfl,
      .option (by decide) hx rfl, .positional (.inl rfl), .positional (.inr (by decide))⟩
  have htexts : ["--", "-a"] = [] ∨ ["--", "-a"].head? = some "--" := .inr rfl
  exact ⟨hr, hxs, run_readArguments_written hr hxs htexts⟩

end Occurrence

end Synopsis
