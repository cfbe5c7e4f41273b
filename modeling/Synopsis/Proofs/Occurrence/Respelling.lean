import Synopsis.Proofs.Occurrence.Tokens
import Synopsis.Proofs.OptionToken.Spelling

/-!
# The spelling of options does not matter

A cluster can be cut behind a letter that takes no value, a value can be the next token or stand in
the token of its option, and a long name can be cut short as long as no other name begins like it.
Whatever follows, arguments whose first tokens are spelled differently in one of these ways are read
alike: into the same occurrences or with the same fault, and with the same options added to the
registry.
-/

namespace Synopsis.Occurrence

open OptionToken

inductive Respelled (r : Registry) : List String → List String → Prop
  /-- The letter is unknown, a flag or has several entries. -/
  | cluster {c : Char} {cs : List Char} : c ≠ '-' → cs ≠ [] → cs.head? ≠ some '-' →
      (∀ id, r.shortIds (String.ofList ['-', c]) = [id] → (r.spec id).takesValue = false) →
      Respelled r [String.ofList ('-' :: c :: cs)]
        [String.ofList ['-', c], String.ofList ('-' :: cs)]
  | attached {c : Char} {id : OptionId} {value : List Char} : c ≠ '-' → value ≠ [] →
      String.ofList value ≠ "--" → r.shortIds (String.ofList ['-', c]) = [id] →
      (r.spec id).takesValue = true →
      Respelled r [String.ofList ('-' :: c :: value)]
        [String.ofList ['-', c], String.ofList value]
  | equals {word value : List Char} {id : OptionId} : word ≠ [] → '=' ∉ word →
      candidates .input r (String.ofList ('-' :: '-' :: word)) = [id] →
      (r.spec id).takesValue = true → String.ofList value ≠ "--" →
      Respelled r [String.ofList ('-' :: '-' :: (word ++ '=' :: value))]
        [String.ofList ('-' :: '-' :: word), String.ofList value]
  /-- The shorter name belongs to no entry and is the beginning of one name only. -/
  | abbreviated {long start part : List Char} {id : OptionId} : '=' ∉ long →
      r.longIds (String.ofList long) = [id] → start <+: long →
      ['-', '-'] <+: start → 2 < start.length →
      (∀ k < r.size, (r.spec k).long ≠ some (String.ofList start)) →
      (∀ k < r.size, k ≠ id → ∀ name, (r.spec k).long = some name → ¬ start <+: name.toList) →
      (part = [] ∨ part.head? = some '=') →
      Respelled r [String.ofList (long ++ part)] [String.ofList (start ++ part)]

variable {r : Registry} {optionsFirst : Bool} {token : String} {rest : List String}
  {id : OptionId}

theorem run_readTokens_congr {other : String} (hoption : OptionToken.isOption token = true)
    (hother : OptionToken.isOption other = true)
    (h : (OptionToken.read .input token).run r = (OptionToken.read .input other).run r) :
    (readTokens optionsFirst none (token :: rest)).run r =
      (readTokens optionsFirst none (other :: rest)).run r := by
  rw [readTokens_option hoption, readTokens_option hother, EStateM.run_bind, EStateM.run_bind, h]

/-- A letter that takes no value can be cut off its cluster. -/
theorem run_readTokens_cluster {c d : Char} {cs : List Char} (hc : c ≠ '-') (hd : d ≠ '-')
    (hflag : ∀ id, r.shortIds (String.ofList ['-', c]) = [id] → (r.spec id).takesValue = false) :
    (readTokens optionsFirst none (String.ofList ('-' :: c :: d :: cs) :: rest)).run r =
      (readTokens optionsFirst none
        (String.ofList ['-', c] :: String.ofList ('-' :: d :: cs) :: rest)).run r := by
  have hwhole := isOption_short hc (d :: cs)
  have hletter := isOption_short hc []
  have hothers := isOption_short hd cs
  have hread := read_short hc (String.toList_ofList (l := '-' :: c :: d :: cs)) .input
  have hreadLetter := read_short hc (String.toList_ofList (l := ['-', c])) .input
  have hreadOthers := read_short hd (String.toList_ofList (l := '-' :: d :: cs)) .input
  rcases run_readCluster_cons hflag with ⟨fault, hfault⟩ | ⟨id, s, hcons⟩
  · rw [run_readTokens_of_fault hwhole (hread ▸ hfault _),
      run_readTokens_of_fault hletter (hreadLetter ▸ hfault _)]
  · have hone : (OptionToken.read .input (String.ofList ['-', c])).run r =
        .ok (.one id (.flag true)) s := hreadLetter ▸ hcons []
    rw [run_readTokens_one hletter hone, readTokens_option hothers, hreadOthers, map_bind,
      readTokens_option hwhole, hread, EStateM.run_bind, hcons, ← EStateM.run_bind, bind_map_left]
    simp only [readBehind_cons]

theorem candidates_of_abbreviation {long start : List Char}
    (hlong : r.longIds (String.ofList long) = [id]) (hstart : start <+: long)
    (hnone : ∀ k < r.size, (r.spec k).long ≠ some (String.ofList start))
    (hothers : ∀ k < r.size, k ≠ id → ∀ name, (r.spec k).long = some name →
      ¬ start <+: name.toList) :
    candidates .input r (String.ofList start) = [id] := by
  obtain ⟨hid, hname⟩ := Registry.mem_idsWhere.1 (hlong ▸ List.mem_cons_self : id ∈ r.longIds _)
  have hexact : r.longIds (String.ofList start) = [] :=
    Registry.idsWhere_eq_nil fun k hk heq => hnone k hk (eq_of_beq heq)
  rw [candidates_of_longIdsFrom hexact]
  refine Registry.idsWhere_eq_singleton hid ?_ fun k hk hfrom => ?_
  · rw [eq_of_beq hname, Option.any_some, String.toList_ofList, String.toList_ofList]
    exact List.isPrefixOf_iff_prefix.2 hstart
  · obtain ⟨name, hspec, hprefix⟩ := (Option.any_eq_true _ _).1 hfrom
    rw [String.toList_ofList, List.isPrefixOf_iff_prefix] at hprefix
    exact Decidable.byContradiction fun hne => hothers k hk hne name hspec hprefix

/-- A long name is read only for the option that it stands for. -/
theorem run_read_long_congr {word other part : List Char} (hword : '=' ∉ word)
    (hother : '=' ∉ other)
    (hids : candidates .input r (String.ofList ('-' :: '-' :: word)) = [id])
    (hids' : candidates .input r (String.ofList ('-' :: '-' :: other)) = [id])
    (hpart : part = [] ∨ part.head? = some '=') :
    (OptionToken.read .input (String.ofList ('-' :: '-' :: (word ++ part)))).run r =
      (OptionToken.read .input (String.ofList ('-' :: '-' :: (other ++ part)))).run r := by
  rcases hpart with rfl | hpart
  · rw [List.append_nil, List.append_nil, run_read_long hword hids, run_read_long hother hids']
  · obtain ⟨value, rfl⟩ := List.head?_eq_some_iff.1 hpart
    rw [run_read_long_value hword hids, run_read_long_value hother hids']

/-- However the first options are spelled, the arguments are read alike. -/
theorem run_readArguments_respelled {old new : List String} (h : Respelled r old new)
    (optionsFirst : Bool) (rest : List String) :
    (readArguments optionsFirst (old ++ rest)).run r =
      (readArguments optionsFirst (new ++ rest)).run r := by
  unfold readArguments
  cases h with
  | @cluster c cs hc hcs hhead hflag =>
    obtain ⟨d, ds, rfl⟩ := List.exists_cons_of_ne_nil hcs
    have hd : d ≠ '-' := by simpa using hhead
    exact run_readTokens_cluster hc hd hflag
  | @attached c id value hc hvalue hdashes hids hvalued =>
    have hread := run_read_short_value hc hids hvalued hvalue .input
    have hwait := run_read_short hc hids .input
    rw [Reading.bare, if_pos hvalued] at hwait
    exact (run_readTokens_one (isOption_short hc value) hread).trans
      (run_readTokens_wait (isOption_short hc []) hwait hdashes).symm
  | @equals word value id hword hequals hids hvalued hdashes =>
    have hread := run_read_long_value hequals hids value
    have hwait := run_read_long hequals hids
    rw [if_pos hvalued] at hread
    rw [Reading.bare, if_pos hvalued] at hwait
    exact (run_readTokens_one (isOption_long (by simp)) hread).trans
      (run_readTokens_wait (isOption_long hword) hwait hdashes).symm
  | @abbreviated long start part id hequals hlong hstart hdashes hlen hnone hothers hpart =>
    have hids := candidates_of_abbreviation hlong hstart hnone hothers
    have hids' := candidates_of_longIds hlong .input
    have hequals' : '=' ∉ start := fun hmem => hequals (hstart.subset hmem)
    obtain ⟨full, rfl⟩ := hdashes.trans hstart
    obtain ⟨word, rfl⟩ := hdashes
    have hword : word ≠ [] := by
      rintro rfl
      exact absurd hlen (by decide)
    have hfull : full ≠ [] := by
      rintro rfl
      exact absurd (Nat.lt_of_lt_of_le hlen hstart.length_le) (by decide)
    refine run_readTokens_congr (isOption_long (List.append_ne_nil_of_left_ne_nil hfull part))
      (isOption_long (List.append_ne_nil_of_left_ne_nil hword part)) ?_
    exact run_read_long_congr (by simpa using hequals) (by simpa using hequals') hids' hids hpart

theorem run_readArguments_respelled_output :
    let r := Registry.ofDocumented
      [.ofNames (some "-a") none 0, .ofNames (some "-o") (some "--output") 1]
    let read := fun argv => (readArguments true argv).run r
    (Respelled r ["-ao"] ["-a", "-o"] ∧ read ["-ao", "file"] = read ["-a", "-o", "file"]) ∧
      (Respelled r ["-ofile"] ["-o", "file"] ∧ read ["-ofile"] = read ["-o", "file"]) ∧
      (Respelled r ["--output=file"] ["--output", "file"] ∧
        read ["--output=file"] = read ["--output", "file"]) ∧
      Respelled r ["--output=file"] ["--out=file"] ∧
        read ["--output=file"] = read ["--out=file"] := by
  intro r read
  have ha : r.shortIds "-a" = [0] := by decide
  have ho : r.shortIds "-o" = [1] := by decide
  have houtput : r.longIds "--output" = [1] := by decide
  have hcluster : Respelled r ["-ao"] ["-a", "-o"] := by
    refine .cluster (c := 'a') (by decide) (by decide) (by decide) fun id hid => ?_
    obtain rfl : 0 = id := (List.cons.inj (ha.symm.trans hid)).1
    rfl
  have hattached : Respelled r ["-ofile"] ["-o", "file"] :=
    .attached (c := 'o') (by decide) (by decide) (by decide) ho rfl
  have hequals : Respelled r ["--output=file"] ["--output", "file"] :=
    .equals (by decide) (by decide) (candidates_of_longIds houtput .input) rfl (by decide)
  have habbreviated : Respelled r [String.ofList ("--output".toList ++ "=file".toList)]
      [String.ofList ("--out".toList ++ "=file".toList)] := by
    refine .abbreviated (by decide) houtput (by decide) (by decide) (by decide) (by decide) ?_
      (.inr rfl)
    intro k hk hne name hname
    obtain rfl : k = 0 := by
      change k < 2 at hk
      omega
    cases hname
  exact ⟨⟨hcluster, run_readArguments_respelled hcluster true ["file"]⟩,
    ⟨hattached, run_readArguments_respelled hattached true []⟩,
    ⟨hequals, run_readArguments_respelled hequals true []⟩,
    habbreviated, run_readArguments_respelled habbreviated true []⟩

end Synopsis.Occurrence
