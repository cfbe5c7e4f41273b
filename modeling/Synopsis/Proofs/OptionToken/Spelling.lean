import Synopsis.Proofs.OptionToken

/-!
# How option tokens are spelled

A long token is cut at its first equals sign, and a name that one entry has, or that is short for
the name of one entry, stands for this entry. A cluster goes letter by letter: a letter that takes
a value has the rest of the cluster for it, and any other letter could as well stand in a token of
its own.
-/

namespace Synopsis.OptionToken

variable {phase : Phase} {r : Registry} {id : OptionId} {c : Char} {cs value : List Char}
  {token long : String}

/-! ### The parts of a token -/

theorem ne_equals_of_not_mem (h : '=' ∉ cs) : ∀ c ∈ cs, (c != '=') = true := by
  intro c hc
  have hne : c ≠ '=' := fun heq => h (heq ▸ hc)
  simpa using hne

theorem splitValue_of_not_mem (h : '=' ∉ token.toList) : splitValue token = (token, none) := by
  have hnil : token.toList.dropWhile (· != '=') = [] := by
    rw [← List.append_nil token.toList, List.dropWhile_append_of_pos (ne_equals_of_not_mem h)]
    rfl
  simp only [splitValue, hnil]

theorem splitValue_equals (h : '=' ∉ cs) (value : List Char) :
    splitValue (String.ofList (cs ++ '=' :: value)) =
      (String.ofList cs, some (String.ofList value)) := by
  have hpass := ne_equals_of_not_mem h
  have hdrop : (cs ++ '=' :: value).dropWhile (· != '=') = '=' :: value :=
    List.dropWhile_append_of_pos hpass
  have htake : (cs ++ '=' :: value).takeWhile (· != '=') = cs := by
    rw [List.takeWhile_append_of_pos hpass]
    simp
  simp only [splitValue, String.toList_ofList, hdrop, htake]

theorem eq_of_splitValue_none {name : String} (h : splitValue token = (name, none)) :
    name = token := by
  simp only [splitValue] at h
  split at h
  · exact (congrArg Prod.fst h).symm
  · cases h

theorem eq_of_splitValue_some {name value : String} (h : splitValue token = (name, some value)) :
    name ++ "=" ++ value = token := by
  simp only [splitValue] at h
  split at h
  · cases h
  · rename_i c cs hdrop
    have hsplit := List.takeWhile_append_dropWhile (p := (· != '=')) (l := token.toList)
    have hc := List.head?_dropWhile_not (· != '=') token.toList
    rw [hdrop] at hsplit hc
    have heq : c = '=' := by simpa using hc
    cases h
    apply String.toList_injective
    rw [heq] at hsplit
    simpa using hsplit

theorem isOption_iff : isOption token = true ↔
    ∃ c cs, token.toList = '-' :: c :: cs ∧ (c ≠ '-' ∨ cs ≠ []) := by
  constructor
  · intro h
    simp only [isOption, Bool.and_eq_true, beq_iff_eq, bne_iff_ne] at h
    obtain ⟨⟨hhead, hdash⟩, hdashes⟩ := h
    obtain ⟨tail, htail⟩ := List.head?_eq_some_iff.1 hhead
    cases tail with
    | nil => exact absurd (String.toList_injective htail) hdash
    | cons c cs =>
      refine ⟨c, cs, htail, Classical.or_iff_not_imp_left.2 fun hc hcs => ?_⟩
      obtain rfl := Classical.not_not.1 hc
      exact hdashes (String.toList_injective (htail.trans (by rw [hcs]; rfl)))
  · rintro ⟨c, cs, htoken, hshape⟩
    have hdash : token ≠ "-" := by
      rintro rfl
      cases htoken
    have hdashes : token ≠ "--" := by
      rintro rfl
      obtain ⟨rfl, rfl⟩ : '-' = c ∧ [] = cs := by simpa using htoken
      simp at hshape
    simp [isOption, htoken, hdash, hdashes]

theorem read_long (h : token.toList = '-' :: '-' :: cs) (phase : Phase) :
    read phase token = readLong phase token := by
  have hlong : isLong token = true := by simp [isLong, h]
  rw [read, if_pos hlong]

theorem read_short (hc : c ≠ '-') (h : token.toList = '-' :: c :: cs) (phase : Phase) :
    read phase token = readCluster (c :: cs) := by
  have hlong : ¬ isLong token = true := by simp [isLong, h, Ne.symm hc]
  have hdrop : token.toList.dropWhile (· == '-') = c :: cs := by simp [h, hc]
  rw [read, if_neg hlong, hdrop]

theorem ne_empty_of_read {s : Registry} {reading : Reading} (hoption : isOption token = true)
    (h : (read phase token).run r = .ok reading s) : reading ≠ {} := by
  obtain ⟨c, cs, htoken, -⟩ := isOption_iff.1 hoption
  by_cases hc : c = '-'
  · rw [read_long (hc ▸ htoken)] at h
    exact (readsLong_of_run h).ne_empty
  · rw [read_short hc htoken] at h
    exact (run_readCluster_eq_ok_iff.1 h).ne_empty

/-! ### Long names -/

def Reading.bare (options : Registry) (id : OptionId) (name : String) : Reading :=
  if (options.spec id).takesValue then .wait id name else .one id (.flag true)

theorem candidates_of_longIds (h : r.longIds long = [id]) (phase : Phase) :
    candidates phase r long = [id] := by
  cases phase <;> simp only [candidates, h]

/-- Only a name that no entry has can be short for others. -/
theorem candidates_of_longIdsFrom (h : r.longIds long = []) :
    candidates .input r long = r.longIdsFrom long := by
  simp only [candidates, h]

theorem run_readLong (hsplit : splitValue token = (long, none))
    (hids : candidates phase r long = [id]) :
    (readLong phase token).run r = .ok (.bare r id (r.spec id).name) r := by
  rw [readLong, EStateM.run_bind, run_get]
  simp only [hsplit, hids]
  rfl

theorem run_readLong_value {value : String} (hsplit : splitValue token = (long, some value))
    (hids : candidates phase r long = [id]) :
    (readLong phase token).run r =
      if (r.spec id).takesValue then .ok (.one id (.text value)) r
      else .error (.argumentRefused (r.spec id).name) r := by
  rw [readLong, EStateM.run_bind, run_get]
  simp only [hsplit, hids]
  by_cases hvalued : (r.spec id).takesValue = true
  · rw [if_pos hvalued, if_pos hvalued]
    rfl
  · rw [if_neg hvalued, if_neg hvalued]
    rfl

/-! ### Clusters -/

theorem run_readCluster (hids : r.shortIds (String.ofList ['-', c]) = [id]) :
    (readCluster [c]).run r = .ok (.bare r id (String.ofList ['-', c])) r := by
  rw [readCluster, EStateM.run_bind, run_get, Reading.bare]
  simp only [hids]
  by_cases hvalued : (r.spec id).takesValue = true
  · simp only [if_pos hvalued]
    rfl
  · simp only [if_neg hvalued]
    rfl

theorem run_readCluster_value (hids : r.shortIds (String.ofList ['-', c]) = [id])
    (hvalued : (r.spec id).takesValue = true) (hvalue : value ≠ []) :
    (readCluster (c :: value)).run r = .ok (.one id (.text (String.ofList value))) r := by
  have hempty : value.isEmpty = false := by simpa using hvalue
  rw [readCluster, EStateM.run_bind, run_get]
  simp only [hids, if_pos hvalued, hempty]
  rfl

/-- A letter that takes no value is a fault, or it is the flag in front of the other letters,
whatever these are. -/
theorem run_readCluster_cons
    (h : ∀ id, r.shortIds (String.ofList ['-', c]) = [id] → (r.spec id).takesValue = false) :
    (∃ fault, ∀ cs, (readCluster (c :: cs)).run r = .error fault r) ∨
      ∃ id s, ∀ cs, (readCluster (c :: cs)).run r =
        (Reading.cons id (.flag true) <$> readCluster cs).run s := by
  match hids : r.shortIds (String.ofList ['-', c]) with
  | [] =>
    refine .inr ⟨r.size, r.push (.ofNames (some (String.ofList ['-', c])) none 0), fun cs => ?_⟩
    rw [readCluster, EStateM.run_bind, run_get]
    simp only [hids, EStateM.run_bind, run_register]
    rfl
  | [id] =>
    refine .inr ⟨id, r, fun cs => ?_⟩
    rw [readCluster, EStateM.run_bind, run_get]
    simp only [hids, h id hids]
    rfl
  | i :: j :: ids =>
    refine .inl ⟨.ambiguousShort (String.ofList ['-', c]) (i :: j :: ids).length, fun cs => ?_⟩
    rw [readCluster, EStateM.run_bind, run_get]
    simp only [hids]
    rfl

/-! ### Whole tokens -/

theorem isOption_long (h : cs ≠ []) : isOption (String.ofList ('-' :: '-' :: cs)) = true :=
  isOption_iff.2 ⟨'-', cs, String.toList_ofList, .inr h⟩

theorem isOption_short (hc : c ≠ '-') (cs : List Char) :
    isOption (String.ofList ('-' :: c :: cs)) = true :=
  isOption_iff.2 ⟨c, cs, String.toList_ofList, .inl hc⟩

theorem run_read_long (hequals : '=' ∉ cs)
    (hids : candidates phase r (String.ofList ('-' :: '-' :: cs)) = [id]) :
    (read phase (String.ofList ('-' :: '-' :: cs))).run r =
      .ok (.bare r id (r.spec id).name) r := by
  have hname : '=' ∉ (String.ofList ('-' :: '-' :: cs)).toList := by
    simpa [String.toList_ofList] using hequals
  rw [read_long String.toList_ofList, run_readLong (splitValue_of_not_mem hname) hids]

theorem run_read_long_value (hequals : '=' ∉ cs)
    (hids : candidates phase r (String.ofList ('-' :: '-' :: cs)) = [id]) (value : List Char) :
    (read phase (String.ofList ('-' :: '-' :: (cs ++ '=' :: value)))).run r =
      if (r.spec id).takesValue then .ok (.one id (.text (String.ofList value))) r
      else .error (.argumentRefused (r.spec id).name) r := by
  have hname : '=' ∉ '-' :: '-' :: cs := by simpa using hequals
  have hsplit := splitValue_equals hname value
  rw [read_long String.toList_ofList]
  exact run_readLong_value hsplit hids

theorem run_read_short (hc : c ≠ '-') (hids : r.shortIds (String.ofList ['-', c]) = [id])
    (phase : Phase) :
    (read phase (String.ofList ['-', c])).run r = .ok (.bare r id (String.ofList ['-', c])) r := by
  rw [read_short hc String.toList_ofList, run_readCluster hids]

theorem run_read_short_value (hc : c ≠ '-') (hids : r.shortIds (String.ofList ['-', c]) = [id])
    (hvalued : (r.spec id).takesValue = true) (hvalue : value ≠ []) (phase : Phase) :
    (read phase (String.ofList ('-' :: c :: value))).run r =
      .ok (.one id (.text (String.ofList value))) r := by
  rw [read_short hc String.toList_ofList, run_readCluster_value hids hvalued hvalue]

end Synopsis.OptionToken
