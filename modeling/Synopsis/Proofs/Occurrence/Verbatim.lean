import Mathlib.Data.List.Infix
import Synopsis.Proofs.Occurrence.Tokens
import Synopsis.Proofs.OptionToken.Spelling

/-!
# Positionals taken as they stand

From the first separator on all tokens are positionals as they stand, and they change nothing in
what is read before them, be it a fault. If options come first, this is also so from the first
positional on. The two ways of reading differ only where an option follows a positional, since every
option token is at least one option.
-/

namespace Synopsis.Occurrence

open OptionToken (Reading Waiting)

variable {optionsFirst : Bool} {waiting : Option Waiting} {tokens before : List String}
  {r s : Registry} {xs : List Occurrence}

/-! ### The separator -/

theorem readBehind_append {tail : List String} {reading : Reading} {ys : List Occurrence}
    (h : readTokens optionsFirst reading.waiting (tokens ++ tail) =
      (· ++ ys) <$> readTokens optionsFirst reading.waiting tokens) :
    readBehind optionsFirst (tokens ++ tail) reading =
      (· ++ ys) <$> readBehind optionsFirst tokens reading := by
  rw [readBehind, readBehind, h, Functor.map_map, Functor.map_map]
  exact congrArg (· <$> _) (funext fun xs => (List.append_assoc _ _ _).symm)

/-- An option that waits in front of the separator is the same fault as at the end. -/
theorem readTokens_append_separator (hbefore : "--" ∉ before) (waiting : Option Waiting)
    (rest : List String) :
    readTokens optionsFirst waiting (before ++ "--" :: rest) =
      (· ++ ("--" :: rest).map positional) <$> readTokens optionsFirst waiting before := by
  induction before generalizing waiting with
  | nil =>
    cases waiting with
    | none =>
      rw [List.nil_append, readTokens_separator]
      rfl
    | some w => rfl
  | cons token before ih =>
    obtain ⟨hne, hlater⟩ := not_or.1 (mt List.mem_cons.2 hbefore)
    have hdashes : token ≠ "--" := Ne.symm hne
    rw [List.cons_append]
    cases waiting with
    | some w =>
      rw [readTokens_value w hdashes, readTokens_value w hdashes, ih hlater none,
        Functor.map_map, Functor.map_map]
      rfl
    | none =>
      cases hoption : OptionToken.isOption token with
      | true =>
        rw [readTokens_option hoption, readTokens_option hoption, map_bind]
        exact bind_congr fun reading => readBehind_append (ih hlater reading.waiting)
      | false =>
        cases optionsFirst with
        | true =>
          rw [readTokens_verbatim hoption, readTokens_verbatim hoption, map_pure,
            ← List.map_append, List.cons_append]
        | false =>
          rw [readTokens_positional hdashes hoption, readTokens_positional hdashes hoption,
            ih hlater none, Functor.map_map, Functor.map_map]
          rfl

/-- What stands behind the first separator is kept as it is, and it does not matter for what is read
before, neither for a fault nor for the registry. -/
theorem run_readArguments_separator (optionsFirst : Bool) (r : Registry) (hbefore : "--" ∉ before)
    (rest : List String) :
    (readArguments optionsFirst (before ++ "--" :: rest)).run r =
      match (readArguments optionsFirst before).run r with
      | .ok xs s => .ok (xs ++ ("--" :: rest).map positional) s
      | .error fault s => .error fault s := by
  unfold readArguments
  rw [readTokens_append_separator hbefore, map_eq_pure_bind, EStateM.run_bind]
  cases (readTokens optionsFirst none before).run r <;> rfl

theorem run_readArguments_separator_options :
    let r := Registry.ofDocumented [.ofNames (some "-o") (some "--output") 1]
    "--" ∉ ["-xo"] ∧ "--" ∉ ["-xo", "f"] ∧
      (readArguments false (["-xo"] ++ "--" :: ["f"])).run r =
        .error (.argumentMissing "-o") (r.push (.ofNames (some "-x") none 0)) ∧
      (readArguments false (["-xo", "f"] ++ "--" :: ["--nope", "-y", "--"])).run r =
        .ok ([option 1 (.flag true), option 0 (.text "f")] ++
            ["--", "--nope", "-y", "--"].map positional)
          (r.push (.ofNames (some "-x") none 0)) := by
  intro r
  have hwaiting : "--" ∉ ["-xo"] := by decide
  have hvalue : "--" ∉ ["-xo", "f"] := by decide
  have hfault : (readArguments false ["-xo"]).run r =
      .error (.argumentMissing "-o") (r.push (.ofNames (some "-x") none 0)) := rfl
  have hread : (readArguments false ["-xo", "f"]).run r =
      .ok [option 1 (.flag true), option 0 (.text "f")]
        (r.push (.ofNames (some "-x") none 0)) := rfl
  refine ⟨hwaiting, hvalue, ?_, ?_⟩
  · rw [run_readArguments_separator false r hwaiting, hfault]
  · rw [run_readArguments_separator false r hvalue, hread]

/-! ### Options first -/

/-- No option stands behind a positional. -/
def OptionsLead (xs : List Occurrence) : Prop :=
  xs.Pairwise fun x y => x.kind = .argument → y.kind ≠ .option

instance decidableOptionsLead : DecidablePred OptionsLead := fun xs =>
  inferInstanceAs (Decidable (List.Pairwise _ xs))

theorem kind_of_mem_foundIn {reading : Reading} {x : Occurrence} (h : x ∈ foundIn reading) :
    x.kind = .option := by
  obtain ⟨⟨id, v⟩, -, rfl⟩ := List.mem_map.1 h
  rfl

/-- Where no option was found there was none, not even one that waits. -/
theorem Reads.eq_positionals (h : Reads false waiting tokens r xs s)
    (hxs : ∀ x ∈ xs, x.kind ≠ .option) :
    waiting = none ∧ xs = tokens.map positional ∧ s = r := by
  induction h with
  | done => exact ⟨rfl, rfl, rfl⟩
  | value _ _ _ => exact absurd rfl (List.forall_mem_cons.1 hxs).1
  | separator => exact ⟨rfl, rfl, rfl⟩
  | @options token rest r t s reading xs hoption hread _ ih =>
    obtain ⟨hfound, hlater⟩ := List.forall_mem_append.1 hxs
    have hcomplete : reading.complete = [] :=
      List.map_eq_nil_iff.1 (List.eq_nil_iff_forall_not_mem.2 fun x hx =>
        hfound x hx (kind_of_mem_foundIn hx))
    have hempty : reading = {} := by
      cases reading
      cases hcomplete
      cases (ih hlater).1
      rfl
    exact absurd hempty (OptionToken.ne_empty_of_read hoption hread)
  | verbatim hfirst _ => cases hfirst
  | single _ _ _ _ ih =>
    obtain ⟨-, rfl, rfl⟩ := ih (List.forall_mem_cons.1 hxs).2
    exact ⟨rfl, rfl, rfl⟩

theorem Reads.of_optionsLead (h : Reads false waiting tokens r xs s) (hlead : OptionsLead xs) :
    Reads true waiting tokens r xs s := by
  induction h with
  | done => exact .done
  | value hdashes _ ih => exact .value hdashes (ih (List.pairwise_cons.1 hlead).2)
  | separator => exact .separator
  | options hoption hread _ ih =>
    exact .options hoption hread (ih (List.pairwise_append.1 hlead).2.1)
  | verbatim hfirst _ => cases hfirst
  | single _ _ hoption hrest _ =>
    have hnone := fun y hy => (List.pairwise_cons.1 hlead).1 y hy rfl
    obtain ⟨-, rfl, rfl⟩ := hrest.eq_positionals hnone
    exact .verbatim rfl hoption

theorem Reads.exists_suffix (h : Reads true waiting tokens r xs s) :
    ∃ found texts, xs = found ++ texts.map positional ∧ (∀ x ∈ found, x.kind = .option) ∧
      texts <:+ tokens := by
  induction h with
  | done => exact ⟨[], [], rfl, List.forall_mem_nil _, List.suffix_rfl⟩
  | @value w token rest _ _ _ _ _ ih =>
    obtain ⟨found, texts, rfl, hfound, htexts⟩ := ih
    exact ⟨option w.id (.text token) :: found, texts, rfl, List.forall_mem_cons.2 ⟨rfl, hfound⟩,
      htexts.trans (List.suffix_cons token rest)⟩
  | separator => exact ⟨[], _, rfl, List.forall_mem_nil _, List.suffix_rfl⟩
  | @options token rest _ _ _ reading _ _ _ _ ih =>
    obtain ⟨found, texts, rfl, hfound, htexts⟩ := ih
    exact ⟨foundIn reading ++ found, texts, (List.append_assoc _ _ _).symm,
      List.forall_mem_append.2 ⟨fun x hx => kind_of_mem_foundIn hx, hfound⟩,
      htexts.trans (List.suffix_cons token rest)⟩
  | verbatim _ _ => exact ⟨[], _, rfl, List.forall_mem_nil _, List.suffix_rfl⟩
  | single hfirst _ _ _ _ => cases hfirst

/-- Arguments whose options all stand before the positionals are read alike in either way. If
options come first, what follows them is a part of the arguments as it stands. -/
theorem readArguments_optionsFirst (r : Registry) (argv : List String) :
    (∀ xs s, (readArguments false argv).run r = .ok xs s → OptionsLead xs →
        (readArguments true argv).run r = .ok xs s) ∧
      ∀ xs s, (readArguments true argv).run r = .ok xs s →
        ∃ found texts, xs = found ++ texts.map positional ∧ (∀ x ∈ found, x.kind = .option) ∧
          texts <:+ argv := by
  constructor
  · intro xs s h hlead
    exact run_readTokens_eq_ok_iff.2 ((run_readTokens_eq_ok_iff.1 h).of_optionsLead hlead)
  · intro xs s h
    exact (run_readTokens_eq_ok_iff.1 h).exists_suffix

theorem readArguments_optionsFirst_value :
    let r := Registry.ofDocumented [.ofNames (some "-o") (some "--output") 1]
    let argv := ["-o", "run", "-x", "go", "to", "--", "-y"]
    let xs := [option 0 (.text "run"), option 1 (.flag true)] ++
      ["go", "to", "--", "-y"].map positional
    let s := r.push (.ofNames (some "-x") none 0)
    (readArguments false argv).run r = .ok xs s ∧ OptionsLead xs ∧
      (readArguments true argv).run r = .ok xs s := by
  intro r argv xs s
  have hread : (readArguments false argv).run r = .ok xs s := rfl
  have hlead : OptionsLead xs := by decide
  exact ⟨hread, hlead, (readArguments_optionsFirst r argv).1 xs s hread hlead⟩

end Synopsis.Occurrence
