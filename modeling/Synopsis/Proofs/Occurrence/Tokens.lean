import Synopsis.Occurrence.Arguments
import Synopsis.Proofs.OptionToken

/-!
# Reading the arguments token by token

One equation for each kind of token: an option token, the value that an option waits for, a
positional, and a token from which on all are positionals. A value that stands in the token of its
option and one that is the next token are read alike. A reading without a fault takes one of these
steps after the other.
-/

namespace Synopsis.Occurrence

open OptionToken (Reading Waiting)

variable {optionsFirst : Bool} {token : String} {rest : List String} {r s : Registry}

def foundIn (reading : Reading) : List Occurrence :=
  reading.complete.map fun (id, v) => option id v

def readBehind (optionsFirst : Bool) (rest : List String) (reading : Reading) :
    EStateM Fault Registry (List Occurrence) :=
  (foundIn reading ++ ·) <$> readTokens optionsFirst reading.waiting rest

theorem readTokens_option (h : OptionToken.isOption token = true) :
    readTokens optionsFirst none (token :: rest) =
      OptionToken.read .input token >>= readBehind optionsFirst rest := by
  have hdashes : token ≠ "--" := by
    rintro rfl
    cases h
  rw [readTokens, if_neg hdashes, if_pos h]
  refine bind_congr fun reading => ?_
  rw [readBehind, map_eq_pure_bind]
  rfl

theorem readTokens_value (w : Waiting) (h : token ≠ "--") :
    readTokens optionsFirst (some w) (token :: rest) =
      (option w.id (.text token) :: ·) <$> readTokens optionsFirst none rest := by
  rw [readTokens, if_neg h, map_eq_pure_bind]

theorem readTokens_positional (hdashes : token ≠ "--") (h : OptionToken.isOption token = false) :
    readTokens false none (token :: rest) =
      (positional token :: ·) <$> readTokens false none rest := by
  rw [readTokens, if_neg hdashes, h, map_eq_pure_bind]
  rfl

theorem readTokens_separator (rest : List String) :
    readTokens optionsFirst none ("--" :: rest) = pure (("--" :: rest).map positional) := by
  rw [readTokens, if_pos rfl]

theorem readTokens_verbatim (h : OptionToken.isOption token = false) :
    readTokens true none (token :: rest) = pure ((token :: rest).map positional) := by
  rw [readTokens, h]
  exact ite_self _

theorem readBehind_empty (tokens : List String) :
    readBehind optionsFirst tokens {} = readTokens optionsFirst none tokens :=
  id_map _

theorem readBehind_cons (id : OptionId) (v : Value) (reading : Reading) :
    readBehind optionsFirst rest (reading.cons id v) =
      (option id v :: ·) <$> readBehind optionsFirst rest reading := by
  rw [readBehind, readBehind, Functor.map_map]
  rfl

theorem readBehind_one (id : OptionId) (v : Value) :
    readBehind optionsFirst rest (.one id v) =
      (option id v :: ·) <$> readTokens optionsFirst none rest := by
  rw [Reading.one, readBehind_cons, readBehind_empty]

/-- A value that stands on its own is read like one that is attached. -/
theorem readBehind_wait (id : OptionId) (name : String) (h : token ≠ "--") :
    readBehind optionsFirst (token :: rest) (.wait id name) =
      readBehind optionsFirst rest (.one id (.text token)) := by
  rw [readBehind_one, ← readTokens_value ⟨id, name⟩ h]
  exact id_map _

theorem run_readTokens_of_read {reading : Reading} (hoption : OptionToken.isOption token = true)
    (hread : (OptionToken.read .input token).run r = .ok reading s) :
    (readTokens optionsFirst none (token :: rest)).run r =
      (readBehind optionsFirst rest reading).run s := by
  rw [readTokens_option hoption, EStateM.run_bind, hread]

theorem run_readTokens_of_fault {fault : Fault} (hoption : OptionToken.isOption token = true)
    (hread : (OptionToken.read .input token).run r = .error fault s) :
    (readTokens optionsFirst none (token :: rest)).run r = .error fault s := by
  rw [readTokens_option hoption, EStateM.run_bind, hread]

theorem run_readTokens_one {id : OptionId} {v : Value}
    (hoption : OptionToken.isOption token = true)
    (hread : (OptionToken.read .input token).run r = .ok (.one id v) s) :
    (readTokens optionsFirst none (token :: rest)).run r =
      ((option id v :: ·) <$> readTokens optionsFirst none rest).run s := by
  rw [run_readTokens_of_read hoption hread, readBehind_one]

theorem run_readTokens_wait {id : OptionId} {name value : String}
    (hoption : OptionToken.isOption token = true)
    (hread : (OptionToken.read .input token).run r = .ok (.wait id name) s)
    (hvalue : value ≠ "--") :
    (readTokens optionsFirst none (token :: value :: rest)).run r =
      ((option id (.text value) :: ·) <$> readTokens optionsFirst none rest).run s := by
  rw [run_readTokens_of_read hoption hread, readBehind_wait id name hvalue, readBehind_one]

/-- How tokens are read that are read without a fault, an option possibly waiting for the first of
them. -/
inductive Reads (optionsFirst : Bool) :
    Option Waiting → List String → Registry → List Occurrence → Registry → Prop
  | done {r : Registry} : Reads optionsFirst none [] r [] r
  | value {w : Waiting} {token : String} {rest : List String} {r s : Registry}
      {xs : List Occurrence} : token ≠ "--" → Reads optionsFirst none rest r xs s →
      Reads optionsFirst (some w) (token :: rest) r (option w.id (.text token) :: xs) s
  | separator {rest : List String} {r : Registry} :
      Reads optionsFirst none ("--" :: rest) r (("--" :: rest).map positional) r
  | options {token : String} {rest : List String} {r t s : Registry} {reading : Reading}
      {xs : List Occurrence} : OptionToken.isOption token = true →
      (OptionToken.read .input token).run r = .ok reading t →
      Reads optionsFirst reading.waiting rest t xs s →
      Reads optionsFirst none (token :: rest) r (foundIn reading ++ xs) s
  | verbatim {token : String} {rest : List String} {r : Registry} : optionsFirst = true →
      OptionToken.isOption token = false →
      Reads optionsFirst none (token :: rest) r ((token :: rest).map positional) r
  | single {token : String} {rest : List String} {r s : Registry} {xs : List Occurrence} :
      optionsFirst = false → token ≠ "--" → OptionToken.isOption token = false →
      Reads optionsFirst none rest r xs s →
      Reads optionsFirst none (token :: rest) r (positional token :: xs) s

theorem run_readTokens_eq_ok_iff {waiting : Option Waiting} {tokens : List String}
    {xs : List Occurrence} :
    (readTokens optionsFirst waiting tokens).run r = .ok xs s ↔
      Reads optionsFirst waiting tokens r xs s := by
  constructor
  · intro h
    induction tokens generalizing waiting r xs with
    | nil =>
      cases waiting with
      | none =>
        obtain ⟨rfl, rfl⟩ := h
        exact .done
      | some w => cases h
    | cons token rest ih =>
      by_cases hdashes : token = "--"
      · subst hdashes
        cases waiting with
        | none =>
          obtain ⟨rfl, rfl⟩ := h
          exact .separator
        | some w => cases h
      · cases waiting with
        | some w =>
          rw [readTokens_value w hdashes, OptionToken.run_map_eq_ok_iff] at h
          obtain ⟨xs, hrest, rfl⟩ := h
          exact .value hdashes (ih hrest)
        | none =>
          cases hoption : OptionToken.isOption token with
          | true =>
            rw [readTokens_option hoption, OptionToken.run_bind_eq_ok_iff] at h
            obtain ⟨reading, t, hread, h⟩ := h
            obtain ⟨xs, hrest, rfl⟩ := OptionToken.run_map_eq_ok_iff.1 h
            exact .options hoption hread (ih hrest)
          | false =>
            cases optionsFirst with
            | true =>
              rw [readTokens_verbatim hoption] at h
              obtain ⟨rfl, rfl⟩ := h
              exact .verbatim rfl hoption
            | false =>
              rw [readTokens_positional hdashes hoption, OptionToken.run_map_eq_ok_iff] at h
              obtain ⟨xs, hrest, rfl⟩ := h
              exact .single rfl hdashes hoption (ih hrest)
  · intro h
    induction h with
    | done => rfl
    | value hdashes _ ih =>
      rw [readTokens_value _ hdashes]
      exact OptionToken.run_map_eq_ok_iff.2 ⟨_, ih, rfl⟩
    | separator => rw [readTokens_separator, EStateM.run_pure]
    | options hoption hread _ ih =>
      rw [run_readTokens_of_read hoption hread]
      exact OptionToken.run_map_eq_ok_iff.2 ⟨_, ih, rfl⟩
    | verbatim hfirst hoption =>
      subst hfirst
      rw [readTokens_verbatim hoption, EStateM.run_pure]
    | single hfirst hdashes hoption _ ih =>
      subst hfirst
      rw [readTokens_positional hdashes hoption]
      exact OptionToken.run_map_eq_ok_iff.2 ⟨_, ih, rfl⟩

end Synopsis.Occurrence
