import Synopsis.OptionToken
import Synopsis.Proofs.Registry.Growth

/-!
# What option tokens stand for

Every option in a token is the only entry with its names, whether it was found or has just been
introduced. Among the arguments it also has a value of its arity: a text if it takes a value, and
otherwise the flag that is on.
-/

namespace Synopsis

instance decidableEqResult {ε σ α : Type} [DecidableEq ε] [DecidableEq σ] [DecidableEq α] :
    DecidableEq (EStateM.Result ε σ α)
  | .ok a s, .ok b t => decidable_of_iff (a = b ∧ s = t) (by simp)
  | .error e s, .error f t => decidable_of_iff (e = f ∧ s = t) (by simp)
  | .ok _ _, .error _ _ => isFalse nofun
  | .error _ _, .ok _ _ => isFalse nofun

def OptionSpec.admits (o : OptionSpec) : Value → Bool
  | .text _ => o.takesValue
  | .flag on => on && !o.takesValue
  | _ => false

theorem OptionSpec.exists_text_of_admits {o : OptionSpec} {v : Value} (h : o.admits v = true)
    (hvalued : o.takesValue = true) : ∃ s, v = .text s := by
  cases v with
  | text s => exact ⟨s, rfl⟩
  | flag on => simp [admits, hvalued] at h
  | absent => cases h
  | items l => cases h
  | count n => cases h

theorem OptionSpec.eq_flag_of_admits {o : OptionSpec} {v : Value} (h : o.admits v = true)
    (hvalued : ¬ o.takesValue = true) : v = .flag true := by
  cases v with
  | text s => exact absurd h hvalued
  | flag on =>
    obtain ⟨rfl, -⟩ := Bool.and_eq_true_iff.1 h
    rfl
  | absent => cases h
  | items l => cases h
  | count n => cases h

namespace OptionToken

theorem run_bind_eq_ok_iff {α β : Type} {x : EStateM Fault Registry α}
    {f : α → EStateM Fault Registry β} {r t : Registry} {b : β} :
    (x >>= f).run r = .ok b t ↔ ∃ a s, x.run r = .ok a s ∧ (f a).run s = .ok b t := by
  rw [EStateM.run_bind]
  cases x.run r with
  | ok a s =>
    constructor
    · intro h
      exact ⟨a, s, rfl, h⟩
    · rintro ⟨a', s', ha, h⟩
      cases ha
      exact h
  | error fault s => simp

theorem run_map_eq_ok_iff {α β : Type} {x : EStateM Fault Registry α} {f : α → β}
    {r s : Registry} {b : β} :
    (f <$> x).run r = .ok b s ↔ ∃ a, x.run r = .ok a s ∧ f a = b := by
  rw [map_eq_pure_bind, run_bind_eq_ok_iff]
  constructor
  · rintro ⟨a, s', ha, h⟩
    cases h
    exact ⟨a, ha, rfl⟩
  · rintro ⟨a, ha, rfl⟩
    exact ⟨a, s, ha, rfl⟩

structure Reading.Resolved (phase : Phase) (r : Registry) (reading : Reading) : Prop where
  complete : ∀ x ∈ reading.complete,
    r.Sole x.1 ∧ (phase = .input → (r.spec x.1).admits x.2 = true)
  waiting : ∀ w ∈ reading.waiting, r.Sole w.id ∧ (r.spec w.id).takesValue = true

variable {phase : Phase} {r s : Registry} {reading : Reading} {id : OptionId} {v : Value}

theorem Reading.resolved_empty : Resolved phase r {} :=
  ⟨by simp, by simp⟩

theorem Reading.Resolved.cons (h : Resolved phase r reading) (hid : r.Sole id)
    (hv : phase = .input → (r.spec id).admits v = true) :
    Resolved phase r (reading.cons id v) :=
  ⟨List.forall_mem_cons.2 ⟨⟨hid, hv⟩, h.complete⟩, h.waiting⟩

theorem Reading.resolved_one (hid : r.Sole id)
    (hv : phase = .input → (r.spec id).admits v = true) : Resolved phase r (.one id v) :=
  resolved_empty.cons hid hv

theorem Reading.resolved_wait {name : String} (hid : r.Sole id)
    (hvalued : (r.spec id).takesValue = true) : Resolved phase r (.wait id name) := by
  refine ⟨by simp [Reading.wait], fun w hw => ?_⟩
  obtain rfl : w = ⟨id, name⟩ := by simpa [Reading.wait, eq_comm] using hw
  exact ⟨hid, hvalued⟩

theorem Reading.Resolved.sole (h : Resolved phase r reading) : ∀ id ∈ reading.ids, r.Sole id := by
  intro id hid
  rcases List.mem_append.1 hid with hid | hid
  · obtain ⟨x, hx, rfl⟩ := List.mem_map.1 hid
    exact (h.complete x hx).1
  · obtain ⟨w, hw, rfl⟩ := List.mem_map.1 hid
    exact (h.waiting w (Option.mem_toList.1 hw)).1

theorem run_get (r : Registry) : (get : EStateM Fault Registry Registry).run r = .ok r r := rfl

theorem run_register (o : OptionSpec) (r : Registry) :
    (register o).run r = .ok r.size (r.push o) := rfl

theorem sole_of_register {o : OptionSpec} (ho : r.Fresh o) (h : (r.push o).Grows phase s) :
    s.Sole r.size ∧ s.spec r.size = o := by
  have hsole := ho.sole
  refine ⟨hsole.grows h, ?_⟩
  rw [h.spec_eq hsole.lt, Registry.spec_push_size]

theorem grows_readCluster (phase : Phase) (r : Registry) (cs : List Char) :
    r.Grows phase (r.after (readCluster cs)) := by
  induction cs generalizing r with
  | nil => exact .refl
  | cons c rest ih =>
    rw [readCluster]
    refine .after_bind .refl fun options s hget => ?_
    obtain ⟨rfl, rfl⟩ := hget
    dsimp only
    match hids : r.shortIds (String.ofList ['-', c]) with
    | [] =>
      refine .after_bind (.short c .refl hids) fun id s _ => ?_
      exact .after_bind (ih s) fun _ _ _ => .refl
    | [id] =>
      dsimp only
      by_cases hvalued : (r.spec id).takesValue = true
      · rw [if_pos hvalued]
        exact .refl
      · rw [if_neg hvalued]
        exact .after_bind (ih r) fun _ _ _ => .refl
    | i :: j :: ids => exact .refl

theorem grows_readLong (phase : Phase) (r : Registry) (token : String) :
    r.Grows phase (r.after (readLong phase token)) := by
  rw [readLong]
  refine .after_bind .refl fun options s hget => ?_
  obtain ⟨rfl, rfl⟩ := hget
  generalize splitValue token = split
  obtain ⟨long, value⟩ := split
  dsimp only
  match hids : candidates phase r long with
  | [] =>
    cases phase with
    | input => exact .refl
    | language =>
      exact .after_bind (.long long value.isSome rfl .refl hids) fun _ _ _ => .refl
  | [id] =>
    cases value with
    | some value =>
      dsimp only
      by_cases hvalued : (r.spec id).takesValue = true
      · rw [if_pos hvalued]
        exact .refl
      · rw [if_neg hvalued]
        exact .refl
    | none => exact .refl
  | i :: j :: ids => exact .refl

/-- A token adds entries only for names that no entry has, and a fault does not take them back. -/
theorem grows_read (phase : Phase) (r : Registry) (token : String) :
    r.Grows phase (r.after (read phase token)) := by
  unfold read
  by_cases hlong : isLong token = true
  · rw [if_pos hlong]
    exact grows_readLong phase r token
  · rw [if_neg hlong]
    exact grows_readCluster phase r _

/-- How a cluster is read that is read without a fault. -/
inductive ReadsCluster : List Char → Registry → Reading → Registry → Prop
  | nil {r : Registry} : ReadsCluster [] r {} r
  | introduced {c : Char} {cs : List Char} {r s : Registry} {reading : Reading} :
      r.shortIds (String.ofList ['-', c]) = [] →
      ReadsCluster cs (r.push (.ofNames (some (String.ofList ['-', c])) none 0)) reading s →
      ReadsCluster (c :: cs) r (reading.cons r.size (.flag true)) s
  | flag {c : Char} {cs : List Char} {r s : Registry} {id : OptionId} {reading : Reading} :
      r.shortIds (String.ofList ['-', c]) = [id] → ¬ (r.spec id).takesValue = true →
      ReadsCluster cs r reading s → ReadsCluster (c :: cs) r (reading.cons id (.flag true)) s
  | value {c : Char} {cs : List Char} {r : Registry} {id : OptionId} :
      r.shortIds (String.ofList ['-', c]) = [id] → (r.spec id).takesValue = true →
      ReadsCluster (c :: cs) r (if cs.isEmpty then .wait id (String.ofList ['-', c])
        else .one id (.text (String.ofList cs))) r

theorem run_readCluster_eq_ok_iff {cs : List Char} :
    (readCluster cs).run r = .ok reading s ↔ ReadsCluster cs r reading s := by
  constructor
  · intro h
    induction cs generalizing r reading with
    | nil =>
      obtain ⟨rfl, rfl⟩ := h
      exact .nil
    | cons c rest ih =>
      rw [readCluster, run_bind_eq_ok_iff] at h
      obtain ⟨options, r', hget, h⟩ := h
      obtain ⟨rfl, rfl⟩ := hget
      dsimp only at h
      match hids : r.shortIds (String.ofList ['-', c]) with
      | [] =>
        simp only [hids, run_bind_eq_ok_iff, run_register] at h
        obtain ⟨_, _, hregister, rest', s', hrest, hdone⟩ := h
        obtain ⟨rfl, rfl⟩ := hregister
        obtain ⟨rfl, rfl⟩ := hdone
        exact .introduced hids (ih hrest)
      | [id] =>
        simp only [hids] at h
        by_cases hvalued : (r.spec id).takesValue = true
        · rw [if_pos hvalued] at h
          obtain ⟨rfl, rfl⟩ := h
          exact .value hids hvalued
        · rw [if_neg hvalued, run_bind_eq_ok_iff] at h
          obtain ⟨rest', s', hrest, hdone⟩ := h
          obtain ⟨rfl, rfl⟩ := hdone
          exact .flag hids hvalued (ih hrest)
      | i :: j :: ids =>
        simp only [hids] at h
        cases h
  · intro h
    induction h with
    | nil => rfl
    | introduced hids _ ih =>
      rw [readCluster, EStateM.run_bind, run_get]
      simp only [hids, EStateM.run_bind, run_register, ih]
      rfl
    | flag hids hvalued _ ih =>
      rw [readCluster, EStateM.run_bind, run_get]
      simp only [hids, if_neg hvalued, EStateM.run_bind, ih]
      rfl
    | value hids hvalued =>
      rw [readCluster, EStateM.run_bind, run_get]
      simp only [hids, if_pos hvalued]
      rfl

theorem ReadsCluster.grows {cs : List Char} (h : ReadsCluster cs r reading s) (phase : Phase) :
    r.Grows phase s :=
  (grows_readCluster phase r cs).of_ok (run_readCluster_eq_ok_iff.2 h)

theorem ReadsCluster.resolved {cs : List Char} (h : ReadsCluster cs r reading s) :
    reading.Resolved phase s := by
  induction h with
  | nil => exact Reading.resolved_empty
  | introduced hids hrest ih =>
    obtain ⟨hsole, hspec⟩ := sole_of_register (Registry.fresh_short hids) (hrest.grows phase)
    refine ih.cons hsole fun _ => ?_
    rw [hspec]
    rfl
  | flag hids hvalued hrest ih =>
    have hsole := Registry.sole_of_shortIds hids
    have hgrows := hrest.grows phase
    refine ih.cons (hsole.grows hgrows) fun _ => ?_
    rw [hgrows.spec_eq hsole.lt]
    simpa [OptionSpec.admits] using hvalued
  | @value c cs r id hids hvalued =>
    have hsole := Registry.sole_of_shortIds hids
    by_cases hrest : cs.isEmpty = true
    · rw [if_pos hrest]
      exact Reading.resolved_wait hsole hvalued
    · rw [if_neg hrest]
      exact Reading.resolved_one hsole fun _ => hvalued

theorem sole_of_candidates {long : String} (h : candidates phase r long = [id]) : r.Sole id := by
  cases phase with
  | language => exact Registry.sole_of_longIds h
  | input =>
    unfold candidates at h
    match hids : r.longIds long with
    | [] =>
      simp only [hids] at h
      exact Registry.sole_of_longIdsFrom h
    | i :: ids =>
      simp only [hids] at h
      exact Registry.sole_of_longIds (hids.trans h)

inductive ReadsLong (phase : Phase) (token : String) : Registry → Reading → Registry → Prop
  | introduced {long : String} {value : Option String} {r : Registry} :
      splitValue token = (long, value) → phase = .language → candidates phase r long = [] →
      ReadsLong phase token r (.one r.size .absent)
        (r.push (.ofNames none (some long) (if value.isSome then 1 else 0)))
  | value {long value : String} {r : Registry} {id : OptionId} :
      splitValue token = (long, some value) → candidates phase r long = [id] →
      (r.spec id).takesValue = true → ReadsLong phase token r (.one id (.text value)) r
  | bare {long : String} {r : Registry} {id : OptionId} :
      splitValue token = (long, none) → candidates phase r long = [id] →
      ReadsLong phase token r
        (if (r.spec id).takesValue then .wait id (r.spec id).name else .one id (.flag true)) r

theorem readsLong_of_run {token : String} (h : (readLong phase token).run r = .ok reading s) :
    ReadsLong phase token r reading s := by
  rw [readLong, run_bind_eq_ok_iff] at h
  obtain ⟨options, r', hget, h⟩ := h
  obtain ⟨rfl, rfl⟩ := hget
  generalize hsplit : splitValue token = split at h
  obtain ⟨long, value⟩ := split
  dsimp only at h
  match hids : candidates phase r long with
  | [] =>
    cases phase with
    | input =>
      simp only [hids] at h
      cases h
    | language =>
      simp only [hids, run_bind_eq_ok_iff, run_register] at h
      obtain ⟨_, _, hregister, hdone⟩ := h
      obtain ⟨rfl, rfl⟩ := hregister
      obtain ⟨rfl, rfl⟩ := hdone
      exact .introduced hsplit rfl hids
  | [id] =>
    simp only [hids] at h
    cases value with
    | some value =>
      by_cases hvalued : (r.spec id).takesValue = true
      · simp only [if_pos hvalued] at h
        obtain ⟨rfl, rfl⟩ := h
        exact .value hsplit hids hvalued
      · simp only [if_neg hvalued] at h
        cases h
    | none =>
      obtain ⟨rfl, rfl⟩ := h
      exact .bare hsplit hids
  | i :: j :: ids =>
    simp only [hids] at h
    cases h

theorem ReadsLong.resolved {token : String} (h : ReadsLong phase token r reading s) :
    reading.Resolved phase s := by
  cases h with
  | introduced _ hphase hids =>
    subst hphase
    exact Reading.resolved_one (Registry.fresh_long hids).sole fun hinput => nomatch hinput
  | value _ hids hvalued => exact Reading.resolved_one (sole_of_candidates hids) fun _ => hvalued
  | @bare long _ id _ hids =>
    have hsole := sole_of_candidates hids
    by_cases hvalued : (r.spec id).takesValue = true
    · rw [if_pos hvalued]
      exact Reading.resolved_wait hsole hvalued
    · rw [if_neg hvalued]
      refine Reading.resolved_one hsole fun _ => ?_
      simpa [OptionSpec.admits] using hvalued

/-! ### A token is at least one option -/

theorem Reading.cons_ne_empty (id : OptionId) (v : Value) (reading : Reading) :
    reading.cons id v ≠ {} := fun h =>
  absurd (congrArg Reading.complete h) (List.cons_ne_nil _ _)

theorem Reading.wait_ne_empty (id : OptionId) (name : String) : Reading.wait id name ≠ {} :=
  fun h => nomatch congrArg Reading.waiting h

theorem ReadsCluster.ne_empty {c : Char} {cs : List Char} (h : ReadsCluster (c :: cs) r reading s) :
    reading ≠ {} := by
  cases h with
  | introduced _ _ => exact Reading.cons_ne_empty _ _ _
  | flag _ _ _ => exact Reading.cons_ne_empty _ _ _
  | value _ _ =>
    split
    · exact Reading.wait_ne_empty _ _
    · exact Reading.cons_ne_empty _ _ _

theorem ReadsLong.ne_empty {token : String} (h : ReadsLong phase token r reading s) :
    reading ≠ {} := by
  cases h with
  | introduced _ _ _ => exact Reading.cons_ne_empty _ _ _
  | value _ _ _ => exact Reading.cons_ne_empty _ _ _
  | bare _ _ =>
    split
    · exact Reading.wait_ne_empty _ _
    · exact Reading.cons_ne_empty _ _ _

theorem read_spec {token : String} (h : (read phase token).run r = .ok reading s) :
    r.Grows phase s ∧ reading.Resolved phase s := by
  refine ⟨(grows_read phase r token).of_ok h, ?_⟩
  unfold read at h
  by_cases hlong : isLong token = true
  · rw [if_pos hlong] at h
    exact (readsLong_of_run h).resolved
  · rw [if_neg hlong] at h
    exact (run_readCluster_eq_ok_iff.1 h).resolved

end OptionToken

end Synopsis
