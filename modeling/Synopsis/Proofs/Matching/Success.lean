import Synopsis.Matching

/-!
# Where a match leads to

A match that fails hands back the lists it was given. So all there is to know of a match is the
state that it leads to, if there is one: whoever has tried it goes on from there, or else from where
it was. Proofs about matching are written in this form.
-/

namespace Synopsis.Matching

def matchSlot? (options : Registry) (slot : Slot) (s : State) : Option State :=
  (bind? options slot s.left).map fun (found, others) =>
    ⟨others, collect options (slot.initial options) found s.collected⟩

/-- The state with fewer occurrences left, the first of two equals. -/
def better : Option State → Option State → Option State
  | none, b => b
  | a, none => a
  | some a, some b => if b.left.length < a.left.length then some b else some a

def repeatWhile (round : State → Option State) : (rounds : Nat) → State → State
  | 0, s => s
  | rounds + 1, s =>
    match round s with
    | none => s
    | some t => if t.left.length < s.left.length then repeatWhile round rounds t else t

mutual

def matchPattern? (options : Registry) : Pattern → State → Option State
  | .leaf slot, s => matchSlot? options slot s
  | .required ps, s => matchAll? options ps s
  | .optional ps, s => some (matchAny options ps s)
  | .either ps, s => matchBest? options ps s
  | .oneOrMore p, s =>
    some (repeatWhile (fun t => matchPattern? options p t) (s.left.length + 1) s)
  | .shortcut, s => some s

def matchAll? (options : Registry) : List Pattern → State → Option State
  | [], s => some s
  | p :: ps, s =>
    match matchPattern? options p s with
    | none => none
    | some t => matchAll? options ps t

def matchAny (options : Registry) : List Pattern → State → State
  | [], s => s
  | p :: ps, s => matchAny options ps ((matchPattern? options p s).getD s)

def matchBest? (options : Registry) : List Pattern → State → Option State
  | [], _ => none
  | p :: ps, s => better (matchPattern? options p s) (matchBest? options ps s)

end

variable {options : Registry} {p : Pattern} {ps : List Pattern}

theorem better_none (a : Option State) : better a none = a := by
  cases a <;> rfl

theorem better_of_lt {s t : State} (h : t.left.length < s.left.length) :
    better (some s) (some t) = some t :=
  if_pos h

theorem better_of_le {s t : State} (h : s.left.length ≤ t.left.length) :
    better (some s) (some t) = some s :=
  if_neg (Nat.not_lt.2 h)

theorem better_assoc (a b c : Option State) :
    better (better a b) c = better a (better b c) := by
  match a, b, c with
  | none, _, _ => rfl
  | some _, none, _ => rfl
  | some _, some _, none => rw [better_none, better_none]
  | some s, some t, some u =>
    rcases Nat.lt_or_ge t.left.length s.left.length with hts | hst
    · rw [better_of_lt hts]
      rcases Nat.lt_or_ge u.left.length t.left.length with hut | htu
      · rw [better_of_lt hut, better_of_lt (Nat.lt_trans hut hts)]
      · rw [better_of_le htu, better_of_lt hts]
    · rw [better_of_le hst]
      rcases Nat.lt_or_ge u.left.length t.left.length with hut | htu
      · rw [better_of_lt hut]
      · rw [better_of_le htu, better_of_le hst, better_of_le (Nat.le_trans hst htu)]

/-- The result of a match that has started from `s`. -/
def State.result (s : State) : Option State → Result
  | none => .failure s
  | some t => .success t

/-- A match hands back the state that it leads to, and a failure the state that it started from. -/
def Restores (options : Registry) (p : Pattern) : Prop :=
  ∀ s, matchPattern options p s = s.result (matchPattern? options p s)

theorem matchSlot_eq (slot : Slot) (s : State) :
    matchSlot options slot s = s.result (matchSlot? options slot s) := by
  unfold matchSlot matchSlot?
  cases bind? options slot s.left <;> rfl

/-- Wherever the sequence fails, it goes back to `start`. -/
theorem matchAll_eq (ih : ∀ p ∈ ps, Restores options p) (start s : State) :
    matchAll options start ps s = start.result (matchAll? options ps s) := by
  induction ps generalizing s with
  | nil => rfl
  | cons p ps ihps =>
    obtain ⟨hp, hps⟩ := List.forall_mem_cons.1 ih
    rw [matchAll, matchAll?, hp s]
    cases matchPattern? options p s with
    | none => rfl
    | some t => exact ihps hps t

theorem matchEach_eq (ih : ∀ p ∈ ps, Restores options p) (s : State) :
    matchEach options ps s = matchAny options ps s := by
  induction ps generalizing s with
  | nil => rfl
  | cons p ps ihps =>
    obtain ⟨hp, hps⟩ := List.forall_mem_cons.1 ih
    rw [matchEach, matchAny, hp s]
    cases matchPattern? options p s with
    | none => exact ihps hps s
    | some t => exact ihps hps t

theorem best_eq_better (s : State) (best reached : Option State) :
    (if (s.result reached).improves (best.map .success) then some (s.result reached)
      else best.map .success) = (better best reached).map .success := by
  match best, reached with
  | best, none =>
    rw [better_none]
    rfl
  | none, some t => rfl
  | some b, some t =>
    by_cases hlt : t.left.length < b.left.length
    · rw [better_of_lt hlt]
      exact if_pos (decide_eq_true hlt)
    · rw [better_of_le (Nat.not_lt.1 hlt)]
      exact if_neg fun himproves => hlt (of_decide_eq_true himproves)

theorem matchBest_eq (ih : ∀ p ∈ ps, Restores options p) (s : State) (best : Option State) :
    matchBest options s ps (best.map .success) =
      (better best (matchBest? options ps s)).map .success := by
  induction ps generalizing best with
  | nil =>
    rw [matchBest, matchBest?, better_none]
  | cons p ps ihps =>
    obtain ⟨hp, hps⟩ := List.forall_mem_cons.1 ih
    rw [matchBest, matchBest?, hp s, ← better_assoc, ← ihps hps]
    exact congrArg (matchBest options s ps) (best_eq_better s best _)

section Rounds

variable {round : State → Option State} {s t : State}

theorem repeatWhile_of_none (h : round s = none) (rounds : Nat) :
    repeatWhile round (rounds + 1) s = s := by
  rw [repeatWhile, h]

theorem repeatWhile_of_lt (h : round s = some t) (hlt : t.left.length < s.left.length)
    (rounds : Nat) : repeatWhile round (rounds + 1) s = repeatWhile round rounds t := by
  rw [repeatWhile, h]
  exact if_pos hlt

theorem repeatWhile_of_not_lt (h : round s = some t) (hlt : ¬ t.left.length < s.left.length)
    (rounds : Nat) : repeatWhile round (rounds + 1) s = t := by
  rw [repeatWhile, h]
  exact if_neg hlt

end Rounds

/-- The rounds end by themselves as soon as there may be more of them than occurrences. -/
theorem repeatRounds_eq {round : State → Result} {round? : State → Option State}
    (hround : ∀ s, round s = s.result (round? s)) {rounds : Nat} {s : State}
    (h : s.left.length < rounds) : repeatRounds round s = repeatWhile round? rounds s := by
  induction rounds generalizing s with
  | zero => exact absurd h (Nat.not_lt_zero _)
  | succ rounds ih =>
    rw [repeatRounds, hround s]
    cases hs : round? s with
    | none =>
      rw [repeatWhile_of_none hs]
      exact if_neg (nomatch ·.1)
    | some t =>
      by_cases hlt : t.left.length < s.left.length
      · have hmatched : (s.result (some t)).matched = true ∧
            (s.result (some t)).left.length < s.left.length := ⟨rfl, hlt⟩
        rw [if_pos hmatched, repeatWhile_of_lt hs hlt]
        exact ih (Nat.lt_of_lt_of_le hlt (Nat.le_of_lt_succ h))
      · rw [repeatWhile_of_not_lt hs hlt]
        exact if_neg fun hgo => hlt hgo.2

theorem restores (options : Registry) (p : Pattern) : Restores options p := by
  induction p with
  | leaf slot => exact matchSlot_eq slot
  | required ps ih => exact fun s => matchAll_eq ih s s
  | optional ps ih => exact fun s => congrArg Result.success (matchEach_eq ih s)
  | either ps ih =>
    intro s
    have hbest : matchBest options s ps none = (matchBest? options ps s).map .success :=
      matchBest_eq ih s none
    rw [matchPattern, matchPattern?, hbest]
    cases matchBest? options ps s <;> rfl
  | oneOrMore p ih =>
    intro s
    exact congrArg Result.success (repeatRounds_eq ih (Nat.lt_succ_self s.left.length))
  | shortcut => exact fun _ => rfl

theorem resultOf_eq (options : Registry) (p : Pattern) (left collected : List Occurrence) :
    resultOf options p left collected =
      State.result ⟨left, collected⟩ (matchPattern? options p ⟨left, collected⟩) :=
  restores options p ⟨left, collected⟩

theorem resultOf_of_none {left collected : List Occurrence}
    (h : matchPattern? options p ⟨left, collected⟩ = none) :
    resultOf options p left collected = ⟨false, left, collected⟩ := by
  rw [resultOf_eq, h]
  rfl

theorem resultOf_of_some {left collected : List Occurrence} {t : State}
    (h : matchPattern? options p ⟨left, collected⟩ = some t) :
    resultOf options p left collected = ⟨true, t.left, t.collected⟩ := by
  rw [resultOf_eq, h]
  rfl

end Synopsis.Matching
