import Synopsis.Proofs.Matching.Repetition

/-!
# The rounds of a repetition

A repetition tries its pattern again and again, each time on what the round before has left and
collected, and it stops behind the first round that takes nothing. This loop has no bound of its
own. Every round but the last shortens the list, however, so that there is at most one round more
than there were occurrences, and where the loop stops the pattern can take nothing more.
-/

namespace Synopsis.Matching

/-- One round. Its lists are taken over whether it has matched or not. -/
def attempt (options : Registry) (p : Pattern) (s : State) : Result :=
  resultOf options p s.left s.collected

def Advances (options : Registry) (p : Pattern) (s : State) : Prop :=
  (attempt options p s).matched = true ∧ (attempt options p s).left.length < s.left.length

inductive Rounds (options : Registry) (p : Pattern) : Nat → State → State → Prop
  | nil {s : State} : Rounds options p 0 s s
  | cons {n : Nat} {s t : State} : Advances options p s →
      Rounds options p n (attempt options p s).state t → Rounds options p (n + 1) s t

/-- The loop without a bound, and the number of its rounds. -/
inductive Loop (options : Registry) (p : Pattern) : Nat → State → State → Prop
  | last {s : State} : ¬ Advances options p s → Loop options p 1 s (attempt options p s).state
  | next {n : Nat} {s t : State} : Advances options p s →
      Loop options p n (attempt options p s).state t → Loop options p (n + 1) s t

variable {options : Registry} {p : Pattern} {m n : Nat} {s t u : State}

theorem attempt_of_some (h : matchPattern? options p s = some t) :
    attempt options p s = ⟨true, t.left, t.collected⟩ :=
  resultOf_of_some h

theorem Advances.of_some (h : matchPattern? options p s = some t)
    (hlt : t.left.length < s.left.length) : Advances options p s := by
  rw [Advances, attempt_of_some h]
  exact ⟨rfl, hlt⟩

theorem state_attempt (h : ¬ Advances options p s) : (attempt options p s).state = s := by
  have hframe : Framed options p s.left s.collected (attempt options p s) :=
    framed_resultOf options p s.left s.collected
  cases hmatched : (attempt options p s).matched with
  | false =>
    obtain ⟨hleft, hcollected⟩ := hframe.failed hmatched
    rw [Result.state, hleft, hcollected]
  | true =>
    have hle : s.left.length ≤ (attempt options p s).left.length :=
      Nat.le_of_not_lt fun hlt => h ⟨hmatched, hlt⟩
    have hleft : (attempt options p s).left = s.left := hframe.sublist.eq_of_length_le hle
    have hcollected : (attempt options p s).collected = s.collected :=
      hframe.idle (congrArg List.length hleft)
    rw [Result.state, hleft, hcollected]

theorem not_advances_of_settled (h : Settled (matchPattern? options p) s) :
    ¬ Advances options p s := by
  rintro ⟨hmatched, hlt⟩
  cases hround : matchPattern? options p s with
  | none =>
    rw [attempt, resultOf_of_none hround] at hmatched
    cases hmatched
  | some t =>
    obtain rfl := h t hround
    rw [attempt_of_some hround] at hlt
    exact Nat.lt_irrefl _ hlt

/-- What is collected has no influence on whether a round takes something. -/
theorem attempt_of_not_advances (h : ¬ Advances options p s) (collected : List Occurrence) :
    (attempt options p ⟨s.left, collected⟩).state = ⟨s.left, collected⟩ := by
  obtain ⟨hmatched, hleft⟩ := (framed_resultOf options p s.left s.collected).blind collected
  refine state_attempt fun hadvances => h ?_
  rw [Advances, attempt, hmatched, hleft] at hadvances
  exact hadvances

namespace Rounds

theorem length_le (h : Rounds options p n s t) : n + t.left.length ≤ s.left.length := by
  induction h with
  | nil => exact Nat.le_of_eq (Nat.zero_add _)
  | @cons n s t hadvances _ ih =>
    have hlt := hadvances.2
    change n + t.left.length ≤ (attempt options p s).left.length at ih
    omega

theorem loop (h : Rounds options p n s t) (hstop : ¬ Advances options p t) :
    Loop options p (n + 1) s t := by
  induction h with
  | @nil s =>
    have hlast := Loop.last hstop
    rwa [state_attempt hstop] at hlast
  | cons hadvances _ ih => exact .next hadvances (ih hstop)

end Rounds

theorem Loop.unique (h : Loop options p m s t) (h' : Loop options p n s u) : m = n ∧ t = u := by
  induction h generalizing n with
  | last hstop =>
    cases h' with
    | last _ => exact ⟨rfl, rfl⟩
    | next hadvances _ => exact absurd hadvances hstop
  | next hadvances _ ih =>
    cases h' with
    | last hstop => exact absurd hadvances hstop
    | next _ hloop =>
      obtain ⟨rfl, rfl⟩ := ih hloop
      exact ⟨rfl, rfl⟩

/-- Whatever its bound, a repetition does nothing but rounds that take something. -/
theorem exists_rounds_repeatWhile (bound : Nat) (s : State) :
    ∃ n, Rounds options p n s (repeatWhile (matchPattern? options p) bound s) := by
  induction bound generalizing s with
  | zero => exact ⟨0, .nil⟩
  | succ bound ih =>
    cases hround : matchPattern? options p s with
    | none =>
      rw [repeatWhile_of_none hround]
      exact ⟨0, .nil⟩
    | some t =>
      rcases progressive_matchPattern? options p s t hround with rfl | hlt
      · rw [repeatWhile_of_not_lt hround (Nat.lt_irrefl _)]
        exact ⟨0, .nil⟩
      · rw [repeatWhile_of_lt hround hlt]
        obtain ⟨n, hrounds⟩ := ih t
        have hstate : (attempt options p s).state = t := by rw [attempt_of_some hround]; rfl
        exact ⟨n + 1, .cons (.of_some hround hlt) (hstate ▸ hrounds)⟩

/-- The result is reached in `n` rounds that take something and one more that takes nothing. From
what is left the pattern takes nothing either, whether it fails there or matches. -/
structure Exhausts (options : Registry) (p : Pattern) (s : State) (n : Nat) (r : Result) :
    Prop where
  matched : r.matched = true
  rounds : Rounds options p n s r.state
  bounded : n ≤ s.left.length
  loop : ∀ m t, Loop options p m s t ↔ m = n + 1 ∧ t = r.state
  idle : ∀ collected, (attempt options p ⟨r.left, collected⟩).state = ⟨r.left, collected⟩

/-- A repetition always matches. The loop that it stands for has exactly one run, of at most one
round more than there are occurrences, and the result is where this run ends. -/
theorem exists_exhausts_oneOrMore (options : Registry) (p : Pattern)
    (left collected : List Occurrence) :
    ∃ n, Exhausts options p ⟨left, collected⟩ n
      (resultOf options (.oneOrMore p) left collected) := by
  let s : State := ⟨left, collected⟩
  let t : State := repeatWhile (matchPattern? options p) (left.length + 1) s
  have hresult : resultOf options (.oneOrMore p) left collected = ⟨true, t.left, t.collected⟩ :=
    resultOf_of_some rfl
  obtain ⟨n, hrounds⟩ : ∃ n, Rounds options p n s t := exists_rounds_repeatWhile (left.length + 1) s
  have hsettled : Settled (matchPattern? options p) t :=
    settled_repeatWhile (progressive_matchPattern? options p) (Nat.le_succ left.length)
  have hstop : ¬ Advances options p t := not_advances_of_settled hsettled
  have hbounded : n ≤ left.length :=
    Nat.le_trans (Nat.le_add_right n t.left.length) hrounds.length_le
  have hloop : Loop options p (n + 1) s t := hrounds.loop hstop
  rw [hresult]
  refine ⟨n, rfl, hrounds, hbounded, fun m u => ⟨fun h => h.unique hloop, ?_⟩,
    attempt_of_not_advances hstop⟩
  rintro ⟨rfl, rfl⟩
  exact hloop

end Synopsis.Matching
