import Synopsis.Proofs.Matching.Repetition
import Synopsis.Proofs.Pattern.Rewriting
import Synopsis.Proofs.Usage.NormalForm

/-!
# Matching does not see how a tree is written

Equivalent trees match alike: from every state they fail both, or they take the same occurrences and
collect the same. A group passes the state through its children, so nesting it makes no difference.
A choice takes the first of the shortest outcomes, which is an associative operation, and an
alternative that is tried again is not shorter than it was before. A repetition ends in a state
from which another round takes nothing, so repeating it adds nothing.

The reader of usages unwraps sequences and leaves out alternatives by these laws only.
-/

namespace Synopsis

/-- The content of the group with each of several sequences kept as a group of its own. -/
def Usage.Frame.verbatim (f : Frame) : List Pattern :=
  if f.sequences.isEmpty then f.sequence
  else [.either ((f.all.filter (!·.isEmpty)).map .required)]

theorem Usage.Frame.WellFormed.equivalent_content {options : Registry} {f : Frame}
    (h : f.WellFormed options) (hne : ∃ ps ∈ f.all, ps ≠ []) (b : Bracket) :
    (Pattern.ofBracket b f.content).Equivalent (Pattern.ofBracket b f.verbatim) := by
  unfold Frame.content Frame.verbatim
  by_cases hsequences : f.sequences.isEmpty = true
  · rw [if_pos hsequences, if_pos hsequences]
    exact .refl _
  · rw [if_neg hsequences, if_neg hsequences]
    exact Pattern.equivalent_choice b hne fun ps hps p hp => (h.all_sequences ps hps p hp).slots

namespace Matching

variable {options : Registry} {p q : Pattern}

/-! ### Groups and choices -/

theorem matchAll?_append (xs ys : List Pattern) (s : State) :
    matchAll? options (xs ++ ys) s = (matchAll? options xs s).bind (matchAll? options ys) := by
  induction xs generalizing s with
  | nil => rfl
  | cons x xs ih =>
    rw [List.cons_append, matchAll?_cons, matchAll?_cons, Option.bind_assoc]
    exact Option.bind_congr fun t _ => ih t

theorem matchAll?_singleton (p : Pattern) (s : State) :
    matchAll? options [p] s = matchPattern? options p s := by
  rw [matchAll?_cons]
  cases matchPattern? options p s <;> rfl

theorem matchAny_append (xs ys : List Pattern) (s : State) :
    matchAny options (xs ++ ys) s = matchAny options ys (matchAny options xs s) := by
  induction xs generalizing s with
  | nil => rfl
  | cons x xs ih =>
    rw [List.cons_append, matchAny, matchAny]
    exact ih _

/-- What has been passed over, or is the best so far, is no better when it comes again. -/
theorem better_again (a b : Option State) : better (better a b) a = better a b := by
  match a, b with
  | none, b => exact better_none b
  | some _, none => exact better_of_le (Nat.le_refl _)
  | some s, some t =>
    rcases Nat.lt_or_ge t.left.length s.left.length with hts | hst
    · rw [better_of_lt hts, better_of_le (Nat.le_of_lt hts)]
    · rw [better_of_le hst, better_of_le (Nat.le_refl _)]

theorem matchBest?_append (xs ys : List Pattern) (s : State) :
    matchBest? options (xs ++ ys) s =
      better (matchBest? options xs s) (matchBest? options ys s) := by
  induction xs with
  | nil => rfl
  | cons x xs ih => rw [List.cons_append, matchBest?, matchBest?, ih, better_assoc]

/-! ### Repetitions -/

/-- What is repeated may as well be optional: a round that fails changes nothing either way. -/
theorem repeatWhile_optional (p : Pattern) (rounds : Nat) (s : State) :
    repeatWhile (matchPattern? options (.optional [p])) rounds s =
      repeatWhile (matchPattern? options p) rounds s := by
  induction rounds generalizing s with
  | zero => rfl
  | succ rounds ih =>
    have hround : matchPattern? options (.optional [p]) s =
        some ((matchPattern? options p s).getD s) := rfl
    rw [repeatWhile, repeatWhile, hround]
    cases matchPattern? options p s with
    | none => exact if_neg (Nat.lt_irrefl _)
    | some t =>
      dsimp only [Option.getD_some]
      rw [ih t]

theorem settled_oneOrMore (p : Pattern) (s : State) :
    Settled (matchPattern? options (.oneOrMore p))
      (repeatWhile (matchPattern? options p) (s.left.length + 1) s) := by
  intro t ht
  have hsettled : Settled (matchPattern? options p)
      (repeatWhile (matchPattern? options p) (s.left.length + 1) s) :=
    settled_repeatWhile (progressive_matchPattern? options p) (Nat.le_succ _)
  exact (Option.some.inj ht).symm.trans (repeatWhile_of_settled hsettled _)

/-! ### Trees that match alike -/

def Interchangeable (p q : Pattern) : Prop :=
  ∀ options s, matchPattern? options p s = matchPattern? options q s

theorem interchangeable_of_law (h : p.Law q) : Interchangeable p q := by
  intro options s
  cases h with
  | required_required xs ys zs =>
    change matchAll? options (xs ++ .required ys :: zs) s = matchAll? options (xs ++ ys ++ zs) s
    rw [matchAll?_append, List.append_assoc, matchAll?_append]
    refine Option.bind_congr fun t _ => ?_
    rw [matchAll?_cons, matchAll?_append]
    rfl
  | required_one p => exact matchAll?_singleton _ s
  | optional_optional xs ys zs =>
    change some (matchAny options (xs ++ .optional ys :: zs) s) =
      some (matchAny options (xs ++ ys ++ zs) s)
    rw [matchAny_append, matchAny_append, matchAny_append]
    rfl
  | either_either xs ys zs =>
    change matchBest? options (xs ++ .either ys :: zs) s = matchBest? options (xs ++ ys ++ zs) s
    rw [matchBest?_append, List.append_assoc, matchBest?_append, matchBest?_append ys]
    rfl
  | either_one p => exact better_none _
  | either_again xs p ys zs =>
    change matchBest? options (xs ++ p :: ys ++ p :: zs) s =
      matchBest? options (xs ++ p :: ys ++ zs) s
    rw [matchBest?_append, matchBest?_append (xs ++ p :: ys), matchBest?_append xs]
    rw [better_assoc, better_assoc]
    congr 1
    rw [matchBest?, matchBest?, ← better_assoc, better_again]
  | oneOrMore_oneOrMore p =>
    have hround : matchPattern? options (.oneOrMore p) s =
        some (repeatWhile (matchPattern? options p) (s.left.length + 1) s) := rfl
    change some (repeatWhile (matchPattern? options (.oneOrMore p)) _ s) = _
    rw [repeatWhile_succ_of_settled hround (settled_oneOrMore p s), hround]
  | oneOrMore_optional p => exact congrArg some (repeatWhile_optional p _ s)
  | optional_oneOrMore p => rfl

theorem interchangeable_of_rewrites (h : p.Rewrites q) : Interchangeable p q := by
  induction h with
  | law hlaw => exact interchangeable_of_law hlaw
  | @required xs p q zs _ ih =>
    intro options s
    change matchAll? options (xs ++ p :: zs) s = matchAll? options (xs ++ q :: zs) s
    rw [matchAll?_append, matchAll?_append]
    refine Option.bind_congr fun t _ => ?_
    rw [matchAll?_cons, matchAll?_cons, ih]
  | @optional xs p q zs _ ih =>
    intro options s
    change some (matchAny options (xs ++ p :: zs) s) = some (matchAny options (xs ++ q :: zs) s)
    rw [matchAny_append, matchAny_append, matchAny, matchAny, ih]
  | @either xs p q zs _ ih =>
    intro options s
    change matchBest? options (xs ++ p :: zs) s = matchBest? options (xs ++ q :: zs) s
    rw [matchBest?_append, matchBest?_append, matchBest?, matchBest?, ih]
  | @oneOrMore p q _ ih =>
    intro options s
    have hround : matchPattern? options p = matchPattern? options q := funext (ih options)
    change some (repeatWhile (matchPattern? options p) _ s) =
      some (repeatWhile (matchPattern? options q) _ s)
    rw [hround]

theorem interchangeable_of_equivalent (h : p.Equivalent q) : Interchangeable p q := by
  induction h with
  | rel p q hpq => exact interchangeable_of_rewrites hpq
  | refl p => exact fun _ _ => rfl
  | symm p q _ ih => exact fun options s => (ih options s).symm
  | trans p q t _ _ ih ih' => exact fun options s => (ih options s).trans (ih' options s)

/-- Equivalent trees have the same result on all lists. What the reader makes of a group, and of
the atom in front of an ellipsis, is equivalent to what stands there, so this also holds of every
tree with such a group in it. -/
theorem resultOf_equivalent (options : Registry) (left collected : List Occurrence) :
    (∀ p q : Pattern, p.Equivalent q →
      resultOf options p left collected = resultOf options q left collected) ∧
    (∀ f : Usage.Frame, f.WellFormed options → (∃ ps ∈ f.all, ps ≠ []) → ∀ b,
      (Pattern.ofBracket b f.content).Equivalent (Pattern.ofBracket b f.verbatim)) ∧
    ∀ atom : List Pattern,
      (Pattern.oneOrMore (.group atom)).Equivalent (.oneOrMore (.required atom)) := by
  refine ⟨fun p q h => ?_, fun f hf hne b => hf.equivalent_content hne b, fun atom => ?_⟩
  · rw [resultOf_eq, resultOf_eq, interchangeable_of_equivalent h]
  · exact (Pattern.equivalent_group atom).map fun _ _ hpq => .oneOrMore hpq

/-- A choice in a choice, one alternative given twice, all of it optional in a repetition; and the
group `( a X | a X | )`, which is read as `( a X )`. -/
theorem resultOf_equivalent_nested :
    let a : Pattern := .command "a"
    let b : Pattern := .command "b"
    let x : Pattern := .argument "X"
    let p : Pattern := .required [.oneOrMore (.optional [.either [.either [a], b, a]]), x]
    let q : Pattern := .required [.oneOrMore (.either [a, b]), x]
    let left := [.positional "b", .positional "a", .positional "c"]
    let f : Usage.Frame := { sequences := [[a, x], [a, x]] }
    p.Equivalent q ∧ resultOf {} p left [] = resultOf {} q left [] ∧
      f.WellFormed {} ∧ (Pattern.required f.content).Equivalent (.required f.verbatim) := by
  intro a b x p q left f
  have hoptional : p.Rewrites (.required [.oneOrMore (.either [.either [a], b, a]), x]) :=
    .required [] [x] (.law (.oneOrMore_optional _))
  have hchoice : Pattern.Rewrites (.either [.either [a], b, a]) (.either [a, b, a]) :=
    .law (.either_either [] [a] [b, a])
  have hagain : Pattern.Rewrites (.either [a, b, a]) (.either [a, b]) :=
    .law (.either_again [] a [b] [])
  have hpq : p.Equivalent q :=
    (Pattern.Equivalent.of_rewrites hoptional).trans
      ((Pattern.Equivalent.of_rewrites (.required [] [x] (.oneOrMore hchoice))).trans
        (Pattern.Equivalent.of_rewrites (.required [] [x] (.oneOrMore hagain))))
  have hf : f.WellFormed {} := by
    have hsequence : ∀ p ∈ [a, x], p.WellFormed {} :=
      List.forall_mem_cons.2 ⟨.leaf rfl, List.forall_mem_singleton.2 (.leaf rfl)⟩
    exact ⟨List.forall_mem_cons.2 ⟨hsequence, List.forall_mem_singleton.2 hsequence⟩, nofun⟩
  obtain ⟨hresult, hcontent, -⟩ := resultOf_equivalent {} left []
  have hne : ∃ ps ∈ f.all, ps ≠ [] := ⟨[a, x], List.mem_cons_self, List.cons_ne_nil _ _⟩
  exact ⟨hpq, hresult p q hpq, hf, hcontent f hf hne .round⟩

end Matching

end Synopsis
