import Synopsis.Occurrence.Basic

/-!
# Matching

A pattern takes occurrences off a list and collects them under its names. Options
are taken from wherever they stand, positionals in order. Whether a pattern has
matched or not, it hands back both lists, and what comes next goes on with these.

A sequence that fails hands back the lists from before its first child. A choice
takes the alternative that leaves the fewest occurrences, the first of several, and
tries each with the same lists. Optional children and rounds of a repetition that
fail are passed over, but their lists are taken over.
-/

namespace Synopsis

namespace Matching

structure State where
  left : List Occurrence
  collected : List Occurrence
  deriving DecidableEq, Repr

def takeFirst? {α : Type} (p : α → Bool) : List α → Option (α × List α)
  | [] => none
  | x :: xs =>
    if p x then some (x, xs)
    else (takeFirst? p xs).map fun (found, others) => (found, x :: others)

theorem takeFirst?_eq_some_iff {α : Type} {p : α → Bool} {l others : List α} {x : α} :
    takeFirst? p l = some (x, others) ↔
      ∃ front back, l = front ++ x :: back ∧ others = front ++ back ∧ p x = true ∧
        ∀ y ∈ front, p y = false := by
  induction l generalizing x others with
  | nil => simp [takeFirst?]
  | cons z zs ih =>
    unfold takeFirst?
    split
    · next hz =>
      constructor
      · intro h
        simp only [Option.some.injEq, Prod.mk.injEq] at h
        obtain ⟨rfl, rfl⟩ := h
        exact ⟨[], zs, rfl, rfl, hz, by simp⟩
      · rintro ⟨front, back, hl, ho, -, hf⟩
        cases front with
        | nil => simp_all
        | cons y front =>
          obtain ⟨rfl, -⟩ := List.cons.inj hl
          simp [hf z] at hz
    · next hz =>
      constructor
      · intro h
        obtain ⟨⟨y, rest⟩, hy, heq⟩ := Option.map_eq_some_iff.1 h
        simp only [Prod.mk.injEq] at heq
        obtain ⟨rfl, rfl⟩ := heq
        obtain ⟨front, back, rfl, rfl, hx, hf⟩ := ih.1 hy
        exact ⟨z :: front, back, rfl, rfl, hx, by simpa [hz] using hf⟩
      · rintro ⟨front, back, hl, ho, hx, hf⟩
        cases front with
        | nil => simp_all
        | cons y front =>
          simp only [List.cons_append, List.cons.injEq] at hl
          obtain ⟨rfl, rfl⟩ := hl
          rw [ih.2 ⟨front, back, rfl, rfl, hx, fun y hy => hf y (List.mem_cons_of_mem _ hy)⟩]
          simp [ho]

theorem takeFirst?_eq_none_iff {α : Type} {p : α → Bool} {l : List α} :
    takeFirst? p l = none ↔ l.filter p = [] := by
  induction l with
  | nil => simp [takeFirst?]
  | cons z zs ih => by_cases hz : p z = true <;> simp [takeFirst?, hz, ih]

theorem filter_eq_of_takeFirst? {α : Type} {p : α → Bool} {l others : List α} {x : α}
    (h : takeFirst? p l = some (x, others)) : l.filter p = x :: others.filter p := by
  obtain ⟨front, back, rfl, rfl, hx, hfront⟩ := takeFirst?_eq_some_iff.1 h
  have hempty : front.filter p = [] := List.filter_eq_nil_iff.2 (by simpa using hfront)
  simp [List.filter_append, hempty, hx]

theorem perm_of_takeFirst? {α : Type} {p : α → Bool} {l others : List α} {x : α}
    (h : takeFirst? p l = some (x, others)) : l.Perm (x :: others) := by
  obtain ⟨front, back, rfl, rfl, -, -⟩ := takeFirst?_eq_some_iff.1 h
  exact List.perm_middle

/-- The occurrence that a slot binds, under the slot's name, and the others. Only
the first positional can be a command. -/
def bind? (options : Registry) (slot : Slot) (left : List Occurrence) :
    Option (Occurrence × List Occurrence) :=
  match slot with
  | .argument name _ =>
    (takeFirst? Occurrence.isArgument left).map fun (x, others) =>
      (.argument (some name) x.value, others)
  | .command name _ =>
    (takeFirst? Occurrence.isArgument left).bind fun (x, others) =>
      if x.value.text? = some name then some (.command name (.flag true), others) else none
  | .option id =>
    (takeFirst? (Occurrence.isOption options id) left).map fun (x, others) =>
      (.option id x.value, others)

/-- Adds to the value collected under the name of `found`, or else collects `found`
with the addition as its value. -/
def merge (options : Registry) (addition : Value) (found : Occurrence) :
    List Occurrence → List Occurrence
  | [] => [found.withValue addition]
  | x :: xs =>
    if x.name? options = found.name? options then x.withValue (x.value.add addition) :: xs
    else x :: merge options addition found xs

/-- Collects what a slot has bound. Slots with a count or a list accumulate. -/
def collect (options : Registry) (initial : Value) (found : Occurrence)
    (collected : List Occurrence) : List Occurrence :=
  match initial with
  | .count _ => merge options (.count 1) found collected
  | .items _ => merge options (.items found.value.addition) found collected
  | _ => collected ++ [found]

structure Result where
  matched : Bool
  left : List Occurrence
  collected : List Occurrence
  deriving DecidableEq, Repr

namespace Result

def success (s : State) : Result :=
  ⟨true, s.left, s.collected⟩

def failure (s : State) : Result :=
  ⟨false, s.left, s.collected⟩

def state (r : Result) : State :=
  ⟨r.left, r.collected⟩

def isComplete (r : Result) : Bool :=
  r.matched && r.left.isEmpty

/-- A match that leaves fewer occurrences than the best so far. -/
def improves (r : Result) (best : Option Result) : Bool :=
  r.matched && best.all fun b => r.left.length < b.left.length

end Result

def matchSlot (options : Registry) (slot : Slot) (s : State) : Result :=
  match bind? options slot s.left with
  | none => .failure s
  | some (found, others) =>
    .success ⟨others, collect options (slot.initial options) found s.collected⟩

/-- Goes on until a round takes nothing. The lists of this last round are taken over
too, whether it has matched or not. -/
def repeatRounds (round : State → Result) (s : State) : State :=
  let r := round s
  if r.matched = true ∧ r.left.length < s.left.length then repeatRounds round r.state else r.state
termination_by s.left.length
decreasing_by exact And.right ‹_›

mutual

def matchPattern (options : Registry) : Pattern → State → Result
  | .leaf slot, s => matchSlot options slot s
  | .required ps, s => matchAll options s ps s
  | .optional ps, s => .success (matchEach options ps s)
  | .either ps, s => (matchBest options s ps none).getD (.failure s)
  | .oneOrMore p, s => .success (repeatRounds (fun t => matchPattern options p t) s)
  | .shortcut, s => .success s

/-- All patterns one after the other. If one fails, the lists are those of `start`. -/
def matchAll (options : Registry) (start : State) : List Pattern → State → Result
  | [], s => .success s
  | p :: ps, s =>
    let r := matchPattern options p s
    if r.matched then matchAll options start ps r.state else .failure start

def matchEach (options : Registry) : List Pattern → State → State
  | [], s => s
  | p :: ps, s => matchEach options ps (matchPattern options p s).state

/-- The best match of the patterns, if it is better than `best`. -/
def matchBest (options : Registry) (s : State) : List Pattern → Option Result → Option Result
  | [], best => best
  | p :: ps, best =>
    let r := matchPattern options p s
    matchBest options s ps (if r.improves best then some r else best)

end

def resultOf (options : Registry) (p : Pattern) (left collected : List Occurrence) : Result :=
  matchPattern options p ⟨left, collected⟩

def run (options : Registry) (p : Pattern) (left : List Occurrence) : Result :=
  resultOf options p left []

end Matching

end Synopsis
