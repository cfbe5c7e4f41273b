import Mathlib.Data.Multiset.AddSub
import Synopsis.Proofs.Interleaving
import Synopsis.Proofs.Matching.Trail

/-!
# What a usage tree accepts

A tree accepts pairs of a list of positional texts and a multiset of option occurrences. This is
said by rules, one for each way in which a node can be filled, without any search and without
looking at where options stand. Matching is sound for these rules: what a successful match takes
off the list is accepted by the tree.
-/

namespace Synopsis

namespace Occurrence

def text? : Occurrence → Option String
  | argument _ v => v.text?
  | _ => none

def mention? : Occurrence → Option (OptionId × Value)
  | option id v => some (id, v)
  | _ => none

/-- A positional text or an option, which is all that an argument vector contains. -/
def isGiven : Occurrence → Bool
  | argument _ v => v.text?.isSome
  | command _ _ => false
  | option _ _ => true

def texts (l : List Occurrence) : List String :=
  l.filterMap text?

/-- The option occurrences, their order forgotten. -/
def mentions (l : List Occurrence) : Multiset (OptionId × Value) :=
  l.filterMap mention?

theorem texts_append (k l : List Occurrence) : texts (k ++ l) = texts k ++ texts l :=
  List.filterMap_append

theorem mentions_append (k l : List Occurrence) : mentions (k ++ l) = mentions k + mentions l := by
  unfold mentions
  rw [List.filterMap_append, Multiset.coe_add]

theorem texts_filter_isArgument (l : List Occurrence) :
    texts (l.filter isArgument) = texts l := by
  unfold texts
  rw [List.filterMap_filter]
  apply List.filterMap_congr
  intro x _
  cases x <;> rfl

theorem mentions_eq_of_perm {k l : List Occurrence} (h : k.Perm l) : mentions k = mentions l :=
  Multiset.coe_eq_coe.2 (h.filterMap mention?)

end Occurrence

namespace Matching

open Occurrence

variable {options : Registry}

inductive Accepts (options : Registry) :
    Pattern → List String → Multiset (OptionId × Value) → Prop
  | argument {name v text} : Accepts options (.leaf (.argument name v)) [text] 0
  | command {name v} : Accepts options (.leaf (.command name v)) [name] 0
  | option {id other v} :
      (options.spec id).short = (options.spec other).short →
      (options.spec id).long = (options.spec other).long →
      Accepts options (.leaf (.option id)) [] {(other, v)}
  | required_nil : Accepts options (.required []) [] 0
  | required_cons {p ps ts us ms ns} :
      Accepts options p ts ms → Accepts options (.required ps) us ns →
      Accepts options (.required (p :: ps)) (ts ++ us) (ms + ns)
  | optional_nil : Accepts options (.optional []) [] 0
  | optional_take {p ps ts us ms ns} :
      Accepts options p ts ms → Accepts options (.optional ps) us ns →
      Accepts options (.optional (p :: ps)) (ts ++ us) (ms + ns)
  | optional_skip {p ps us ns} :
      Accepts options (.optional ps) us ns → Accepts options (.optional (p :: ps)) us ns
  | either {p ps ts ms} : p ∈ ps → Accepts options p ts ms → Accepts options (.either ps) ts ms
  | oneOrMore_nil {p} : Accepts options (.oneOrMore p) [] 0
  | oneOrMore_cons {p ts us ms ns} :
      Accepts options p ts ms → Accepts options (.oneOrMore p) us ns →
      Accepts options (.oneOrMore p) (ts ++ us) (ms + ns)
  | shortcut : Accepts options .shortcut [] 0

theorem Taking.accepts {k : Taking} (hfits : k.Fits options) (hgiven : k.given.isGiven = true) :
    Accepts options (.leaf k.slot) (texts [k.given]) (mentions [k.given]) := by
  obtain ⟨slot, x⟩ := k
  obtain ⟨hlane, hslot⟩ := hfits
  cases slot with
  | argument name v =>
    obtain ⟨given, w, rfl⟩ := isArgument_iff.1 hlane
    obtain ⟨text, htext⟩ := Option.isSome_iff_exists.1 hgiven
    have htexts : texts [.argument given w] = [text] := by
      simp [texts, text?, show w.text? = some text from htext]
    rw [htexts]
    exact .argument
  | command name v =>
    obtain ⟨given, w, rfl⟩ := isArgument_iff.1 hlane
    have hword : w.text? = some name := of_decide_eq_true hslot
    have htexts : texts [.argument given w] = [name] := by
      simp [texts, text?, hword]
    rw [htexts]
    exact .command
  | option id =>
    obtain ⟨other, v, rfl, hsame⟩ := isOption_iff.1 hlane
    obtain ⟨hshort, hlong⟩ := Registry.sameIdentity_iff.1 hsame
    exact .option hshort hlong

/-- Occurrences that fill the slots of a walk are accepted by the tree. -/
theorem accepts_of_walk {p : Pattern} {walk : List Slot} (h : p.Walk walk) {ks : List Taking}
    (hslots : ks.map Taking.slot = walk) (hfits : ∀ k ∈ ks, k.Fits options)
    (hgiven : ∀ k ∈ ks, k.given.isGiven = true) :
    Accepts options p (texts (ks.map Taking.given)) (mentions (ks.map Taking.given)) := by
  induction h generalizing ks with
  | leaf slot =>
    obtain ⟨k, rfl, rfl⟩ := List.map_eq_singleton_iff.1 hslots
    exact Taking.accepts (hfits k List.mem_cons_self) (hgiven k List.mem_cons_self)
  | required_nil =>
    obtain rfl := List.map_eq_nil_iff.1 hslots
    exact .required_nil
  | required_cons _ _ first rest =>
    obtain ⟨ks, ls, rfl, hks, hls⟩ := List.map_eq_append_iff.1 hslots
    rw [List.map_append, texts_append, mentions_append]
    rw [List.forall_mem_append] at hfits hgiven
    exact .required_cons (first hks hfits.1 hgiven.1) (rest hls hfits.2 hgiven.2)
  | optional_nil =>
    obtain rfl := List.map_eq_nil_iff.1 hslots
    exact .optional_nil
  | optional_take _ _ first rest =>
    obtain ⟨ks, ls, rfl, hks, hls⟩ := List.map_eq_append_iff.1 hslots
    rw [List.map_append, texts_append, mentions_append]
    rw [List.forall_mem_append] at hfits hgiven
    exact .optional_take (first hks hfits.1 hgiven.1) (rest hls hfits.2 hgiven.2)
  | optional_skip _ rest => exact .optional_skip (rest hslots hfits hgiven)
  | either hp _ ih => exact .either hp (ih hslots hfits hgiven)
  | oneOrMore_nil =>
    obtain rfl := List.map_eq_nil_iff.1 hslots
    exact .oneOrMore_nil
  | oneOrMore_cons _ _ first rest =>
    obtain ⟨ks, ls, rfl, hks, hls⟩ := List.map_eq_append_iff.1 hslots
    rw [List.map_append, texts_append, mentions_append]
    rw [List.forall_mem_append] at hfits hgiven
    exact .oneOrMore_cons (first hks hfits.1 hgiven.1) (rest hls hfits.2 hgiven.2)
  | shortcut =>
    obtain rfl := List.map_eq_nil_iff.1 hslots
    exact .shortcut

/-- What a trail takes off the list, in the order of the list. The order of the positionals is
also the order in which they were taken. -/
theorem Trail.exists_taken {ks : List Taking} {s t : State} (h : Trail options ks s t) :
    ∃ taken, Interleaving [taken, t.left] s.left ∧ taken.Perm (ks.map Taking.given) ∧
      taken.filter isArgument = (ks.map Taking.given).filter isArgument := by
  induction h with
  | nil => exact ⟨[], .nil_left _, .nil, rfl⟩
  | @cons k front back collected ks t hfits hfront _ ih =>
    obtain ⟨taken, hleft, hperm, horder⟩ := ih
    obtain ⟨init, tail, rfl, hinit, hleft⟩ := hleft.insert (x := k.given)
    refine ⟨init ++ k.given :: tail, hleft, ?_, ?_⟩
    · exact List.perm_middle.trans (hperm.cons k.given)
    · rw [List.filter_append] at horder ⊢
      rw [List.map_cons]
      by_cases hk : isArgument k.given = true
      · have hempty : init.filter isArgument = [] := by
          refine List.filter_eq_nil_iff.2 fun y hy => ?_
          rcases Lane.eq_or_disjoint options k.slot.lane .positional with heq | hdisjoint
          · have hy' := hfront y (hinit hy)
            rw [heq] at hy'
            exact Bool.eq_false_iff.1 hy'
          · exact absurd hk (Bool.eq_false_iff.1 (hdisjoint _ hfits.lane))
        rw [hempty, List.nil_append] at horder ⊢
        rw [List.filter_cons_of_pos hk, List.filter_cons_of_pos hk, horder]
      · rw [List.filter_cons_of_neg hk, List.filter_cons_of_neg hk, horder]

theorem Trail.accepts {p : Pattern} {ks : List Taking} {s t : State} (h : Trail options ks s t)
    (hwalk : p.Walk (ks.map Taking.slot)) (hgiven : ∀ x ∈ s.left, x.isGiven = true) :
    ∃ taken, Interleaving [taken, t.left] s.left ∧
      Accepts options p (texts taken) (mentions taken) := by
  obtain ⟨taken, hleft, hperm, horder⟩ := h.exists_taken
  refine ⟨taken, hleft, ?_⟩
  have htexts : texts taken = texts (ks.map Taking.given) := by
    rw [← texts_filter_isArgument, horder, texts_filter_isArgument]
  rw [htexts, mentions_eq_of_perm hperm]
  exact accepts_of_walk hwalk rfl h.fits fun k hk => hgiven _ (h.given_mem k hk)

/-- A successful match takes off the list what the tree accepts, and leaves the rest in order. If
nothing is left, the tree accepts the whole list. -/
theorem accepts_of_matched {p : Pattern} {left collected : List Occurrence}
    (hgiven : ∀ x ∈ left, x.isGiven = true)
    (hmatched : (resultOf options p left collected).matched = true) :
    (∃ taken, Interleaving [taken, (resultOf options p left collected).left] left ∧
      Accepts options p (texts taken) (mentions taken)) ∧
    ((resultOf options p left collected).isComplete = true →
      Accepts options p (texts left) (mentions left)) := by
  cases hm : matchPattern? options p ⟨left, collected⟩ with
  | none =>
    rw [resultOf_of_none hm] at hmatched
    cases hmatched
  | some t =>
    rw [resultOf_of_some hm]
    obtain ⟨ks, htrail, hwalk⟩ := matchPattern?_trail p _ t hm
    obtain ⟨taken, hleft, haccepts⟩ := htrail.accepts hwalk hgiven
    refine ⟨⟨taken, hleft, haccepts⟩, fun hcomplete => ?_⟩
    have hnil : t.left = [] := by simpa [Result.isComplete] using hcomplete
    rw [hnil] at hleft
    obtain rfl : taken = left := hleft.eq_of_nil_right
    exact haccepts

/-- The flag `-v`, given twice among the words, goes to two rounds of a repetition. -/
theorem accepts_interleaved_flags :
    let options : Registry := { entries := [.ofNames (some "-v") none 0] }
    let tree : Pattern := .required [.command "go", .oneOrMore (.optional [.option 0]),
      .either [.required [.argument "X", .argument "Y"], .argument "X"]]
    let left := [.option 0 (.flag true), .positional "go", .option 0 (.flag true),
      .positional "a", .positional "b"]
    (∀ x ∈ left, x.isGiven = true) ∧ (resultOf options tree left []).isComplete = true ∧
      Accepts options tree ["go", "a", "b"] {(0, .flag true), (0, .flag true)} := by
  intro options tree left
  have hgiven : ∀ x ∈ left, x.isGiven = true := by decide
  have hcomplete : (resultOf options tree left []).isComplete = true := by decide +kernel
  exact ⟨hgiven, hcomplete, (accepts_of_matched hgiven (by decide +kernel)).2 hcomplete⟩

end Matching

end Synopsis
