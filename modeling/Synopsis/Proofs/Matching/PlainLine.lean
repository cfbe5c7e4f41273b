import Synopsis.Proofs.Matching.Acceptance
import Synopsis.Proofs.Matching.Choice

/-!
# Plain usage lines

A plain line is a row of slots and of groups of options that may be left out; it can end with an
argument that repeats. It names no identity of options twice. Whether such a line accepts arguments
can be said without any search: the texts fill the positional slots in order, and the options are
options of the line, each given at most once, with none of the slots left empty.

Matching is exact for plain lines. What a slot takes is never needed by a later part, so a line
matches completely iff it accepts. Of several lines the first that accepts is chosen.
-/

namespace Synopsis

namespace Occurrence

def optionId? : Occurrence → Option OptionId
  | option id _ => some id
  | _ => none

def optionIds (l : List Occurrence) : List OptionId :=
  l.filterMap optionId?

end Occurrence

/-- An argument takes any text, a command its own word. -/
def Slot.AdmitsText : Slot → String → Prop
  | argument _ _, _ => True
  | command name _, text => text = name
  | option _, _ => False

/-- A slot, or a group of options that may be left out. -/
inductive PlainPart where
  | slot (slot : Slot)
  | group (ids : List OptionId)

namespace PlainPart

def tree : PlainPart → Pattern
  | slot s => .leaf s
  | group ids => .optional (ids.map .option)

def positionals : PlainPart → List Slot
  | slot (.option _) => []
  | slot s => [s]
  | group _ => []

def optionIds : PlainPart → List OptionId
  | slot (.option id) => [id]
  | slot _ => []
  | group ids => ids

def demanded : PlainPart → List OptionId
  | slot (.option id) => [id]
  | slot _ => []
  | group _ => []

theorem slot_of_positional {s : Slot} (h : s.optionId? = none) :
    (slot s).positionals = [s] ∧ (slot s).optionIds = [] ∧ (slot s).demanded = [] := by
  cases s with
  | argument name v => exact ⟨rfl, rfl, rfl⟩
  | command name v => exact ⟨rfl, rfl, rfl⟩
  | option id => cases h

end PlainPart

structure PlainLine where
  parts : List PlainPart
  /-- The name and the default of an argument that repeats at the end. -/
  last : Option (String × Value) := none

namespace PlainLine

def children (l : PlainLine) : List Pattern :=
  l.parts.map PlainPart.tree ++
    l.last.toList.map fun (name, v) => .oneOrMore (.leaf (.argument name v))

def tree (l : PlainLine) : Pattern :=
  .required l.children

def positionals (l : PlainLine) : List Slot :=
  l.parts.flatMap PlainPart.positionals

def optionIds (l : PlainLine) : List OptionId :=
  l.parts.flatMap PlainPart.optionIds

def demanded (l : PlainLine) : List OptionId :=
  l.parts.flatMap PlainPart.demanded

def Distinct (options : Registry) (l : PlainLine) : Prop :=
  l.optionIds.Pairwise fun i j => options.sameIdentity i j = false

instance (options : Registry) (l : PlainLine) : Decidable (l.Distinct options) :=
  inferInstanceAs (Decidable (l.optionIds.Pairwise fun i j => options.sameIdentity i j = false))

/-- The line accepts these positional texts and these options. -/
structure Accepts (options : Registry) (l : PlainLine) (texts : List String)
    (given : List OptionId) : Prop where
  positionals : ∃ front more, texts = front ++ more ∧
    List.Forall₂ Slot.AdmitsText l.positionals front ∧ (l.last = none → more = [])
  known : ∀ i ∈ given, ∃ id ∈ l.optionIds, options.sameIdentity id i = true
  once : given.Pairwise fun i j => options.sameIdentity i j = false
  demanded : ∀ id ∈ l.demanded, ∃ i ∈ given, options.sameIdentity id i = true

variable {options : Registry} {l m : PlainLine} {parts : List PlainPart}
  {last : Option (String × Value)} {texts : List String} {given given' : List OptionId}
  {id other : OptionId}

theorem mem_optionIds_of_mem_demanded (h : id ∈ l.demanded) : id ∈ l.optionIds := by
  obtain ⟨part, hpart, hid⟩ := List.mem_flatMap.1 h
  refine List.mem_flatMap.2 ⟨part, hpart, ?_⟩
  match part, hid with
  | .slot (.option _), hid => exact hid

namespace Accepts

theorem perm (h : Accepts options l texts given) (hperm : given.Perm given') :
    Accepts options l texts given' := by
  refine ⟨h.positionals, fun i hi => h.known i (hperm.mem_iff.2 hi), ?_, fun id hid => ?_⟩
  · refine (hperm.pairwise_iff fun {i j} hij => ?_).1 h.once
    rw [options.sameIdentity_comm, hij]
  · obtain ⟨i, hi, hsame⟩ := h.demanded id hid
    exact ⟨i, hperm.mem_iff.1 hi, hsame⟩

/-- The order in which the options are given is of no account. -/
theorem perm_iff (hperm : given.Perm given') :
    Accepts options l texts given ↔ Accepts options l texts given' :=
  ⟨fun h => h.perm hperm, fun h => h.perm hperm.symm⟩

theorem nil_iff :
    Accepts options ⟨[], last⟩ texts given ↔ (last = none → texts = []) ∧ given = [] := by
  constructor
  · rintro ⟨⟨front, more, rfl, hfront, hmore⟩, hknown, -, -⟩
    obtain rfl := List.forall₂_nil_left_iff.1 hfront
    refine ⟨hmore, List.eq_nil_iff_forall_not_mem.2 fun i hi => ?_⟩
    obtain ⟨id, hid, -⟩ := hknown i hi
    exact List.not_mem_nil hid
  · rintro ⟨htexts, rfl⟩
    exact ⟨⟨[], texts, rfl, .nil, htexts⟩, by simp, .nil, by simp [PlainLine.demanded]⟩

theorem slot_iff {slot : Slot} (hslot : slot.optionId? = none) :
    Accepts options ⟨.slot slot :: parts, last⟩ texts given ↔
      ∃ text rest, texts = text :: rest ∧ slot.AdmitsText text ∧
        Accepts options ⟨parts, last⟩ rest given := by
  obtain ⟨hpart, hpartIds, hpartDemanded⟩ := PlainPart.slot_of_positional hslot
  have hpositionals : PlainLine.positionals ⟨.slot slot :: parts, last⟩ =
      slot :: PlainLine.positionals ⟨parts, last⟩ := by
    simp [PlainLine.positionals, hpart]
  have hids : PlainLine.optionIds ⟨.slot slot :: parts, last⟩ =
      PlainLine.optionIds ⟨parts, last⟩ := by
    simp [PlainLine.optionIds, hpartIds]
  have hdemanded : PlainLine.demanded ⟨.slot slot :: parts, last⟩ =
      PlainLine.demanded ⟨parts, last⟩ := by
    simp [PlainLine.demanded, hpartDemanded]
  constructor
  · rintro ⟨⟨front, more, rfl, hfront, hmore⟩, hknown, honce, hdemands⟩
    rw [hpositionals] at hfront
    rw [hids] at hknown
    rw [hdemanded] at hdemands
    obtain ⟨text, others, hadmits, hothers, rfl⟩ := List.forall₂_cons_left_iff.1 hfront
    exact ⟨text, others ++ more, rfl, hadmits, ⟨others, more, rfl, hothers, hmore⟩, hknown, honce,
      hdemands⟩
  · rintro ⟨text, rest, rfl, hadmits, ⟨front, more, rfl, hfront, hmore⟩, hknown, honce, hdemands⟩
    rw [← hids] at hknown
    rw [← hdemanded] at hdemands
    refine ⟨⟨text :: front, more, rfl, ?_, hmore⟩, hknown, honce, hdemands⟩
    rw [hpositionals]
    exact .cons hadmits hfront

/-- An option that is given fills a slot or is picked from a group. What remains is to be accepted
by the line without it. -/
theorem pick_iff (hpositionals : l.positionals = m.positionals) (hlast : l.last = m.last)
    (hids : l.optionIds = id :: m.optionIds)
    (hdemanded : l.demanded = m.demanded ∨ l.demanded = id :: m.demanded)
    (hdistinct : l.Distinct options) (hsame : options.sameIdentity id other = true) :
    Accepts options l texts (other :: given) ↔ Accepts options m texts given := by
  have hapart : ∀ j ∈ m.optionIds, options.sameIdentity j other = false := by
    unfold Distinct at hdistinct
    rw [hids, List.pairwise_cons] at hdistinct
    intro j hj
    rw [Bool.eq_false_iff]
    intro hjother
    rw [options.sameIdentity_comm] at hjother
    have hid := hdistinct.1 j hj
    rw [Registry.sameIdentity_trans hsame hjother] at hid
    cases hid
  constructor
  · rintro ⟨htexts, hknown, honce, hdemands⟩
    obtain ⟨-, hknown⟩ := List.forall_mem_cons.1 hknown
    obtain ⟨hother, honce⟩ := List.pairwise_cons.1 honce
    rw [hpositionals, hlast] at htexts
    refine ⟨htexts, fun i hi => ?_, honce, fun j hj => ?_⟩
    · obtain ⟨j, hj, hji⟩ := hknown i hi
      rw [hids] at hj
      rcases List.mem_cons.1 hj with rfl | hj
      · rw [options.sameIdentity_comm] at hsame
        have hne := hother i hi
        rw [Registry.sameIdentity_trans hsame hji] at hne
        cases hne
      · exact ⟨j, hj, hji⟩
    · have hjl : j ∈ l.demanded := by
        rcases hdemanded with h | h
        · exact h ▸ hj
        · exact h ▸ List.mem_cons_of_mem id hj
      obtain ⟨i, hi, hji⟩ := hdemands j hjl
      rcases List.mem_cons.1 hi with rfl | hi
      · rw [hapart j (mem_optionIds_of_mem_demanded hj)] at hji
        cases hji
      · exact ⟨i, hi, hji⟩
  · rintro ⟨htexts, hknown, honce, hdemands⟩
    rw [← hpositionals, ← hlast] at htexts
    refine ⟨htexts, List.forall_mem_cons.2 ⟨?_, fun i hi => ?_⟩,
      List.pairwise_cons.2 ⟨fun i hi => ?_, honce⟩, fun j hj => ?_⟩
    · exact ⟨id, hids ▸ List.mem_cons_self, hsame⟩
    · obtain ⟨j, hj, hji⟩ := hknown i hi
      exact ⟨j, hids ▸ List.mem_cons_of_mem id hj, hji⟩
    · obtain ⟨j, hj, hji⟩ := hknown i hi
      rw [Bool.eq_false_iff]
      intro hother
      rw [options.sameIdentity_comm] at hother
      have hne := hapart j hj
      rw [Registry.sameIdentity_trans hji hother] at hne
      cases hne
    · have hj' : j = id ∨ j ∈ m.demanded := by
        rcases hdemanded with h | h
        · exact .inr (h ▸ hj)
        · exact List.mem_cons.1 (h ▸ hj)
      rcases hj' with rfl | hj'
      · exact ⟨other, List.mem_cons_self, hsame⟩
      · obtain ⟨i, hi, hji⟩ := hdemands j hj'
        exact ⟨i, List.mem_cons_of_mem other hi, hji⟩

theorem group_nil_iff : Accepts options ⟨.group [] :: parts, last⟩ texts given ↔
    Accepts options ⟨parts, last⟩ texts given :=
  ⟨fun h => ⟨h.positionals, h.known, h.once, h.demanded⟩,
    fun h => ⟨h.positionals, h.known, h.once, h.demanded⟩⟩

theorem skip_iff {ids : List OptionId} (h : ∀ i ∈ given, options.sameIdentity id i = false) :
    Accepts options ⟨.group (id :: ids) :: parts, last⟩ texts given ↔
      Accepts options ⟨.group ids :: parts, last⟩ texts given := by
  constructor
  · rintro ⟨htexts, hknown, honce, hdemands⟩
    refine ⟨htexts, fun i hi => ?_, honce, hdemands⟩
    obtain ⟨j, hj, hji⟩ := hknown i hi
    rcases List.mem_cons.1 hj with rfl | hj
    · rw [h i hi] at hji
      cases hji
    · exact ⟨j, hj, hji⟩
  · rintro ⟨htexts, hknown, honce, hdemands⟩
    refine ⟨htexts, fun i hi => ?_, honce, hdemands⟩
    obtain ⟨j, hj, hji⟩ := hknown i hi
    exact ⟨j, List.mem_cons_of_mem id hj, hji⟩

theorem not_of_missing (h : ∀ i ∈ given, options.sameIdentity id i = false) :
    ¬ Accepts options ⟨.slot (.option id) :: parts, last⟩ texts given := by
  intro haccepts
  obtain ⟨i, hi, hsame⟩ := haccepts.demanded id List.mem_cons_self
  rw [h i hi] at hsame
  cases hsame

end Accepts

end PlainLine

namespace Occurrence

variable {options : Registry} {id : OptionId} {x : Occurrence} {left others : List Occurrence}

theorem mem_optionIds {i : OptionId} : i ∈ optionIds left ↔ ∃ v, .option i v ∈ left := by
  unfold optionIds
  rw [List.mem_filterMap]
  constructor
  · rintro ⟨x, hx, hid⟩
    cases x with
    | argument name v => cases hid
    | command name v => cases hid
    | option j v =>
      obtain rfl := Option.some.inj hid
      exact ⟨v, hx⟩
  · rintro ⟨v, hx⟩
    exact ⟨.option i v, hx, rfl⟩

theorem texts_cons_argument {name : Option String} {v : Value} {s : String}
    (h : v.text? = some s) (l : List Occurrence) :
    texts (.argument name v :: l) = s :: texts l :=
  List.filterMap_cons_some (show text? (.argument name v) = some s from h)

/-- Occurrences that are given and are neither texts nor options do not exist. -/
theorem eq_nil_of_given (hgiven : ∀ x ∈ left, x.isGiven = true) (htexts : texts left = [])
    (hids : optionIds left = []) : left = [] := by
  cases left with
  | nil => rfl
  | cons x left =>
    have hx := hgiven x List.mem_cons_self
    cases x with
    | argument name v =>
      obtain ⟨s, hs⟩ := Option.isSome_iff_exists.1 hx
      rw [texts_cons_argument hs] at htexts
      cases htexts
    | command name v => cases hx
    | option id v => cases hids

theorem given_of_taken {p : Occurrence → Bool} (hgiven : ∀ x ∈ left, x.isGiven = true)
    (h : Matching.takeFirst? p left = some (x, others)) : ∀ y ∈ others, y.isGiven = true :=
  fun y hy => hgiven y ((Matching.perm_of_takeFirst? h).mem_iff.2 (List.mem_cons_of_mem x hy))

theorem taken_positional (hgiven : ∀ x ∈ left, x.isGiven = true)
    (h : Matching.takeFirst? isArgument left = some (x, others)) :
    ∃ text, x.value.text? = some text ∧ texts left = text :: texts others ∧
      (optionIds left).Perm (optionIds others) := by
  have hperm := Matching.perm_of_takeFirst? h
  have hx : isArgument x = true := by
    obtain ⟨front, back, -, -, hx, -⟩ := Matching.takeFirst?_eq_some_iff.1 h
    exact hx
  obtain ⟨name, v, rfl⟩ := isArgument_iff.1 hx
  obtain ⟨text, htext⟩ := Option.isSome_iff_exists.1
    (hgiven _ (hperm.mem_iff.2 List.mem_cons_self))
  refine ⟨text, htext, ?_, hperm.filterMap optionId?⟩
  rw [← texts_filter_isArgument, Matching.filter_eq_of_takeFirst? h, texts_cons_argument htext,
    texts_filter_isArgument]

theorem taken_option (h : Matching.takeFirst? (isOption options id) left = some (x, others)) :
    ∃ other, options.sameIdentity id other = true ∧ texts left = texts others ∧
      (optionIds left).Perm (other :: optionIds others) := by
  obtain ⟨front, back, rfl, rfl, hx, -⟩ := Matching.takeFirst?_eq_some_iff.1 h
  obtain ⟨other, v, rfl, hsame⟩ := isOption_iff.1 hx
  refine ⟨other, hsame, ?_, ?_⟩
  · rw [texts_append, texts_append]
    rfl
  · unfold optionIds
    rw [List.filterMap_append, List.filterMap_append]
    exact List.perm_middle

theorem missing_positional (h : Matching.takeFirst? isArgument left = none) : texts left = [] := by
  rw [← texts_filter_isArgument, Matching.takeFirst?_eq_none_iff.1 h]
  rfl

theorem missing_option (h : Matching.takeFirst? (isOption options id) left = none) :
    ∀ i ∈ optionIds left, options.sameIdentity id i = false := by
  intro i hi
  obtain ⟨v, hx⟩ := mem_optionIds.1 hi
  have hne := List.filter_eq_nil_iff.1 (Matching.takeFirst?_eq_none_iff.1 h) _ hx
  exact Bool.eq_false_iff.2 hne

end Occurrence

namespace Matching

open Occurrence

variable {options : Registry}

theorem left_repeatWhile_argument (name : String) (v : Value) {rounds : Nat} {s : State}
    (h : s.left.length < rounds) :
    (repeatWhile (matchPattern? options (.leaf (.argument name v))) rounds s).left =
      s.left.filter fun x => !x.isArgument := by
  induction rounds generalizing s with
  | zero => exact absurd h (Nat.not_lt_zero _)
  | succ rounds ih =>
    rw [repeatWhile]
    cases htake : takeFirst? isArgument s.left with
    | none =>
      have hround : matchPattern? options (.leaf (.argument name v)) s = none :=
        matchSlot?_of_missing _ htake
      rw [hround]
      have hnone := List.filter_eq_nil_iff.1 (takeFirst?_eq_none_iff.1 htake)
      exact (List.filter_eq_self.2 fun x hx => by simpa using hnone x hx).symm
    | some found =>
      obtain ⟨x, others⟩ := found
      have hround : matchPattern? options (.leaf (.argument name v)) s = some ⟨others, _⟩ :=
        matchSlot?_of_taken _ htake
      have hlength : s.left.length = others.length + 1 :=
        (perm_of_takeFirst? htake).length_eq
      obtain ⟨front, back, hleft, rfl, hx, -⟩ := takeFirst?_eq_some_iff.1 htake
      rw [hround]
      dsimp only
      rw [if_pos (by omega), ih (by dsimp only; omega), hleft]
      simp [hx]

theorem fits_iff_admitsText {slot : Slot} (hslot : slot.optionId? = none) {x : Occurrence}
    {text : String} (htext : x.value.text? = some text) :
    slot.fits x = true ↔ slot.AdmitsText text := by
  cases slot with
  | argument name v => simp [Slot.fits, Slot.AdmitsText]
  | command name v => simp [Slot.fits, Slot.AdmitsText, htext]
  | option id => cases hslot

theorem lane_of_positional {slot : Slot} (hslot : slot.optionId? = none) :
    slot.lane = .positional := by
  cases slot with
  | argument name v => rfl
  | command name v => rfl
  | option id => cases hslot

/-- The rest of a plain line, from some part on, matches completely iff it accepts. -/
def Exact (options : Registry) (l : PlainLine) : Prop :=
  ∀ s : State, (∀ x ∈ s.left, x.isGiven = true) →
    ((whole? (matchAll? options l.children s)).isSome = true ↔
      l.Accepts options (texts s.left) (optionIds s.left))

variable {parts : List PlainPart} {last : Option (String × Value)}

theorem isSome_whole?_iff {t : State} : (whole? (some t)).isSome = true ↔ t.left = [] := by
  rw [Option.isSome_iff_exists]
  simp [whole?_eq_some_iff]

theorem exact_nil (last : Option (String × Value)) : Exact options ⟨[], last⟩ := by
  intro s hgiven
  rw [PlainLine.Accepts.nil_iff]
  cases last with
  | none =>
    change (whole? (some s)).isSome = true ↔ _
    rw [isSome_whole?_iff]
    constructor
    · intro hnil
      rw [hnil]
      exact ⟨fun _ => rfl, rfl⟩
    · rintro ⟨htexts, hids⟩
      exact eq_nil_of_given hgiven (htexts rfl) hids
  | some repeated =>
    obtain ⟨name, v⟩ := repeated
    change (whole? (some _)).isSome = true ↔ _
    rw [isSome_whole?_iff, left_repeatWhile_argument name v (Nat.lt_succ_self _),
      List.filter_eq_nil_iff]
    constructor
    · intro harguments
      refine ⟨(nomatch ·), List.eq_nil_iff_forall_not_mem.2 fun i hi => ?_⟩
      obtain ⟨w, hx⟩ := mem_optionIds.1 hi
      exact harguments _ hx rfl
    · rintro ⟨-, hids⟩ x hx
      cases x with
      | argument name v => exact Bool.false_ne_true
      | command name v => cases hgiven _ hx
      | option i v =>
        have hmem := mem_optionIds.2 ⟨v, hx⟩
        rw [hids] at hmem
        exact absurd hmem List.not_mem_nil

theorem exact_positional {slot : Slot} (hslot : slot.optionId? = none)
    (ih : Exact options ⟨parts, last⟩) : Exact options ⟨.slot slot :: parts, last⟩ := by
  intro s hgiven
  have hlane : slot.lane.has options = isArgument := by rw [lane_of_positional hslot]; rfl
  change (whole? (matchAll? options (.leaf slot :: PlainLine.children ⟨parts, last⟩) s)).isSome =
    true ↔ _
  rw [matchAll?_cons, PlainLine.Accepts.slot_iff hslot]
  change (whole? ((matchSlot? options slot s).bind _)).isSome = true ↔ _
  cases htake : takeFirst? isArgument s.left with
  | none =>
    rw [matchSlot?_of_missing slot (hlane ▸ htake), missing_positional htake]
    simp [whole?]
  | some found =>
    obtain ⟨x, others⟩ := found
    obtain ⟨text, htext, htexts, hids⟩ := taken_positional hgiven htake
    rw [matchSlot?_of_taken slot (hlane ▸ htake), htexts]
    by_cases hfits : slot.fits x = true
    · rw [if_pos hfits, Option.bind_some, ih _ (given_of_taken hgiven htake)]
      constructor
      · intro haccepts
        exact ⟨text, _, rfl, (fits_iff_admitsText hslot htext).1 hfits, haccepts.perm hids.symm⟩
      · rintro ⟨_, _, heq, -, haccepts⟩
        obtain ⟨rfl, rfl⟩ := List.cons.inj heq
        exact haccepts.perm hids
    · rw [if_neg hfits, Option.bind_none]
      constructor
      · intro hsome
        cases hsome
      · rintro ⟨_, _, heq, hadmits, -⟩
        obtain ⟨rfl, -⟩ := List.cons.inj heq
        exact absurd ((fits_iff_admitsText hslot htext).2 hadmits) hfits

/-- An option that is taken counts for the line with its slot, and for none of the rest. -/
theorem accepts_taken_option {l m : PlainLine} {id : OptionId} {left others : List Occurrence}
    {x : Occurrence} (hpositionals : l.positionals = m.positionals) (hlast : l.last = m.last)
    (hids : l.optionIds = id :: m.optionIds)
    (hdemanded : l.demanded = m.demanded ∨ l.demanded = id :: m.demanded)
    (hdistinct : l.Distinct options)
    (htake : takeFirst? (isOption options id) left = some (x, others)) :
    l.Accepts options (texts left) (optionIds left) ↔
      m.Accepts options (texts others) (optionIds others) := by
  obtain ⟨other, hsame, htexts, hperm⟩ := taken_option htake
  rw [htexts, PlainLine.Accepts.perm_iff hperm]
  exact PlainLine.Accepts.pick_iff hpositionals hlast hids hdemanded hdistinct hsame

theorem exact_option {id : OptionId}
    (hdistinct : PlainLine.Distinct options ⟨.slot (.option id) :: parts, last⟩)
    (ih : Exact options ⟨parts, last⟩) : Exact options ⟨.slot (.option id) :: parts, last⟩ := by
  intro s hgiven
  change (whole? (matchAll? options (.leaf (.option id) :: PlainLine.children ⟨parts, last⟩)
    s)).isSome = true ↔ _
  rw [matchAll?_cons]
  change (whole? ((matchSlot? options (.option id) s).bind _)).isSome = true ↔ _
  cases htake : takeFirst? (isOption options id) s.left with
  | none =>
    rw [matchSlot?_of_missing (.option id) htake]
    constructor
    · intro hsome
      cases hsome
    · intro haccepts
      exact absurd haccepts (PlainLine.Accepts.not_of_missing (missing_option htake))
  | some found =>
    obtain ⟨x, others⟩ := found
    have hpick : PlainLine.Accepts options ⟨.slot (.option id) :: parts, last⟩ _ _ ↔
        PlainLine.Accepts options ⟨parts, last⟩ _ _ :=
      accepts_taken_option rfl rfl rfl (.inr rfl) hdistinct htake
    rw [matchSlot?_of_taken (.option id) htake, hpick]
    exact ih _ (given_of_taken hgiven htake)

theorem exact_group {ids : List OptionId}
    (hdistinct : PlainLine.Distinct options ⟨.group ids :: parts, last⟩)
    (ih : Exact options ⟨parts, last⟩) : Exact options ⟨.group ids :: parts, last⟩ := by
  induction ids with
  | nil =>
    intro s hgiven
    rw [PlainLine.Accepts.group_nil_iff]
    exact ih s hgiven
  | cons id ids ihids =>
    intro s hgiven
    have hrest : Exact options ⟨.group ids :: parts, last⟩ :=
      ihids (List.pairwise_cons.1 hdistinct).2
    change (whole? (matchAll? options (PlainLine.children ⟨.group ids :: parts, last⟩)
      ((matchSlot? options (.option id) s).getD s))).isSome = true ↔ _
    cases htake : takeFirst? (isOption options id) s.left with
    | none =>
      rw [matchSlot?_of_missing (.option id) htake,
        PlainLine.Accepts.skip_iff (missing_option htake)]
      exact hrest s hgiven
    | some found =>
      obtain ⟨x, others⟩ := found
      have hpick : PlainLine.Accepts options ⟨.group (id :: ids) :: parts, last⟩ _ _ ↔
          PlainLine.Accepts options ⟨.group ids :: parts, last⟩ _ _ :=
        accepts_taken_option rfl rfl rfl (.inl rfl) hdistinct htake
      rw [matchSlot?_of_taken (.option id) htake, hpick]
      exact hrest _ (given_of_taken hgiven htake)

/-- No part of a plain line takes what a later part needs. -/
theorem exact_of_distinct {l : PlainLine} (hdistinct : l.Distinct options) : Exact options l := by
  obtain ⟨parts, last⟩ := l
  induction parts with
  | nil => exact exact_nil last
  | cons part parts ih =>
    have hrest : PlainLine.Distinct options ⟨parts, last⟩ := by
      unfold PlainLine.Distinct PlainLine.optionIds at hdistinct
      rw [List.flatMap_cons] at hdistinct
      exact (List.pairwise_append.1 hdistinct).2.1
    cases part with
    | group ids => exact exact_group hdistinct (ih hrest)
    | slot slot =>
      cases slot with
      | argument name v => exact exact_positional rfl (ih hrest)
      | command name v => exact exact_positional rfl (ih hrest)
      | option id => exact exact_option hdistinct (ih hrest)

theorem isComplete_run_plain {l : PlainLine} {arguments : List Occurrence}
    (hdistinct : l.Distinct options) (hgiven : ∀ x ∈ arguments, x.isGiven = true) :
    (run options l.tree arguments).isComplete = true ↔
      l.Accepts options (texts arguments) (optionIds arguments) := by
  rw [run, isComplete_resultOf]
  exact exact_of_distinct hdistinct ⟨arguments, []⟩ hgiven

/-- A choice of plain lines matches completely iff one of them accepts, and the first one that
accepts gives the result. -/
theorem run_plain_lines {lines : List PlainLine} {arguments : List Occurrence}
    (hdistinct : ∀ l ∈ lines, l.Distinct options) (hgiven : ∀ x ∈ arguments, x.isGiven = true) :
    ((run options (.required [.either (lines.map PlainLine.tree)]) arguments).isComplete = true ↔
      ∃ l ∈ lines, l.Accepts options (texts arguments) (optionIds arguments)) ∧
    ∀ front l back, lines = front ++ l :: back →
      (∀ k ∈ front, ¬ k.Accepts options (texts arguments) (optionIds arguments)) →
      l.Accepts options (texts arguments) (optionIds arguments) →
      (run options (.required [.either (lines.map PlainLine.tree)]) arguments).collected =
        (run options l.tree arguments).collected := by
  constructor
  · rw [isComplete_run_either]
    constructor
    · rintro ⟨p, hp, hcomplete⟩
      obtain ⟨l, hl, rfl⟩ := List.mem_map.1 hp
      exact ⟨l, hl, (isComplete_run_plain (hdistinct l hl) hgiven).1 hcomplete⟩
    · rintro ⟨l, hl, haccepts⟩
      exact ⟨l.tree, List.mem_map_of_mem hl,
        (isComplete_run_plain (hdistinct l hl) hgiven).2 haccepts⟩
  · rintro front l back rfl hfront haccepts
    obtain ⟨hdistinctFront, hdistinct⟩ := List.forall_mem_append.1 hdistinct
    rw [List.map_append, List.map_cons, run_either_of_first]
    · intro p hp
      obtain ⟨k, hk, rfl⟩ := List.mem_map.1 hp
      rw [Bool.eq_false_iff]
      intro hcomplete
      exact hfront k hk ((isComplete_run_plain (hdistinctFront k hk) hgiven).1 hcomplete)
    · exact (isComplete_run_plain (hdistinct l List.mem_cons_self) hgiven).2 haccepts

/-- The first line accepts too few options and the second one leaves nothing, nor does the third. -/
theorem run_plain_lines_second :
    let options : Registry :=
      { entries := [.ofNames (some "-a") none 0, .ofNames (some "-o") (some "--out") 1] }
    let first : PlainLine :=
      ⟨[.slot (.command "go" (.flag false)), .group [0]], some ("X", .absent)⟩
    let second : PlainLine :=
      ⟨[.slot (.argument "X" .absent), .slot (.option 1), .group [0]], some ("Y", .items [])⟩
    let third : PlainLine := ⟨[.group [0, 1]], some ("Z", .items [])⟩
    let choice := Pattern.required [.either ([first, second, third].map PlainLine.tree)]
    let arguments := [.option 1 (.text "f"), .positional "go", .positional "b",
      .option 0 (.flag true), .positional "c"]
    (∀ l ∈ [first, second, third], l.Distinct options) ∧ (∀ x ∈ arguments, x.isGiven = true) ∧
      (run options choice arguments).isComplete = true ∧
      (run options choice arguments).collected = (run options second.tree arguments).collected := by
  intro options first second third choice arguments
  have hdistinct : ∀ l ∈ [first, second, third], l.Distinct options := by decide
  have hgiven : ∀ x ∈ arguments, x.isGiven = true := by decide
  have hfirst : ¬ first.Accepts options (texts arguments) (optionIds arguments) := by
    intro haccepts
    have hknown := haccepts.known 1 (by decide)
    revert hknown
    decide
  have hsecond : second.Accepts options (texts arguments) (optionIds arguments) :=
    ⟨⟨["go"], ["b", "c"], rfl, .cons trivial .nil, (nomatch ·)⟩, by decide, by decide, by decide⟩
  obtain ⟨hcomplete, hcollected⟩ := run_plain_lines hdistinct hgiven
  refine ⟨hdistinct, hgiven, hcomplete.2 ⟨second, by simp, hsecond⟩, ?_⟩
  exact hcollected [first] second [third] rfl
    (fun k hk => List.mem_singleton.1 hk ▸ hfirst) hsecond

end Matching

end Synopsis
