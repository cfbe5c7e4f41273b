import Synopsis.Proofs.Matching.Success
import Synopsis.Proofs.Pattern.Walk

/-!
# A match as a sequence of takings

The occurrences that are left stand in lanes: the positionals are one lane, and the occurrences
of one option, under any reference with its names, are another. A slot looks at one lane only and
takes the first occurrence there.

A trail is a sequence of takings that leads from one state to another. Every successful match
leaves a trail whose slots are a walk through the tree; what was tried and given up leaves
nothing. Along a trail each lane loses its occurrences from the front.
-/

namespace Synopsis

inductive Lane where
  | positional
  | option (id : OptionId)

def Lane.has (options : Registry) : Lane → Occurrence → Bool
  | positional, x => x.isArgument
  | option id, x => x.isOption options id

/-- Two lanes are the same, or they share nothing. -/
theorem Lane.eq_or_disjoint (options : Registry) (l m : Lane) :
    l.has options = m.has options ∨ ∀ x, l.has options x = true → m.has options x = false := by
  cases l with
  | positional =>
    cases m with
    | positional => exact .inl rfl
    | option id =>
      refine .inr fun x hx => ?_
      obtain ⟨name, v, rfl⟩ := Occurrence.isArgument_iff.1 hx
      rfl
  | option i =>
    cases m with
    | positional =>
      refine .inr fun x hx => ?_
      obtain ⟨other, v, rfl, -⟩ := Occurrence.isOption_iff.1 hx
      rfl
    | option j =>
      by_cases hij : options.sameIdentity i j = true
      · have hji : options.sameIdentity j i = true := options.sameIdentity_comm i j ▸ hij
        refine .inl (funext fun x => ?_)
        cases x with
        | option id v =>
          rw [Bool.eq_iff_iff]
          constructor
          · intro h
            exact Registry.sameIdentity_trans hji h
          · intro h
            exact Registry.sameIdentity_trans hij h
        | argument name v => rfl
        | command name v => rfl
      · refine .inr fun x hx => ?_
        obtain ⟨id, v, rfl, hi⟩ := Occurrence.isOption_iff.1 hx
        rw [Bool.eq_false_iff]
        intro hj
        have hid : options.sameIdentity id j = true := options.sameIdentity_comm j id ▸ hj
        exact hij (Registry.sameIdentity_trans hi hid)

namespace Slot

def lane : Slot → Lane
  | argument _ _ => .positional
  | command _ _ => .positional
  | option id => .option id

def fits (x : Occurrence) : Slot → Bool
  | command name _ => x.value.text? = some name
  | _ => true

def bound (x : Occurrence) : Slot → Occurrence
  | argument name _ => .argument (some name) x.value
  | command name _ => .command name (.flag true)
  | option id => .option id x.value

end Slot

namespace Matching

structure Taking where
  slot : Slot
  given : Occurrence

structure Taking.Fits (options : Registry) (k : Taking) : Prop where
  lane : k.slot.lane.has options k.given = true
  slot : k.slot.fits k.given = true

theorem Taking.Fits.exists_option {options : Registry} {k : Taking} {other : OptionId} {v : Value}
    (h : k.Fits options) (hgiven : k.given = .option other v) :
    ∃ id, k.slot = .option id ∧ options.sameIdentity id other = true := by
  have hlane := h.lane
  rw [hgiven] at hlane
  cases hslot : k.slot with
  | argument name w =>
    rw [hslot] at hlane
    cases hlane
  | command name w =>
    rw [hslot] at hlane
    cases hlane
  | option id =>
    rw [hslot] at hlane
    exact ⟨id, rfl, hlane⟩

def Taking.collect (options : Registry) (collected : List Occurrence) (k : Taking) :
    List Occurrence :=
  Matching.collect options (k.slot.initial options) (k.slot.bound k.given) collected

inductive Trail (options : Registry) : List Taking → State → State → Prop
  | nil {s} : Trail options [] s s
  | cons {k front back collected ks t} : k.Fits options →
      (∀ y ∈ front, k.slot.lane.has options y = false) →
      Trail options ks ⟨front ++ back, k.collect options collected⟩ t →
      Trail options (k :: ks) ⟨front ++ k.given :: back, collected⟩ t

variable {options : Registry}

theorem bind?_eq (slot : Slot) (left : List Occurrence) :
    bind? options slot left = (takeFirst? (slot.lane.has options) left).bind fun (x, others) =>
      if slot.fits x then some (slot.bound x, others) else none := by
  cases slot with
  | argument name v =>
    change (takeFirst? Occurrence.isArgument left).map _ =
      (takeFirst? Occurrence.isArgument left).bind _
    rw [Option.map_eq_bind]
    rfl
  | command name v =>
    change (takeFirst? Occurrence.isArgument left).bind _ =
      (takeFirst? Occurrence.isArgument left).bind _
    simp [Slot.fits, Slot.bound]
  | option id =>
    change (takeFirst? (Occurrence.isOption options id) left).map _ =
      (takeFirst? (Occurrence.isOption options id) left).bind _
    rw [Option.map_eq_bind]
    rfl

theorem matchSlot?_of_missing (slot : Slot) {s : State}
    (h : takeFirst? (slot.lane.has options) s.left = none) : matchSlot? options slot s = none := by
  unfold matchSlot?
  rw [bind?_eq, h]
  rfl

theorem matchSlot?_of_taken (slot : Slot) {s : State} {x : Occurrence} {others : List Occurrence}
    (h : takeFirst? (slot.lane.has options) s.left = some (x, others)) :
    matchSlot? options slot s =
      if slot.fits x then some ⟨others, Taking.collect options s.collected ⟨slot, x⟩⟩
      else none := by
  unfold matchSlot?
  rw [bind?_eq, h, Option.bind_some]
  dsimp only
  by_cases hfits : slot.fits x = true
  · rw [if_pos hfits, if_pos hfits]
    rfl
  · rw [if_neg hfits, if_neg hfits]
    rfl

theorem matchSlot?_eq_some_iff {slot : Slot} {s t : State} :
    matchSlot? options slot s = some t ↔
      ∃ x front back, s.left = front ++ x :: back ∧ (∀ y ∈ front, slot.lane.has options y = false) ∧
        Taking.Fits options ⟨slot, x⟩ ∧
        t = ⟨front ++ back, Taking.collect options s.collected ⟨slot, x⟩⟩ := by
  constructor
  · intro h
    cases htake : takeFirst? (slot.lane.has options) s.left with
    | none =>
      rw [matchSlot?_of_missing slot htake] at h
      cases h
    | some found =>
      obtain ⟨x, others⟩ := found
      obtain ⟨front, back, hleft, rfl, hlane, hfront⟩ := takeFirst?_eq_some_iff.1 htake
      rw [matchSlot?_of_taken slot htake, Option.ite_none_right_eq_some] at h
      obtain ⟨hfits, h⟩ := h
      exact ⟨x, front, back, hleft, hfront, ⟨hlane, hfits⟩, (Option.some.inj h).symm⟩
  · rintro ⟨x, front, back, hleft, hfront, hfits, rfl⟩
    have htake : takeFirst? (slot.lane.has options) s.left = some (x, front ++ back) :=
      takeFirst?_eq_some_iff.2 ⟨front, back, hleft, rfl, hfits.lane, hfront⟩
    have hslot : slot.fits x = true := hfits.slot
    rw [matchSlot?_of_taken slot htake, if_pos hslot]

theorem Trail.append {ks ls : List Taking} {s t u : State} (h : Trail options ks s t)
    (h' : Trail options ls t u) : Trail options (ks ++ ls) s u := by
  induction h with
  | nil => exact h'
  | cons hfits hfront _ ih => exact .cons hfits hfront (ih h')

/-- Whenever the pattern matches, it does so along one of its walks. -/
def LeavesTrail (options : Registry) (p : Pattern) : Prop :=
  ∀ s t, matchPattern? options p s = some t →
    ∃ ks, Trail options ks s t ∧ p.Walk (ks.map Taking.slot)

theorem matchSlot?_trail (slot : Slot) : LeavesTrail options (.leaf slot) := by
  intro s t h
  obtain ⟨x, front, back, hleft, hfront, hfits, rfl⟩ := matchSlot?_eq_some_iff.1 h
  obtain ⟨left, collected⟩ := s
  subst hleft
  exact ⟨[⟨slot, x⟩], .cons hfits hfront .nil, .leaf slot⟩

theorem matchAll?_cons (p : Pattern) (ps : List Pattern) (s : State) :
    matchAll? options (p :: ps) s = (matchPattern? options p s).bind (matchAll? options ps) := by
  rw [matchAll?]
  cases matchPattern? options p s <;> rfl

theorem matchAll?_trail {ps : List Pattern} (ih : ∀ p ∈ ps, LeavesTrail options p) :
    LeavesTrail options (.required ps) := by
  intro s t h
  change matchAll? options ps s = some t at h
  induction ps generalizing s with
  | nil =>
    cases h
    exact ⟨[], .nil, .required_nil⟩
  | cons p ps ihps =>
    obtain ⟨hp, hps⟩ := List.forall_mem_cons.1 ih
    rw [matchAll?_cons, Option.bind_eq_some_iff] at h
    obtain ⟨u, hu, ht⟩ := h
    obtain ⟨ks, htrail, hwalk⟩ := hp s u hu
    obtain ⟨ls, htrail', hwalk'⟩ := ihps hps u ht
    refine ⟨ks ++ ls, htrail.append htrail', ?_⟩
    rw [List.map_append]
    exact .required_cons hwalk hwalk'

theorem matchAny_trail {ps : List Pattern} (ih : ∀ p ∈ ps, LeavesTrail options p) :
    LeavesTrail options (.optional ps) := by
  intro s t h
  obtain rfl : matchAny options ps s = t := Option.some.inj h
  clear h
  induction ps generalizing s with
  | nil => exact ⟨[], .nil, .optional_nil⟩
  | cons p ps ihps =>
    obtain ⟨hp, hps⟩ := List.forall_mem_cons.1 ih
    rw [matchAny]
    cases hm : matchPattern? options p s with
    | none =>
      obtain ⟨ks, htrail, hwalk⟩ := ihps hps s
      exact ⟨ks, htrail, .optional_skip hwalk⟩
    | some u =>
      obtain ⟨ks, htrail, hwalk⟩ := hp s u hm
      obtain ⟨ls, htrail', hwalk'⟩ := ihps hps u
      refine ⟨ks ++ ls, htrail.append htrail', ?_⟩
      rw [List.map_append]
      exact .optional_take hwalk hwalk'

theorem better_eq_or (a b : Option State) : better a b = a ∨ better a b = b := by
  cases a with
  | none => exact .inr rfl
  | some s =>
    cases b with
    | none => exact .inl rfl
    | some t =>
      by_cases h : t.left.length < s.left.length
      · exact .inr (if_pos h)
      · exact .inl (if_neg h)

/-- The outcome of a choice is the outcome of one alternative tried on its own. -/
theorem exists_mem_of_matchBest? {ps : List Pattern} {s t : State}
    (h : matchBest? options ps s = some t) : ∃ p ∈ ps, matchPattern? options p s = some t := by
  induction ps with
  | nil => cases h
  | cons p ps ih =>
    rw [matchBest?] at h
    rcases better_eq_or (matchPattern? options p s) (matchBest? options ps s) with hb | hb
    · exact ⟨p, List.mem_cons_self, hb ▸ h⟩
    · obtain ⟨q, hq, hm⟩ := ih (hb ▸ h)
      exact ⟨q, List.mem_cons_of_mem p hq, hm⟩

theorem repeatWhile_trail {p : Pattern} (ih : LeavesTrail options p) (rounds : Nat) (s : State) :
    ∃ ks, Trail options ks s (repeatWhile (matchPattern? options p) rounds s) ∧
      (Pattern.oneOrMore p).Walk (ks.map Taking.slot) := by
  induction rounds generalizing s with
  | zero => exact ⟨[], .nil, .oneOrMore_nil⟩
  | succ rounds ihrounds =>
    cases hm : matchPattern? options p s with
    | none =>
      rw [repeatWhile_of_none hm]
      exact ⟨[], .nil, .oneOrMore_nil⟩
    | some u =>
      obtain ⟨ks, htrail, hwalk⟩ := ih s u hm
      by_cases hlt : u.left.length < s.left.length
      · obtain ⟨ls, htrail', hwalk'⟩ := ihrounds u
        rw [repeatWhile_of_lt hm hlt]
        refine ⟨ks ++ ls, htrail.append htrail', ?_⟩
        rw [List.map_append]
        exact .oneOrMore_cons hwalk hwalk'
      · rw [repeatWhile_of_not_lt hm hlt]
        refine ⟨ks ++ [], by rwa [List.append_nil], ?_⟩
        rw [List.map_append]
        exact .oneOrMore_cons hwalk .oneOrMore_nil

theorem matchPattern?_trail (p : Pattern) : LeavesTrail options p := by
  induction p with
  | leaf slot => exact matchSlot?_trail slot
  | required ps ih => exact matchAll?_trail ih
  | optional ps ih => exact matchAny_trail ih
  | either ps ih =>
    intro s t h
    obtain ⟨p, hp, hm⟩ := exists_mem_of_matchBest? h
    obtain ⟨ks, htrail, hwalk⟩ := ih p hp s t hm
    exact ⟨ks, htrail, .either hp hwalk⟩
  | oneOrMore p ih =>
    intro s t h
    obtain rfl := Option.some.inj h
    exact repeatWhile_trail ih (s.left.length + 1) s
  | shortcut =>
    intro s t h
    obtain rfl := Option.some.inj h
    exact ⟨[], .nil, .shortcut⟩

namespace Trail

theorem fits {ks : List Taking} {s t : State} (h : Trail options ks s t) :
    ∀ k ∈ ks, k.Fits options := by
  induction h with
  | nil => simp
  | cons hfits _ _ ih => exact List.forall_mem_cons.2 ⟨hfits, ih⟩

theorem given_mem {ks : List Taking} {s t : State} (h : Trail options ks s t) :
    ∀ k ∈ ks, k.given ∈ s.left := by
  induction h with
  | nil => simp
  | cons _ _ _ ih =>
    refine List.forall_mem_cons.2 ⟨List.mem_append_right _ List.mem_cons_self, fun l hl => ?_⟩
    rcases List.mem_append.1 (ih l hl) with hfront | hback
    · exact List.mem_append_left _ hfront
    · exact List.mem_append_right _ (List.mem_cons_of_mem _ hback)

/-- What stood in a lane is what was taken from it, in this order, and then what is left. -/
theorem lane {ks : List Taking} {s t : State} (h : Trail options ks s t) (m : Lane) :
    s.left.filter (m.has options) =
      (ks.map Taking.given).filter (m.has options) ++ t.left.filter (m.has options) := by
  induction h with
  | nil => rfl
  | @cons k front back collected ks t hfits hfront _ ih =>
    simp only [List.filter_append, List.map_cons] at ih ⊢
    rcases Lane.eq_or_disjoint options k.slot.lane m with heq | hdisjoint
    · have hempty : front.filter (m.has options) = [] :=
        List.filter_eq_nil_iff.2 fun y hy => by simp [← heq, hfront y hy]
      have hgiven : m.has options k.given = true := heq ▸ hfits.lane
      rw [hempty, List.nil_append] at ih ⊢
      rw [List.filter_cons_of_pos hgiven, List.filter_cons_of_pos hgiven, ih, List.cons_append]
    · have hgiven : ¬ m.has options k.given = true := by
        rw [hdisjoint _ hfits.lane]
        exact Bool.false_ne_true
      rw [List.filter_cons_of_neg hgiven, List.filter_cons_of_neg hgiven, ih]

theorem collected {ks : List Taking} {s t : State} (h : Trail options ks s t) :
    t.collected = ks.foldl (Taking.collect options) s.collected := by
  induction h with
  | nil => rfl
  | cons _ _ _ ih => exact ih

end Trail

end Matching

end Synopsis
