import Mathlib.Data.List.Dedup
import Synopsis.Proofs.Application.Outcome
import Synopsis.Proofs.Matching.Acceptance

/-!
# The words of arguments and commands

Every positional goes to one argument or one command, and each of these has its positionals in
order. So the positionals are an interleaving of what the values of the arguments and commands
say has been taken: the texts of an argument, and the word of a command as often as it was given.
-/

namespace Synopsis

def SlotKey.isPositional : SlotKey → Bool
  | argument _ => true
  | command _ => true
  | option _ => false

/-- The positionals that an argument or a command with this value has taken. -/
def SlotKey.texts? : SlotKey → Value → Option (List String)
  | argument _, .absent => some []
  | argument _, .text s => some [s]
  | argument _, .items l => some l
  | command name, .flag on => some (if on then [name] else [])
  | command name, .count n => some (List.replicate n name)
  | _, _ => none

/-- The positionals that the final value of an argument or a command says it has taken. -/
def Bindings.texts? (b : Bindings) : SlotKey → Option (List String)
  | .argument name => (b.get? name).bind (SlotKey.argument name).texts?
  | .command name => (b.get? name).bind (SlotKey.command name).texts?
  | .option _ => none

def Pattern.positionals (p : Pattern) : List SlotKey :=
  ((p.slots.map Slot.key).filter SlotKey.isPositional).dedup

namespace Matching

variable {options : Registry} {p : Pattern} {arguments collected : List Occurrence}
  {ks : List Taking} {slot : Slot}

def Taking.tag? (k : Taking) : Option (SlotKey × String) :=
  k.given.text?.map fun text => (k.slot.key, text)

def textsTaken (key : SlotKey) (ks : List Taking) : List String :=
  ((ks.filterMap Taking.tag?).filter (·.1 = key)).map Prod.snd

theorem exists_of_mem_textsTaken {key : SlotKey} {text : String} (h : text ∈ textsTaken key ks) :
    ∃ k ∈ ks, k.slot.key = key ∧ k.given.text? = some text := by
  obtain ⟨t, ht, rfl⟩ := List.mem_map.1 h
  obtain ⟨ht, hkey⟩ := List.mem_filter.1 ht
  obtain ⟨k, hk, htag⟩ := List.mem_filterMap.1 ht
  obtain ⟨text, htext, rfl⟩ := Option.map_eq_some_iff.1 htag
  exact ⟨k, hk, of_decide_eq_true hkey, htext⟩

theorem history_eq_map_textsTaken (hkey : ∀ k ∈ ks, k.slot.key = slot.key → k.slot = slot)
    (hgiven : ∀ k ∈ ks, k.slot = slot → ∃ s, k.given = .positional s) :
    history slot ks =
      (textsTaken slot.key ks).map fun s => (slot.bound (.positional s)).value := by
  induction ks with
  | nil => rfl
  | cons k ks ih =>
    obtain ⟨hkeyk, hkey⟩ := List.forall_mem_cons.1 hkey
    obtain ⟨hgivenk, hgiven⟩ := List.forall_mem_cons.1 hgiven
    have hih := ih hkey hgiven
    by_cases hslot : k.slot = slot
    · obtain ⟨s, hs⟩ := hgivenk hslot
      have htag : k.tag? = some (slot.key, s) := by rw [Taking.tag?, hs, hslot]; rfl
      have htexts : textsTaken slot.key (k :: ks) = s :: textsTaken slot.key ks := by
        simp [textsTaken, htag]
      have hvalue : k.value = (slot.bound (.positional s)).value := by rw [Taking.value, hs, hslot]
      rw [htexts, List.map_cons, ← hih, ← hvalue]
      simp [history, hslot]
    · have htexts : textsTaken slot.key (k :: ks) = textsTaken slot.key ks := by
        have hne : k.slot.key ≠ slot.key := fun heq => hslot (hkeyk heq)
        unfold textsTaken Taking.tag?
        cases htext : k.given.text? <;> simp [htext, hne]
      rw [htexts, ← hih]
      simp [history, hslot]

theorem map_snd_tag? (ks : List Taking) :
    (ks.filterMap Taking.tag?).map Prod.snd = Occurrence.texts (ks.map Taking.given) := by
  unfold Occurrence.texts
  rw [List.map_filterMap, List.filterMap_map]
  refine List.filterMap_congr fun k _ => ?_
  rw [Taking.tag?, Option.map_map]
  exact Option.map_id'

theorem Settles.texts_eq (h : Settles options p arguments ks collected) :
    Occurrence.texts (ks.map Taking.given) = Occurrence.texts arguments := by
  have hlane : (ks.map Taking.given).filter Occurrence.isArgument =
      arguments.filter Occurrence.isArgument := h.lanes .positional
  rw [← Occurrence.texts_filter_isArgument, hlane, Occurrence.texts_filter_isArgument]

theorem Settles.key_mem_positionals (h : Settles options p arguments ks collected) :
    ∀ t ∈ ks.filterMap Taking.tag?, t.1 ∈ p.positionals := by
  intro t ht
  obtain ⟨k, hk, htag⟩ := List.mem_filterMap.1 ht
  obtain ⟨text, htext, rfl⟩ := Option.map_eq_some_iff.1 htag
  rw [Pattern.positionals, List.mem_dedup, List.mem_filter]
  refine ⟨List.mem_map_of_mem (h.slots k hk), ?_⟩
  have hlane := (h.fits k hk).lane
  cases hslot : k.slot with
  | argument name v => rfl
  | command name v => rfl
  | option id =>
    rw [hslot] at hlane
    obtain ⟨other, v, hgiven, -⟩ := Occurrence.isOption_iff.1 hlane
    rw [hgiven] at htext
    cases htext

/-- The texts are interleaved from what the arguments and commands have taken. -/
theorem Settles.interleaving (h : Settles options p arguments ks collected) :
    Interleaving (p.positionals.map fun key => textsTaken key ks) (Occurrence.texts arguments) := by
  rw [← h.texts_eq, ← map_snd_tag?]
  exact .of_tags (List.nodup_dedup _) h.key_mem_positionals

theorem Settles.eq_of_mem_textsTaken (h : Settles options p arguments ks collected)
    {name text : String} (htext : text ∈ textsTaken (.command name) ks) : text = name := by
  obtain ⟨⟨other, x⟩, hk, hkey, hx⟩ := exists_of_mem_textsTaken htext
  have hfits := (h.fits _ hk).slot
  cases other with
  | argument name' v => cases hkey
  | option id => cases hkey
  | command name' v =>
    obtain rfl := SlotKey.command.inj hkey
    cases x with
    | argument given w => exact Option.some.inj (hx.symm.trans (of_decide_eq_true hfits))
    | command given w => cases hx
    | option other w => cases hx

end Matching

theorem texts?_argument {name : String} {initial : Value} {texts : List String}
    (hinitial : initial = .absent ∨ initial = .items [])
    (honce : initial.accumulates = false → texts.length ≤ 1) :
    (SlotKey.argument name).texts? (initial.final (texts.map .text)) = some texts := by
  rcases hinitial with rfl | rfl
  · match texts, honce rfl with
    | [], _ => rfl
    | [s], _ => rfl
  · cases texts with
    | nil => rfl
    | cons s texts =>
      have hgather : (((s :: texts).map Value.text).flatMap Value.addition) = s :: texts := by
        rw [List.flatMap_map]
        exact List.flatMap_singleton' _
      exact congrArg some hgather

theorem texts?_command {name : String} {initial : Value} {texts : List String}
    (hinitial : initial = .flag false ∨ initial = .count 0) (hwords : ∀ s ∈ texts, s = name)
    (honce : initial.accumulates = false → texts.length ≤ 1) :
    (SlotKey.command name).texts? (initial.final (texts.map fun _ => .flag true)) =
      some texts := by
  rcases hinitial with rfl | rfl
  · match texts, honce rfl, hwords with
    | [], _, _ => rfl
    | [s], _, hwords => rw [hwords s (List.mem_singleton_self s)]; rfl
  · have hreplicate : List.replicate texts.length name = texts :=
      (List.eq_replicate_of_mem hwords).symm
    cases texts with
    | nil => rfl
    | cons s texts =>
      refine congrArg some (Eq.trans ?_ hreplicate)
      rw [List.length_map]

variable {d : Document} {doc : String} {argv : List String} {config : Config} {options : Registry}
  {b : Bindings} {arguments collected : List Occurrence} {ks : List Matching.Taking} {slot : Slot}

namespace Fulfilled

open Matching

theorem history_eq (h : Fulfilled d options arguments ks collected b)
    (hslot : slot ∈ (d.prepared options).pattern.slots)
    (hpositional : slot.key.isPositional = true) : history slot ks =
      (textsTaken slot.key ks).map fun s => (slot.bound (.positional s)).value := by
  apply history_eq_map_textsTaken
  · intro k hk hkey
    have hname := Slot.name_eq_of_key_eq (d.prepared options).options hkey
    exact h.ready.unique _ (h.settles.slots k hk) _ hslot hname
  · intro k hk heq
    have hlane := (h.settles.fits k hk).lane
    have hresolved := h.resolved _ (h.settles.given k hk)
    rw [heq] at hlane
    cases slot with
    | argument name v => exact hresolved.exists_positional hlane
    | command name v => exact hresolved.exists_positional hlane
    | option id => cases hpositional

theorem texts?_eq (h : Fulfilled d options arguments ks collected b) {key : SlotKey}
    (hkey : key ∈ (d.prepared options).pattern.positionals) :
    b.texts? key = some (textsTaken key ks) := by
  obtain ⟨hkey, hpositional⟩ := List.mem_filter.1 (List.mem_dedup.1 hkey)
  obtain ⟨slot, hslot, rfl⟩ := List.mem_map.1 hkey
  have hfixed := h.fixed slot hslot
  have hhistory := h.history_eq hslot hpositional
  have honce := h.settles.once slot hslot
  have hvalue := h.finishes.value slot hslot
  rw [hhistory, List.length_map] at honce
  rw [hhistory] at hvalue
  cases slot with
  | argument name v =>
    change (b.get? name).bind _ = _
    rw [show b.get? name = _ from hvalue, Option.bind_some]
    exact texts?_argument hfixed honce
  | command name v =>
    change (b.get? name).bind _ = _
    rw [show b.get? name = _ from hvalue, Option.bind_some]
    exact texts?_command hfixed (fun s => h.settles.eq_of_mem_textsTaken) honce
  | option id => cases hpositional

end Fulfilled

/-- Every positional is accounted for by the value of one argument or command, and no name is bound
that the tree does not have. -/
structure PositionalsConserved (d : Document) (options : Registry) (arguments : List Occurrence)
    (b : Bindings) : Prop where
  worded : ∀ x ∈ arguments, x.isArgument = true → ∃ s, x = .positional s
  interleaving : ∃ texts : SlotKey → List String,
    (∀ key ∈ (d.prepared options).pattern.positionals, b.texts? key = some (texts key)) ∧
      Interleaving ((d.prepared options).pattern.positionals.map texts)
        (Occurrence.texts arguments)
  named : ∀ name v, b.get? name = some v → ∃ slot ∈ (d.prepared options).pattern.slots,
    slot.name (d.prepared options).options = name

theorem Fulfilled.positionalsConserved (h : Fulfilled d options arguments ks collected b) :
    PositionalsConserved d options arguments b := by
  refine ⟨fun x hx => (h.resolved x hx).exists_positional, ?_, h.finishes.named⟩
  exact ⟨fun key => Matching.textsTaken key ks, fun key => h.texts?_eq, h.settles.interleaving⟩

/-- Whatever the arguments, if they match then they could be read, and their positionals are an
interleaving of what the values of the arguments and commands of the tree say. -/
theorem positionalsConserved_of_matched (hread : Document.read doc = .ok d)
    (hapart : d.expand.pattern.NamesApart d.options)
    (hmatched : apply doc argv config = .matched b) :
    ∃ arguments options,
      (Occurrence.readArguments config.optionsFirst argv).run d.options = .ok arguments options ∧
        PositionalsConserved d options arguments b := by
  obtain ⟨arguments, options, harguments, ks, collected, h⟩ :=
    exists_fulfilled hread hapart hmatched
  exact ⟨arguments, options, harguments, h.positionalsConserved⟩

/-- Two commands and a list, taken in turns. -/
theorem positionalsConserved_repeated_commands :
    let doc := "Usage: prog [-q] (go <x> | stop)..."
    let argv := ["go", "a", "-q", "stop", "go", "b"]
    let values := [("-q", .flag true), ("<x>", .items ["a", "b"]), ("go", .count 2),
      ("stop", .count 1)]
    ∃ d b, Document.read doc = .ok d ∧ d.expand.pattern.NamesApart d.options ∧
      apply doc argv {} = .matched b ∧ b.toList = values ∧
      ∃ arguments options,
        (Occurrence.readArguments false argv).run d.options = .ok arguments options ∧
          PositionalsConserved d options arguments b := by
  intro doc argv values
  have hdoc : namesApart doc = true := by decide +kernel
  have hvalues : (apply doc argv {}).matched?.map Bindings.toList = some values := by
    decide +kernel
  obtain ⟨d, hread, hapart⟩ := exists_of_namesApart hdoc
  obtain ⟨b, hmatched, hb⟩ := exists_of_matched? hvalues
  exact ⟨d, b, hread, hapart, hmatched, hb, positionalsConserved_of_matched hread hapart hmatched⟩

end Synopsis
