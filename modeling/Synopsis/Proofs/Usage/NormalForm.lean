import Synopsis.Proofs.Usage.Reader

/-!
# The normal form of usage trees

In a tree that has been read, choices and repetitions stand only where the grammar has a place for
them. A choice is all there is in its group, has at least two alternatives that are not alike, and
none of them is itself a choice. A repetition ends its group and repeats one atom. No slot has a
default of its own.

A sequence that is still open has no choice in it, and no repetition unless an ellipsis has ended
it: this is what every move of the reader keeps.
-/

namespace Synopsis

namespace Pattern

variable {options : Registry} {p : Pattern} {ps : List Pattern}

def isEither : Pattern → Bool
  | either _ => true
  | _ => false

def isOneOrMore : Pattern → Bool
  | oneOrMore _ => true
  | _ => false

/-- What can stand in a group: a choice alone, and a repetition at the end. -/
structure IsContent (ps : List Pattern) : Prop where
  choice : ∀ p ∈ ps, p.isEither = true → ps = [p]
  repetition : ∀ p ∈ ps.dropLast, p.isOneOrMore = false

inductive IsNormal : Pattern → Prop
  | argument (name : String) : IsNormal (argument name)
  | command (name : String) : IsNormal (command name)
  | option (id : OptionId) : IsNormal (option id)
  | required {ps : List Pattern} : IsContent ps → (∀ p ∈ ps, IsNormal p) → IsNormal (required ps)
  | optional {ps : List Pattern} : IsContent ps → (∀ p ∈ ps, IsNormal p) → IsNormal (optional ps)
  | either {ps : List Pattern} : 2 ≤ ps.length → ps.Pairwise (fun p q => alike p q = false) →
      (∀ p ∈ ps, p.isEither = false) → (∀ p ∈ ps, IsNormal p) → IsNormal (either ps)
  | oneOrMore {p : Pattern} : p.isEither = false → p.isOneOrMore = false → IsNormal p →
      IsNormal (oneOrMore p)
  | shortcut : IsNormal shortcut

structure IsSequence (ps : List Pattern) : Prop where
  choice : ∀ p ∈ ps, p.isEither = false
  repetition : ∀ p ∈ ps.dropLast, p.isOneOrMore = false
  normal : ∀ p ∈ ps, p.IsNormal

namespace IsSequence

theorem isContent (h : IsSequence ps) : IsContent ps :=
  ⟨fun p hp heither => Bool.noConfusion ((h.choice p hp).symm.trans heither), h.repetition⟩

theorem isNormal_group (h : IsSequence ps) : (group ps).IsNormal := by
  unfold group
  split
  · exact h.normal _ List.mem_cons_self
  · exact .required h.isContent h.normal

theorem isEither_group (h : IsSequence ps) : (group ps).isEither = false := by
  unfold group
  split
  · exact h.choice _ List.mem_cons_self
  · rfl

end IsSequence

theorem isContent_choice {sequences : List (List Pattern)}
    (h : ∀ ps ∈ sequences, IsSequence ps) :
    IsContent (choice sequences) ∧ ∀ p ∈ choice sequences, p.IsNormal := by
  have hpairwise := pairwise_distinct ((sequences.filter (!·.isEmpty)).map group)
  have hdistinct : ∀ p ∈ distinct ((sequences.filter (!·.isEmpty)).map group),
      p.IsNormal ∧ p.isEither = false := by
    intro p hp
    obtain ⟨ps, hps, rfl⟩ := List.mem_map.1 (distinct_subset _ hp)
    have hsequence := h ps (List.mem_filter.1 hps).1
    exact ⟨hsequence.isNormal_group, hsequence.isEither_group⟩
  unfold choice
  generalize distinct ((sequences.filter (!·.isEmpty)).map group) = alternatives at *
  match alternatives with
  | [] => exact ⟨⟨by simp, by simp⟩, by simp⟩
  | [p] =>
    obtain ⟨hnormal, -⟩ := hdistinct p List.mem_cons_self
    exact ⟨⟨fun q hq _ => List.mem_singleton.1 hq ▸ rfl, by simp⟩,
      List.forall_mem_singleton.2 hnormal⟩
  | p :: q :: rest =>
    have heither : IsNormal (either (p :: q :: rest)) :=
      .either (Nat.le_add_left 2 rest.length) hpairwise (fun a ha => (hdistinct a ha).2)
        fun a ha => (hdistinct a ha).1
    exact ⟨⟨fun a ha _ => List.mem_singleton.1 ha ▸ rfl, by simp⟩,
      List.forall_mem_singleton.2 heither⟩

structure IsAtom (p : Pattern) : Prop where
  choice : p.isEither = false
  repetition : p.isOneOrMore = false
  normal : p.IsNormal

theorem IsAtom.ofBracket (b : Bracket) (hcontent : IsContent ps) (h : ∀ p ∈ ps, p.IsNormal) :
    (Pattern.ofBracket b ps).IsAtom := by
  cases b with
  | round => exact ⟨rfl, rfl, .required hcontent h⟩
  | square => exact ⟨rfl, rfl, .optional hcontent h⟩

theorem isSequence_of_atoms (h : ∀ p ∈ ps, p.IsAtom) : IsSequence ps :=
  ⟨fun p hp => (h p hp).choice, fun p hp => (h p (List.dropLast_subset _ hp)).repetition,
    fun p hp => (h p hp).normal⟩

theorem isAtom_group (h : ∀ p ∈ ps, p.IsAtom) : (group ps).IsAtom := by
  have hsequence := isSequence_of_atoms h
  refine ⟨hsequence.isEither_group, ?_, hsequence.isNormal_group⟩
  unfold group
  split
  · exact (h _ List.mem_cons_self).repetition
  · rfl

theorem IsPart.isAtom (h : p.IsPart options) : p.IsAtom := by
  cases h with
  | @leaf slot hslot =>
    cases slot with
    | argument name v =>
      obtain rfl : v = .absent := hslot
      exact ⟨rfl, rfl, .argument name⟩
    | command name v =>
      obtain rfl : v = .flag false := hslot
      exact ⟨rfl, rfl, .command name⟩
    | option id => exact ⟨rfl, rfl, .option id⟩
  | shortcut => exact ⟨rfl, rfl, .shortcut⟩

end Pattern

namespace Usage

open Pattern

variable {r s : Registry}

def Frame.all (f : Frame) : List (List Pattern) :=
  f.sequences ++ [f.sequence]

structure Frame.Normal (f : Frame) : Prop where
  sequences : ∀ ps ∈ f.sequences, IsSequence ps
  sequence : IsSequence f.sequence
  atom : ∀ p ∈ f.atom, p.IsAtom
  /-- A repetition has ended its sequence. -/
  unended : f.ended = false → ∀ p ∈ f.sequence, p.isOneOrMore = false

namespace Frame.Normal

variable {f : Frame}

theorem empty : Frame.Normal {} :=
  ⟨by simp, ⟨by simp [Frame.sequence], by simp [Frame.sequence], by simp [Frame.sequence]⟩,
    by simp, by simp [Frame.sequence]⟩

theorem add {atom : List Pattern} (h : f.Normal) (hended : f.ended = false)
    (hatom : ∀ p ∈ atom, p.IsAtom) : (f.add atom).Normal := by
  have hopen : ∀ p ∈ f.sequence ++ atom, p.isOneOrMore = false :=
    List.forall_mem_append.2 ⟨h.unended hended, fun p hp => (hatom p hp).repetition⟩
  refine ⟨h.sequences, ⟨?_, fun p hp => hopen p (List.dropLast_subset _ hp), ?_⟩, hatom,
    fun _ => hopen⟩
  · exact List.forall_mem_append.2 ⟨h.sequence.choice, fun p hp => (hatom p hp).choice⟩
  · exact List.forall_mem_append.2 ⟨h.sequence.normal, fun p hp => (hatom p hp).normal⟩

theorem repeatAtom (h : f.Normal) (hended : f.ended = false) : f.repeatAtom.Normal := by
  have hgroup := isAtom_group h.atom
  have hrepeated : IsNormal (.oneOrMore (.group f.atom)) :=
    .oneOrMore hgroup.choice hgroup.repetition hgroup.normal
  have hsequence : f.repeatAtom.sequence = f.front ++ [.oneOrMore (.group f.atom)] :=
    List.append_nil _
  refine ⟨h.sequences, ?_, by simp [Frame.repeatAtom], by simp [Frame.repeatAtom]⟩
  rw [hsequence]
  obtain ⟨hchoice, -⟩ := List.forall_mem_append.1 h.sequence.choice
  obtain ⟨hnormal, -⟩ := List.forall_mem_append.1 h.sequence.normal
  obtain ⟨hopen, -⟩ := List.forall_mem_append.1 (h.unended hended)
  refine ⟨?_, ?_, ?_⟩
  · exact List.forall_mem_append.2 ⟨hchoice, List.forall_mem_singleton.2 rfl⟩
  · rw [List.dropLast_concat]
    exact hopen
  · exact List.forall_mem_append.2 ⟨hnormal, List.forall_mem_singleton.2 hrepeated⟩

theorem all_sequences (h : f.Normal) : ∀ ps ∈ f.all, IsSequence ps :=
  List.forall_mem_append.2 ⟨h.sequences, List.forall_mem_singleton.2 h.sequence⟩

theorem next (h : f.Normal) : f.next.Normal :=
  ⟨h.all_sequences, empty.sequence, empty.atom, empty.unended⟩

theorem content (h : f.Normal) : IsContent f.content ∧ ∀ p ∈ f.content, p.IsNormal := by
  unfold Frame.content
  by_cases hsequences : f.sequences.isEmpty = true
  · rw [if_pos hsequences]
    exact ⟨h.sequence.isContent, h.sequence.normal⟩
  · rw [if_neg hsequences]
    exact isContent_choice h.all_sequences

end Frame.Normal

structure Reader.Normal (reader : Reader) : Prop where
  frame : reader.frame.Normal
  outer : ∀ x ∈ reader.outer, x.2.Normal ∧ x.2.ended = false

theorem Reader.Normal.moves {reader next : Reader} (h : reader.Normal)
    (hmoves : Moves r reader s next) : next.Normal := by
  cases hmoves with
  | bar => exact ⟨h.frame.next, h.outer⟩
  | closing houter =>
    have hall := h.outer
    rw [houter] at hall
    obtain ⟨⟨hf, hended⟩, houter⟩ := List.forall_mem_cons.1 hall
    obtain ⟨hcontent, hnormal⟩ := h.frame.content
    exact ⟨hf.add hended (List.forall_mem_singleton.2 (.ofBracket _ hcontent hnormal)), houter⟩
  | opening b hended => exact ⟨.empty, List.forall_mem_cons.2 ⟨⟨h.frame, hended⟩, h.outer⟩⟩
  | ellipsis hended _ => exact ⟨h.frame.repeatAtom hended, h.outer⟩
  | atom hended _ hparts =>
    exact ⟨h.frame.add hended fun p hp => (hparts p hp).isAtom, h.outer⟩

theorem isNormal_of_readPattern {source : String} {p : Pattern}
    (h : (readPattern source).run r = .ok p s) : p.IsNormal ∧ ∃ ps, p = .required ps := by
  obtain ⟨ps, hread, rfl⟩ := run_readPattern_eq_ok_iff.1 h
  have hstart : Reader.Normal {} := ⟨.empty, by simp⟩
  obtain ⟨last, hlast, rfl⟩ := Reader.Reads.exists_last (I := fun _ => Reader.Normal) hread
    (fun _ _ _ _ hreader => hreader.moves) (fun _ _ hreader => ⟨hreader.frame, hreader.outer⟩)
    hstart
  obtain ⟨hcontent, hnormal⟩ := hlast.frame.content
  exact ⟨.required hcontent hnormal, _, rfl⟩

end Usage

end Synopsis
