import Synopsis.Proofs.Usage.NormalForm
import Synopsis.Proofs.Usage.Spelling

/-!
# Writing usage trees down

A tree is written as its grammar has it: slots as they are spelled, groups in brackets, repetitions
with an ellipsis behind one atom, and the alternatives of a choice with bars between them, where an
alternative that requires several patterns needs no brackets of its own. Every tree in normal form
whose slots have names that can be written is written by some tokens, and whatever tokens write a
tree, reading them gives this tree back and adds nothing to the registry.
-/

namespace Synopsis

open Pattern

namespace Usage

/-- What the sequences of an expression are in a group: one sequence itself, several a choice. -/
inductive Expresses : List Pattern → List (List Pattern) → List Pattern → Prop
  | sequence (ps : List Pattern) : Expresses ps [] ps
  | choice {first : List Pattern} {others : List (List Pattern)} : others ≠ [] →
      (∀ ps ∈ first :: others, ps ≠ []) →
      ((first :: others).map group).Pairwise (fun p q => alike p q = false) →
      Expresses first others [.either ((first :: others).map group)]

inductive Writes (options : Registry) :
    List Pattern → List (List Pattern) → List String → Prop
  | nil : Writes options [] [] []
  | bar {ps others ts} : Writes options ps others ts →
      Writes options [] (ps :: others) ("|" :: ts)
  | leaf {slot ps others us ts} : slot.Spelled options us → Writes options ps others ts →
      Writes options (.leaf slot :: ps) others (us ++ ts)
  | shortcut {ps others ts} : Writes options ps others ts →
      Writes options (.shortcut :: ps) others ("options" :: ts)
  | bracket {b inner alternatives qs ps others us ts} : Writes options inner alternatives us →
      Expresses inner alternatives qs → Writes options ps others ts →
      Writes options (.ofBracket b qs :: ps) others (b.opening :: (us ++ b.closing :: ts))
  | oneOrMore {p others us ts} : p.isOneOrMore = false → Writes options [p] [] us →
      Writes options [] others ts → Writes options [.oneOrMore p] others (us ++ "..." :: ts)

end Usage

def Pattern.WrittenAs (options : Registry) (p : Pattern) (ts : List String) : Prop :=
  ∃ first others ps, Usage.Writes options first others ts ∧ Usage.Expresses first others ps ∧
    p = .required ps

namespace Usage

variable {options : Registry} {p : Pattern} {ps qs first : List Pattern}
  {others : List (List Pattern)} {ts : List String}

theorem whole_opening (b : Bracket) : Whole b.opening.toList := by
  cases b <;> exact .grouping rfl

theorem whole_closing (b : Bracket) : Whole b.closing.toList := by
  cases b <;> exact .grouping rfl

theorem plainWord_options : PlainWord "options".toList :=
  plainWord_of_all (by decide)

theorem Writes.whole (h : Writes options first others ts) : ∀ t ∈ ts, Whole t.toList := by
  induction h with
  | nil => exact fun t ht => absurd ht List.not_mem_nil
  | bar _ ih => exact List.forall_mem_cons.2 ⟨.grouping rfl, ih⟩
  | leaf hslot _ ih => exact List.forall_mem_append.2 ⟨hslot.whole, ih⟩
  | shortcut _ ih => exact List.forall_mem_cons.2 ⟨.word (by decide) plainWord_options, ih⟩
  | bracket _ _ _ hinner ih =>
    exact List.forall_mem_cons.2 ⟨whole_opening _,
      List.forall_mem_append.2 ⟨hinner, List.forall_mem_cons.2 ⟨whole_closing _, ih⟩⟩⟩
  | oneOrMore _ _ _ hchild ih =>
    exact List.forall_mem_append.2 ⟨hchild, List.forall_mem_cons.2 ⟨.ellipsis, ih⟩⟩

namespace Frame

def put (f : Frame) : Pattern → Frame
  | .oneOrMore p => (f.add [p]).repeatAtom
  | p => f.add [p]

def putAll (f : Frame) (ps : List Pattern) : Frame :=
  ps.foldl put f

def extend (f : Frame) (first : List Pattern) (others : List (List Pattern)) : Frame :=
  others.foldl (fun f ps => f.next.putAll ps) (f.putAll first)

variable {f : Frame}

theorem put_of_not_oneOrMore (h : p.isOneOrMore = false) : f.put p = f.add [p] := by
  cases p with
  | oneOrMore p => cases h
  | _ => rfl

theorem all_put (f : Frame) (p : Pattern) : (f.put p).all = f.sequences ++ [f.sequence ++ [p]] := by
  cases p with
  | oneOrMore p => simp [put, all, add, repeatAtom, sequence, Pattern.group]
  | _ => rfl

theorem all_putAll (f : Frame) (ps : List Pattern) :
    (f.putAll ps).all = f.sequences ++ [f.sequence ++ ps] := by
  induction ps generalizing f with
  | nil => simp [putAll, all]
  | cons p ps ih =>
    have hput := List.append_inj' (all_put f p) rfl
    have hsequence : (f.put p).sequence = f.sequence ++ [p] := List.cons.inj hput.2 |>.1
    change ((f.put p).putAll ps).all = _
    rw [ih, hput.1, hsequence, List.append_assoc, List.singleton_append]

theorem all_extend (f : Frame) (first : List Pattern) (others : List (List Pattern)) :
    (f.extend first others).all = f.sequences ++ (f.sequence ++ first) :: others := by
  induction others generalizing f first with
  | nil => exact all_putAll f first
  | cons ps others ih =>
    have hfirst := all_putAll f first
    change ((f.putAll first).next.extend ps others).all = _
    rw [ih]
    change (f.putAll first).all ++ ps :: others = _
    rw [hfirst, List.append_assoc, List.singleton_append]

theorem content_of_all (h : f.all = first :: others) :
    f.content = if others = [] then first else Pattern.choice (first :: others) := by
  unfold content
  cases hsequences : f.sequences with
  | nil =>
    rw [all, hsequences] at h
    obtain ⟨rfl, rfl⟩ := List.cons.inj h
    rfl
  | cons ps sequences =>
    rw [all, hsequences] at h
    obtain ⟨rfl, rfl⟩ := List.cons.inj h
    have hne : sequences ++ [f.sequence] ≠ [] := by simp
    exact (if_neg hne).symm

end Frame

theorem Expresses.content_eq (h : Expresses first others ps) :
    (Frame.extend {} first others).content = ps := by
  rw [Frame.content_of_all (Frame.all_extend {} first others)]
  change (if others = [] then first else Pattern.choice (first :: others)) = ps
  cases h with
  | sequence => rfl
  | choice hothers hne hunlike =>
    have hfilter : (first :: others).filter (!·.isEmpty) = first :: others :=
      List.filter_eq_self.2 fun qs hqs => by simpa using hne qs hqs
    rw [if_neg hothers, Pattern.choice, hfilter, distinct_of_pairwise hunlike]
    cases others with
    | nil => exact absurd rfl hothers
    | cons second others => rfl

/-- Reading what writes an expression adds its sequences. Where a sequence has ended, the next bar
comes first. -/
theorem Writes.run_read (h : Writes options first others ts) :
    ∀ (outer : List (Bracket × Frame)) (f : Frame) (rest : List String),
      (first ≠ [] → f.ended = false) →
      (Reader.read (ts ++ rest) { outer, frame := f }).run options =
        (Reader.read rest { outer, frame := f.extend first others }).run options := by
  induction h with
  | nil => exact fun _ _ _ _ => rfl
  | bar _ ih =>
    intro outer f rest _
    exact Reader.run_read_bar.trans (ih outer f.next rest fun _ => rfl)
  | leaf hslot _ ih =>
    intro outer f rest hended
    have hopen := hended (List.cons_ne_nil _ _)
    rw [List.append_assoc]
    exact (hslot.run_read rfl hopen).trans (ih outer _ rest fun _ => hopen)
  | shortcut _ ih =>
    intro outer f rest hended
    have hopen := hended (List.cons_ne_nil _ _)
    exact (Reader.run_read_shortcut hopen).trans (ih outer _ rest fun _ => hopen)
  | @bracket b inner alternatives qs ps others us ts _ hcontent _ hinner ih =>
    intro outer f rest hended
    have hopen := hended (List.cons_ne_nil _ _)
    have hput : f.put (.ofBracket b qs) = f.add [.ofBracket b qs] := by cases b <;> rfl
    rw [List.cons_append, List.append_assoc, List.cons_append]
    refine (Reader.run_read_opening b hopen).trans ?_
    refine (hinner ((b, f) :: outer) {} _ fun _ => rfl).trans ?_
    refine (Reader.run_read_closing b).trans ?_
    rw [hcontent.content_eq, ← hput]
    refine (ih outer _ rest fun _ => ?_).trans rfl
    rw [hput]
    exact hopen
  | @oneOrMore p others us ts hatom _ _ hchild ih =>
    intro outer f rest hended
    have hopen := hended (List.cons_ne_nil _ _)
    rw [List.append_assoc, List.cons_append]
    refine (hchild outer f _ fun _ => hopen).trans ?_
    have hput : f.extend [p] [] = f.add [p] := Frame.put_of_not_oneOrMore hatom
    have hadded : (f.add [p]).ended = false := hopen
    rw [hput]
    refine (Reader.run_read_ellipsis hadded (List.cons_ne_nil p [])).trans ?_
    exact ih outer _ rest fun hne => absurd rfl hne

theorem run_readPattern_of_writtenAs {source : String} (h : p.WrittenAs options (tokens source)) :
    (readPattern source).run options = .ok p options := by
  obtain ⟨first, others, ps, hwrites, hcontent, rfl⟩ := h
  have hread := hwrites.run_read [] {} [] fun _ => rfl
  rw [List.append_nil] at hread
  have hfinish : (Reader.read [] { frame := Frame.extend {} first others }).run options =
      .ok ps options := by
    rw [Reader.read, Reader.finish, hcontent.content_eq]
    rfl
  rw [readPattern, EStateM.run_bind, hread, hfinish]
  rfl

/-- How a pattern can be written where the grammar has a place for it. -/
structure HasWriting (options : Registry) (p : Pattern) : Prop where
  atom : p.isEither = false → p.isOneOrMore = false →
    ∃ us, ∀ ps others ts, Writes options ps others ts → Writes options (p :: ps) others (us ++ ts)
  last : p.isEither = false →
    ∃ us, ∀ others ts, Writes options [] others ts → Writes options [p] others (us ++ ts)
  content : p.isEither = true →
    ∃ first others ts, Writes options first others ts ∧ Expresses first others [p]

namespace HasWriting

theorem of_atom (heither : p.isEither = false) (us : List String)
    (h : ∀ ps others ts, Writes options ps others ts →
      Writes options (p :: ps) others (us ++ ts)) : HasWriting options p :=
  ⟨fun _ _ => ⟨us, h⟩, fun _ => ⟨us, h []⟩,
    fun htrue => Bool.noConfusion (heither.symm.trans htrue)⟩

theorem leaf {slot : Slot} (h : slot.Printable options) : HasWriting options (.leaf slot) := by
  obtain ⟨us, hus⟩ := h.exists_spelled
  exact of_atom rfl us fun _ _ _ => .leaf hus

theorem shortcut : HasWriting options .shortcut :=
  of_atom rfl ["options"] fun _ _ _ => .shortcut

theorem oneOrMore (heither : p.isEither = false) (hatom : p.isOneOrMore = false)
    (h : HasWriting options p) : HasWriting options (.oneOrMore p) := by
  obtain ⟨us, hus⟩ := h.atom heither hatom
  refine ⟨fun _ hnot => Bool.noConfusion hnot, fun _ => ⟨us ++ ["..."], fun others ts hts => ?_⟩,
    fun htrue => Bool.noConfusion htrue⟩
  have hchild := hus [] [] [] .nil
  rw [List.append_nil] at hchild
  rw [List.append_assoc]
  exact .oneOrMore hatom hchild hts

theorem exists_alternatives {alternatives : List Pattern}
    (heither : ∀ p ∈ alternatives, p.isEither = false)
    (h : ∀ p ∈ alternatives, HasWriting options p) :
    ∃ ts, Writes options [] (alternatives.map fun p => [p]) ts := by
  induction alternatives with
  | nil => exact ⟨[], .nil⟩
  | cons p alternatives ih =>
    obtain ⟨hp, halternatives⟩ := List.forall_mem_cons.1 h
    obtain ⟨hnot, hothers⟩ := List.forall_mem_cons.1 heither
    obtain ⟨ts, hts⟩ := ih hothers halternatives
    obtain ⟨us, hus⟩ := hp.last hnot
    exact ⟨"|" :: (us ++ ts), .bar (hus _ _ hts)⟩

theorem either (hlength : 2 ≤ ps.length) (hunlike : ps.Pairwise (fun p q => alike p q = false))
    (heither : ∀ p ∈ ps, p.isEither = false) (h : ∀ p ∈ ps, HasWriting options p) :
    HasWriting options (.either ps) := by
  refine ⟨fun hnot => Bool.noConfusion hnot, fun hnot => Bool.noConfusion hnot, fun _ => ?_⟩
  match ps with
  | p :: q :: rest =>
    obtain ⟨hp, hothers⟩ := List.forall_mem_cons.1 h
    obtain ⟨hnot, heither⟩ := List.forall_mem_cons.1 heither
    obtain ⟨ts, hts⟩ := exists_alternatives heither hothers
    obtain ⟨us, hus⟩ := hp.last hnot
    have hgroup : ([p] :: (q :: rest).map fun p => [p]).map group = p :: q :: rest := by
      simp [group, Function.comp_def]
    refine ⟨[p], (q :: rest).map fun p => [p], us ++ ts, hus _ _ hts, ?_⟩
    have hexpresses : Expresses [p] ((q :: rest).map fun p => [p])
        [.either (([p] :: (q :: rest).map fun p => [p]).map group)] :=
      .choice (by simp) (by simp) (by rwa [hgroup])
    rwa [hgroup] at hexpresses

theorem exists_sequence (heither : ∀ p ∈ ps, p.isEither = false)
    (hrepetition : ∀ p ∈ ps.dropLast, p.isOneOrMore = false)
    (h : ∀ p ∈ ps, HasWriting options p) : ∃ ts, Writes options ps [] ts := by
  induction ps with
  | nil => exact ⟨[], .nil⟩
  | cons p ps ih =>
    obtain ⟨hp, hps⟩ := List.forall_mem_cons.1 h
    obtain ⟨hnot, heither⟩ := List.forall_mem_cons.1 heither
    cases ps with
    | nil =>
      obtain ⟨us, hus⟩ := hp.last hnot
      exact ⟨us ++ [], hus [] [] .nil⟩
    | cons q ps =>
      rw [List.dropLast_cons_cons] at hrepetition
      obtain ⟨hatom, hrepetition⟩ := List.forall_mem_cons.1 hrepetition
      obtain ⟨ts, hts⟩ := ih heither hrepetition hps
      obtain ⟨us, hus⟩ := hp.atom hnot hatom
      exact ⟨us ++ ts, hus _ _ _ hts⟩

theorem exists_content (hcontent : IsContent ps) (h : ∀ p ∈ ps, HasWriting options p) :
    ∃ first others ts, Writes options first others ts ∧ Expresses first others ps := by
  by_cases hchoice : ∃ p ∈ ps, p.isEither = true
  · obtain ⟨p, hp, heither⟩ := hchoice
    obtain rfl := hcontent.choice p hp heither
    exact (h p hp).content heither
  · have heither : ∀ p ∈ ps, p.isEither = false := fun p hp =>
      Bool.eq_false_iff.2 fun htrue => hchoice ⟨p, hp, htrue⟩
    obtain ⟨ts, hts⟩ := exists_sequence heither hcontent.repetition h
    exact ⟨ps, [], ts, hts, .sequence ps⟩

theorem bracket (b : Bracket) (hcontent : IsContent ps) (h : ∀ p ∈ ps, HasWriting options p) :
    HasWriting options (.ofBracket b ps) := by
  obtain ⟨first, others, us, hwrites, hexpresses⟩ := exists_content hcontent h
  have heither : (Pattern.ofBracket b ps).isEither = false := by cases b <;> rfl
  refine of_atom heither (b.opening :: (us ++ [b.closing])) fun qs others' ts hts => ?_
  have hbracket := Writes.bracket hwrites hexpresses hts (b := b)
  simpa using hbracket

theorem of_isNormal (hp : p.IsNormal) (hslots : ∀ slot ∈ p.slots, slot.Printable options) :
    HasWriting options p := by
  have all {ps : List Pattern} (hslots : ∀ slot ∈ slotsAll ps, slot.Printable options)
      (ih : ∀ p ∈ ps, (∀ slot ∈ p.slots, slot.Printable options) → HasWriting options p) :
      ∀ p ∈ ps, HasWriting options p := by
    refine fun p hp => ih p hp fun slot hslot => hslots slot ?_
    rw [slotsAll_eq_flatMap]
    exact List.mem_flatMap.2 ⟨p, hp, hslot⟩
  induction hp with
  | argument name => exact leaf (hslots _ (List.mem_singleton_self _))
  | command name => exact leaf (hslots _ (List.mem_singleton_self _))
  | option id => exact leaf (hslots _ (List.mem_singleton_self _))
  | required hcontent _ ih => exact bracket .round hcontent (all hslots ih)
  | optional hcontent _ ih => exact bracket .square hcontent (all hslots ih)
  | either hlength hunlike heither _ ih => exact either hlength hunlike heither (all hslots ih)
  | oneOrMore heither hatom _ ih => exact oneOrMore heither hatom (ih hslots)
  | shortcut => exact shortcut

end HasWriting

theorem exists_writtenAs (hp : p.IsNormal) (hroot : ∃ ps, p = .required ps)
    (hslots : ∀ slot ∈ p.slots, slot.Printable options) : ∃ ts, p.WrittenAs options ts := by
  obtain ⟨ps, rfl⟩ := hroot
  cases hp with
  | required hcontent hnormal =>
    have h : ∀ p ∈ ps, HasWriting options p := by
      intro p hp
      refine .of_isNormal (hnormal p hp) fun slot hslot => hslots slot ?_
      simp only [slots, slotsAll_eq_flatMap]
      exact List.mem_flatMap.2 ⟨p, hp, hslot⟩
    obtain ⟨first, others, ts, hwrites, hexpresses⟩ := HasWriting.exists_content hcontent h
    exact ⟨ts, first, others, ps, hwrites, hexpresses, rfl⟩

/-- What is read is in normal form. Conversely, a tree in normal form over slots with proper names
can be written, with single spaces between the tokens or in any other way that keeps them apart,
and is read back from whatever writes it. -/
theorem readPattern_normal_roundtrip :
    (∀ (source : String) (r s : Registry) (p : Pattern),
      (readPattern source).run r = .ok p s → p.IsNormal ∧ ∃ ps, p = .required ps) ∧
    ∀ (options : Registry) (p : Pattern), p.IsNormal → (∃ ps, p = .required ps) →
      (∀ slot ∈ p.slots, slot.Printable options) →
      (∃ ts, p.WrittenAs options ts) ∧ ∀ ts, p.WrittenAs options ts →
        tokens (" ".intercalate ts) = ts ∧
          ∀ source, tokens source = ts → (readPattern source).run options = .ok p options := by
  refine ⟨fun source r s p => isNormal_of_readPattern, fun options p hp hroot hslots => ?_⟩
  refine ⟨exists_writtenAs hp hroot hslots, fun ts hts => ⟨?_, ?_⟩⟩
  · obtain ⟨first, others, ps, hwrites, -⟩ := hts
    exact tokens_intercalate hwrites.whole
  · rintro source rfl
    exact run_readPattern_of_writtenAs hts

/-- A repetition in an alternative without brackets, and an option with its value. -/
theorem readPattern_normal_roundtrip_choice :
    let options := Registry.ofDocumented [.ofNames none (some "--out") 1]
    let p := Pattern.required [.either [.required [.command "go", .oneOrMore (.argument "FILE")],
      .optional [.option 0]]]
    let ts := ["go", "FILE", "...", "|", "[", "--out=V", "]"]
    p.IsNormal ∧ p.WrittenAs options ts ∧ tokens (" ".intercalate ts) = ts ∧
      (readPattern (" ".intercalate ts)).run options = .ok p options := by
  intro options p ts
  have hgo : IsCommandWord "go" :=
    ⟨by decide, by decide, by decide +kernel, by decide, plainWord_of_all (by decide)⟩
  have hfile : IsArgumentWord "FILE" :=
    .upper (by decide +kernel) (by decide) (plainWord_of_all (by decide))
  have hprints : options.Prints 0 ('-' :: '-' :: ['o', 'u', 't']) :=
    .long (by decide) (by decide) (plainWord_of_all (by decide)) (by decide)
  have hnormal : p.IsNormal := by
    refine .required ⟨fun q hq _ => List.mem_singleton.1 hq ▸ rfl, by simp⟩
      (List.forall_mem_singleton.2 (.either (by decide) (by decide) (by decide) ?_))
    refine List.forall_mem_cons.2 ⟨?_, List.forall_mem_singleton.2 ?_⟩
    · refine .required ⟨by simp [isEither, Pattern.command], by decide⟩ ?_
      exact List.forall_mem_cons.2 ⟨.command "go", List.forall_mem_singleton.2
        (.oneOrMore rfl rfl (.argument "FILE"))⟩
    · exact .optional ⟨by simp [isEither, Pattern.option], by simp⟩
        (List.forall_mem_singleton.2 (.option 0))
  have hslots : ∀ slot ∈ p.slots, slot.Printable options :=
    List.forall_mem_cons.2 ⟨.command hgo, List.forall_mem_cons.2 ⟨.argument hfile,
      List.forall_mem_singleton.2 (.option hprints)⟩⟩
  have hvalue : Whole ('-' :: '-' :: (['o', 'u', 't'] ++ '=' :: ['V'])) :=
    .word (by decide) (plainWord_of_all (by decide))
  have hout : Writes options [.option 0] [] ["--out=V"] :=
    .leaf (.equals hprints (by decide) hvalue) .nil
  have hoptional : Writes options [.ofBracket .square [.option 0]] [] ["[", "--out=V", "]"] :=
    .bracket hout (.sequence _) .nil
  have hsequences : Writes options [.command "go", .oneOrMore (.argument "FILE")]
      [[.ofBracket .square [.option 0]]] ts :=
    .leaf (.command hgo) (.oneOrMore rfl (.leaf (.argument hfile) .nil) (.bar hoptional))
  have hwritten : p.WrittenAs options ts :=
    ⟨_, _, _, hsequences, .choice (by decide) (by simp) (by decide), rfl⟩
  obtain ⟨-, hback⟩ := readPattern_normal_roundtrip.2 options p hnormal ⟨_, rfl⟩ hslots
  obtain ⟨htokens, hread⟩ := hback ts hwritten
  have hfound := hread (" ".intercalate ts) htokens
  exact ⟨(readPattern_normal_roundtrip.1 _ _ _ _ hfound).1, hwritten, htokens, hfound⟩

end Usage

end Synopsis
