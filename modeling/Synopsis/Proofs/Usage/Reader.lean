import Synopsis.Usage.Reader
import Synopsis.Proofs.OptionToken
import Synopsis.Proofs.Pattern.Distinct
import Synopsis.Proofs.Pattern.Readiness

/-!
# What reading a usage pattern does

A token that is read ends a sequence, ends a group, begins a group, repeats the last atom, or is an
atom: a word, or options. A usage can be read exactly if such steps, and values that are passed
over, lead from its first token to the end with no group left open.

Words and options alike add leaves, so there are five ways in which the groups move. What all moves
preserve holds when the tokens are over: whatever stands in the open groups is well formed over the
registry as it is at that time, and the registry only grows. A choice is made of at least two
alternatives, so there is no empty one.
-/

namespace Synopsis

namespace Pattern

variable {options : Registry} {p : Pattern} {ps : List Pattern}

theorem WellFormed.group (h : ∀ p ∈ ps, p.WellFormed options) :
    (Pattern.group ps).WellFormed options := by
  unfold Pattern.group
  split
  · exact h _ List.mem_cons_self
  · exact .required h

theorem WellFormed.choice {sequences : List (List Pattern)}
    (h : ∀ ps ∈ sequences, ∀ p ∈ ps, p.WellFormed options) :
    ∀ p ∈ Pattern.choice sequences, p.WellFormed options := by
  have hdistinct : ∀ p ∈ distinct ((sequences.filter (!·.isEmpty)).map Pattern.group),
      p.WellFormed options := by
    intro p hp
    obtain ⟨ps, hps, rfl⟩ := List.mem_map.1 (distinct_subset _ hp)
    exact .group (h ps (List.mem_filter.1 hps).1)
  unfold Pattern.choice
  split
  · next heq =>
    rw [heq] at hdistinct
    intro p hp
    rw [List.mem_singleton.1 hp]
    exact .either (List.cons_ne_nil _ _) hdistinct
  · exact hdistinct

theorem WellFormed.ofBracket (b : Bracket) (h : ∀ p ∈ ps, p.WellFormed options) :
    (Pattern.ofBracket b ps).WellFormed options := by
  cases b with
  | round => exact .required h
  | square => exact .optional h

/-- What a word stands for, or one of the options in it. -/
inductive IsPart (options : Registry) : Pattern → Prop
  | leaf {slot : Slot} : slot.IsUnset options → IsPart options (leaf slot)
  | shortcut : IsPart options shortcut

theorem IsPart.wellFormed (h : p.IsPart options) : p.WellFormed options := by
  cases h with
  | leaf hslot => exact .leaf hslot
  | shortcut => exact .shortcut

end Pattern

namespace Usage

variable {options r s : Registry}

structure Frame.WellFormed (options : Registry) (f : Frame) : Prop where
  sequences : ∀ ps ∈ f.sequences, ∀ p ∈ ps, p.WellFormed options
  sequence : ∀ p ∈ f.sequence, p.WellFormed options

namespace Frame.WellFormed

variable {f : Frame}

theorem empty : Frame.WellFormed options {} :=
  ⟨by simp, by simp [Frame.sequence]⟩

theorem add {atom : List Pattern} (h : f.WellFormed options)
    (hatom : ∀ p ∈ atom, p.WellFormed options) : (f.add atom).WellFormed options :=
  ⟨h.sequences, List.forall_mem_append.2 ⟨h.sequence, hatom⟩⟩

theorem repeatAtom (h : f.WellFormed options) : f.repeatAtom.WellFormed options := by
  obtain ⟨hfront, hatom⟩ := List.forall_mem_append.1 h.sequence
  have hrepeated : ∀ p ∈ [Pattern.oneOrMore (.group f.atom)], p.WellFormed options :=
    fun p hp => List.mem_singleton.1 hp ▸ .oneOrMore (.group hatom)
  refine ⟨h.sequences, List.forall_mem_append.2 ⟨?_, by simp [Frame.repeatAtom]⟩⟩
  exact List.forall_mem_append.2 ⟨hfront, hrepeated⟩

theorem all_sequences (h : f.WellFormed options) :
    ∀ ps ∈ f.sequences ++ [f.sequence], ∀ p ∈ ps, p.WellFormed options :=
  List.forall_mem_append.2 ⟨h.sequences, fun _ hps => List.mem_singleton.1 hps ▸ h.sequence⟩

theorem next (h : f.WellFormed options) : f.next.WellFormed options :=
  ⟨h.all_sequences, by simp [Frame.next, Frame.sequence]⟩

theorem content (h : f.WellFormed options) : ∀ p ∈ f.content, p.WellFormed options := by
  unfold Frame.content
  by_cases hsequences : f.sequences.isEmpty = true
  · rw [if_pos hsequences]
    exact h.sequence
  · rw [if_neg hsequences]
    exact .choice h.all_sequences

theorem grows {phase : Phase} (h : f.WellFormed r) (hgrows : r.Grows phase s) :
    f.WellFormed s :=
  ⟨fun ps hps p hp => (h.sequences ps hps p hp).grows hgrows,
    fun p hp => (h.sequence p hp).grows hgrows⟩

end Frame.WellFormed

theorem Lexeme.ofToken_opening (b : Bracket) : ofToken b.opening = .opening b := by
  cases b <;> rfl

theorem Lexeme.ofToken_closing (b : Bracket) : ofToken b.closing = .closing b := by
  cases b <;> rfl

def Lexeme.text? : Lexeme → Option String
  | opening b => some b.opening
  | closing b => some b.closing
  | bar => some "|"
  | ellipsis => some "..."
  | shortcut => some "options"
  | _ => none

theorem Lexeme.eq_of_text? {token text : String} (h : (ofToken token).text? = some text) :
    token = text := by
  unfold ofToken at h
  iterate 7
    split at h
    · next heq => exact heq.trans (Option.some.inj h)
  split at h
  · cases h
  · split at h
    · cases h
    · cases h

namespace Reader

variable {reader next : Reader} {token : String} {rest tokens : List String} {ps : List Pattern}

/-- The pattern of a word that stands for itself. At the head of a sequence an ellipsis does. -/
def word? (reader : Reader) (token : String) : Option Pattern :=
  match Lexeme.ofToken token with
  | .shortcut => some .shortcut
  | .argument => some (.argument token)
  | .command => some (.command token)
  | .ellipsis => if reader.frame.atom.isEmpty then some (.command token) else none
  | _ => none

/-- What a token does that can stand where it stands. -/
inductive Steps (r : Registry) (reader : Reader) (token : String) : Registry → Reader → Prop
  | bar : Lexeme.ofToken token = .bar →
      Steps r reader token r { reader with frame := reader.frame.next }
  | closing {b f outer} : Lexeme.ofToken token = .closing b → reader.outer = (b, f) :: outer →
      Steps r reader token r { outer, frame := f.add [.ofBracket b reader.frame.content] }
  | opening {b} : Lexeme.ofToken token = .opening b → reader.frame.ended = false →
      Steps r reader token r { outer := (b, reader.frame) :: reader.outer }
  | ellipsis : Lexeme.ofToken token = .ellipsis → reader.frame.ended = false →
      reader.frame.atom ≠ [] →
      Steps r reader token r { reader with frame := reader.frame.repeatAtom }
  | option {reading s} : Lexeme.ofToken token = .option → reader.frame.ended = false →
      (OptionToken.read .language token).run r = .ok reading s →
      Steps r reader token s
        { reader.add (reading.ids.map .option) with waiting := reading.waiting }
  | word {p} : reader.word? token = some p → reader.frame.ended = false →
      Steps r reader token r (reader.add [p])

theorem step_eq_item (hended : reader.frame.ended = false) {lexeme : Lexeme}
    (hlexeme : Lexeme.ofToken token = lexeme) (hbar : lexeme ≠ .bar)
    (hclosing : ∀ b, lexeme ≠ .closing b) : reader.step token rest = reader.item token lexeme := by
  subst hlexeme
  unfold Reader.step
  split
  · next heq => exact absurd heq hbar
  · next b heq => exact absurd heq (hclosing b)
  · rw [hended]
    rfl

theorem step_eq_stray (hended : reader.frame.ended = true) {lexeme : Lexeme}
    (hlexeme : Lexeme.ofToken token = lexeme) (hbar : lexeme ≠ .bar)
    (hclosing : ∀ b, lexeme ≠ .closing b) :
    reader.step token rest = throw (reader.stray (token :: rest)) := by
  subst hlexeme
  unfold Reader.step
  split
  · next heq => exact absurd heq hbar
  · next b heq => exact absurd heq (hclosing b)
  · exact if_pos hended

theorem exists_outer_of_close? {b : Bracket} (hclose : reader.close? b = some next) :
    ∃ f outer, reader.outer = (b, f) :: outer ∧
      next = { outer, frame := f.add [.ofBracket b reader.frame.content] } := by
  unfold Reader.close? at hclose
  cases houter : reader.outer with
  | nil =>
    rw [houter] at hclose
    cases hclose
  | cons x outer =>
    obtain ⟨opened, f⟩ := x
    simp only [houter] at hclose
    by_cases hb : opened = b
    · obtain rfl := Option.some.inj ((if_pos hb).symm.trans hclose)
      exact ⟨f, outer, hb ▸ rfl, rfl⟩
    · cases (if_neg hb).symm.trans hclose

theorem Steps.of_item {lexeme : Lexeme} (hlexeme : Lexeme.ofToken token = lexeme)
    (hbar : lexeme ≠ .bar) (hclosing : ∀ b, lexeme ≠ .closing b)
    (hended : reader.frame.ended = false)
    (h : (reader.item token lexeme).run r = .ok next s) : Steps r reader token s next := by
  cases lexeme with
  | opening b =>
    obtain ⟨rfl, rfl⟩ := h
    exact .opening hlexeme hended
  | closing b => exact absurd rfl (hclosing b)
  | bar => exact absurd rfl hbar
  | ellipsis =>
    unfold item at h
    by_cases hatom : reader.frame.atom.isEmpty = true
    · simp only [if_pos hatom] at h
      obtain ⟨rfl, rfl⟩ := h
      exact .word (by simp only [word?, hlexeme, if_pos hatom]) hended
    · simp only [if_neg hatom] at h
      obtain ⟨rfl, rfl⟩ := h
      exact .ellipsis hlexeme hended (by simpa using hatom)
  | option =>
    simp only [item, OptionToken.run_bind_eq_ok_iff] at h
    obtain ⟨reading, s', hread, hdone⟩ := h
    obtain ⟨rfl, rfl⟩ := hdone
    exact .option hlexeme hended hread
  | _ =>
    obtain ⟨rfl, rfl⟩ := h
    exact .word (by simp only [word?, hlexeme]) hended

theorem item_of_word? {p : Pattern} (h : reader.word? token = some p) :
    Lexeme.ofToken token ≠ .bar ∧ (∀ b, Lexeme.ofToken token ≠ .closing b) ∧
      reader.item token (Lexeme.ofToken token) = return reader.add [p] := by
  unfold word? at h
  generalize Lexeme.ofToken token = lexeme at h
  cases lexeme with
  | shortcut =>
    obtain rfl := Option.some.inj h
    exact ⟨by simp, by simp, rfl⟩
  | argument =>
    obtain rfl := Option.some.inj h
    exact ⟨by simp, by simp, rfl⟩
  | command =>
    obtain rfl := Option.some.inj h
    exact ⟨by simp, by simp, rfl⟩
  | ellipsis =>
    by_cases hatom : reader.frame.atom.isEmpty = true
    · obtain rfl := Option.some.inj ((if_pos hatom).symm.trans h)
      exact ⟨by simp, by simp, if_pos hatom⟩
    · cases (if_neg hatom).symm.trans h
  | _ => cases h

theorem Steps.run_step (h : Steps r reader token s next) :
    (reader.step token rest).run r = .ok next s := by
  cases h with
  | bar hlexeme =>
    unfold step
    rw [hlexeme]
    rfl
  | closing hlexeme houter =>
    unfold step
    rw [hlexeme]
    simp only [close?, houter, if_true]
    rfl
  | opening hlexeme hended =>
    rw [step_eq_item hended hlexeme (by simp) (by simp)]
    rfl
  | ellipsis hlexeme hended hatom =>
    have hsome : ¬ reader.frame.atom.isEmpty = true := by simpa using hatom
    rw [step_eq_item hended hlexeme (by simp) (by simp)]
    simp only [item, if_neg hsome]
    rfl
  | option hlexeme hended hread =>
    rw [step_eq_item hended hlexeme (by simp) (by simp)]
    simp only [item, EStateM.run_bind, hread]
    rfl
  | word hword hended =>
    obtain ⟨hbar, hclosing, hitem⟩ := item_of_word? hword
    rw [step_eq_item hended rfl hbar hclosing, hitem]
    rfl

theorem run_step_eq_ok_iff :
    (reader.step token rest).run r = .ok next s ↔ Steps r reader token s next := by
  refine ⟨fun h => ?_, Steps.run_step⟩
  unfold step at h
  split at h
  · next hlexeme =>
    obtain ⟨rfl, rfl⟩ := h
    exact .bar hlexeme
  · next b hlexeme =>
    cases hclose : reader.close? b with
    | none =>
      simp only [hclose] at h
      cases h
    | some closed =>
      simp only [hclose] at h
      obtain ⟨rfl, rfl⟩ := h
      obtain ⟨f, outer, houter, rfl⟩ := exists_outer_of_close? hclose
      exact .closing hlexeme houter
  · next hbar hclosing =>
    by_cases hended : reader.frame.ended = true
    · rw [if_pos hended] at h
      cases h
    · rw [if_neg hended] at h
      exact .of_item rfl hbar hclosing (Bool.not_eq_true _ ▸ hended) h

/-- What one token can do to the groups. Nothing follows an ellipsis within its sequence. -/
inductive Moves (r : Registry) (reader : Reader) : Registry → Reader → Prop
  | bar : Moves r reader r { reader with frame := reader.frame.next }
  | closing {b f outer} : reader.outer = (b, f) :: outer →
      Moves r reader r { outer, frame := f.add [.ofBracket b reader.frame.content] }
  | opening (b : Bracket) : reader.frame.ended = false →
      Moves r reader r { outer := (b, reader.frame) :: reader.outer }
  | ellipsis : reader.frame.ended = false → reader.frame.atom ≠ [] →
      Moves r reader r { reader with frame := reader.frame.repeatAtom }
  | atom {s parts waiting} : reader.frame.ended = false → r.Grows .language s →
      (∀ p ∈ parts, p.IsPart s) → Moves r reader s { reader.add parts with waiting }

theorem Moves.word {p : Pattern} (hended : reader.frame.ended = false) (hp : p.IsPart r) :
    Moves r reader r (reader.add [p]) :=
  .atom hended .refl fun _ hq => List.mem_singleton.1 hq ▸ hp

theorem isPart_of_word? {p : Pattern} (h : reader.word? token = some p) : p.IsPart r := by
  unfold word? at h
  split at h
  · obtain rfl := Option.some.inj h
    exact .shortcut
  · obtain rfl := Option.some.inj h
    exact .leaf rfl
  · obtain rfl := Option.some.inj h
    exact .leaf rfl
  · by_cases hatom : reader.frame.atom.isEmpty = true
    · obtain rfl := Option.some.inj ((if_pos hatom).symm.trans h)
      exact .leaf rfl
    · cases (if_neg hatom).symm.trans h
  · cases h

theorem Steps.moves (h : Steps r reader token s next) : Moves r reader s next := by
  cases h with
  | bar _ => exact .bar
  | closing _ houter => exact .closing houter
  | opening _ hended => exact .opening _ hended
  | ellipsis _ hended hatom => exact .ellipsis hended hatom
  | option _ hended hread =>
    obtain ⟨hgrows, hresolved⟩ := OptionToken.read_spec hread
    exact .atom hended hgrows
      (List.forall_mem_map.2 fun id hid => .leaf (hresolved.sole id hid).lt)
  | word hword hended => exact .word hended (isPart_of_word? hword)

/-- A token that is no option either can stand where it stands or is the fault. -/
theorem exists_steps_or_stray (hoption : Lexeme.ofToken token ≠ .option) (r : Registry)
    (rest : List String) : (∃ next, Steps r reader token r next) ∨
      (reader.step token rest).run r = .error (reader.stray (token :: rest)) r := by
  by_cases hbar : Lexeme.ofToken token = .bar
  · exact .inl ⟨_, .bar hbar⟩
  by_cases hclosing : ∃ b, Lexeme.ofToken token = .closing b
  · obtain ⟨b, hlexeme⟩ := hclosing
    cases hclose : reader.close? b with
    | some next =>
      obtain ⟨f, outer, houter, rfl⟩ := exists_outer_of_close? hclose
      exact .inl ⟨_, .closing hlexeme houter⟩
    | none =>
      refine .inr ?_
      unfold step
      rw [hlexeme]
      simp only [hclose]
      rfl
  cases hended : reader.frame.ended with
  | true =>
    rw [step_eq_stray hended rfl hbar fun b hlexeme => hclosing ⟨b, hlexeme⟩]
    exact .inr rfl
  | false =>
    refine .inl ?_
    cases hlexeme : Lexeme.ofToken token with
    | bar => exact absurd hlexeme hbar
    | closing b => exact absurd ⟨b, hlexeme⟩ hclosing
    | option => exact absurd hlexeme hoption
    | opening b => exact ⟨_, .opening hlexeme hended⟩
    | ellipsis =>
      by_cases hatom : reader.frame.atom = []
      · exact ⟨reader.add [.command token], .word (by simp [word?, hlexeme, hatom]) hended⟩
      · exact ⟨_, .ellipsis hlexeme hended hatom⟩
    | shortcut => exact ⟨reader.add [.shortcut], .word (by rw [word?, hlexeme]) hended⟩
    | argument => exact ⟨reader.add [.argument token], .word (by rw [word?, hlexeme]) hended⟩
    | command => exact ⟨reader.add [.command token], .word (by rw [word?, hlexeme]) hended⟩

/-- The tokens can be read from where the reader stands, and this is what they are. -/
inductive Reads : Registry → Reader → List String → List Pattern → Registry → Prop
  | done {r : Registry} {reader : Reader} : reader.waiting = none → reader.outer = [] →
      Reads r reader [] reader.frame.content r
  | value {r s : Registry} {reader : Reader} {w token rest ps} : reader.waiting = some w →
      token ≠ "--" → Reads r { reader with waiting := none } rest ps s →
      Reads r reader (token :: rest) ps s
  | step {r r' s : Registry} {reader next : Reader} {token rest ps} : reader.waiting = none →
      Steps r reader token r' next → Reads r' next rest ps s →
      Reads r reader (token :: rest) ps s

theorem run_read_cons (hwaiting : reader.waiting = none)
    (hstep : (reader.step token rest).run r = .ok next s) :
    (read (token :: rest) reader).run r = (read rest next).run s := by
  rw [read]
  simp only [hwaiting, EStateM.run_bind, hstep]

theorem run_read_value {w : OptionToken.Waiting} (hwaiting : reader.waiting = some w)
    (hvalue : token ≠ "--") :
    (read (token :: rest) reader).run r = (read rest { reader with waiting := none }).run r := by
  rw [read]
  simp only [hwaiting, if_neg hvalue]

theorem run_read_eq_ok_iff :
    (read tokens reader).run r = .ok ps s ↔ Reads r reader tokens ps s := by
  constructor
  · intro h
    induction tokens generalizing reader r with
    | nil =>
      rw [read] at h
      cases hfinish : reader.finish with
      | error fault =>
        simp only [hfinish] at h
        cases h
      | ok content =>
        simp only [hfinish] at h
        obtain ⟨rfl, rfl⟩ := h
        unfold finish at hfinish
        split at hfinish
        · cases hfinish
        · next hwaiting houter =>
          obtain rfl := Except.ok.inj hfinish
          exact .done hwaiting houter
        · cases hfinish
    | cons token rest ih =>
      rw [read] at h
      cases hwaiting : reader.waiting with
      | some w =>
        simp only [hwaiting] at h
        by_cases hdashes : token = "--"
        · rw [if_pos hdashes] at h
          cases h
        · rw [if_neg hdashes] at h
          exact .value hwaiting hdashes (ih h)
      | none =>
        simp only [hwaiting, OptionToken.run_bind_eq_ok_iff] at h
        obtain ⟨next, r', hstep, hrest⟩ := h
        exact .step hwaiting (run_step_eq_ok_iff.1 hstep) (ih hrest)
  · intro h
    induction h with
    | done hwaiting houter =>
      rw [read]
      simp only [finish, hwaiting, houter]
      rfl
    | value hwaiting hdashes _ ih => rw [run_read_value hwaiting hdashes, ih]
    | step hwaiting hstep _ ih => rw [run_read_cons hwaiting hstep.run_step, ih]

/-- What is kept by every move, and when the value of an option is passed over, holds at the end,
where no group is open. -/
theorem Reads.exists_last {I : Registry → Reader → Prop} (hread : Reads r reader tokens ps s)
    (hmoves : ∀ r s reader next, I r reader → Moves r reader s next → I s next)
    (hvalue : ∀ r reader, I r reader → I r { reader with waiting := none }) (h : I r reader) :
    ∃ last : Reader, I s last ∧ last.frame.content = ps := by
  induction hread with
  | done _ _ => exact ⟨_, h, rfl⟩
  | value _ _ _ ih => exact ih (hvalue _ _ h)
  | step _ hstep _ ih => exact ih (hmoves _ _ _ _ h hstep.moves)

theorem grows_item (r : Registry) (lexeme : Lexeme) :
    r.Grows .language (r.after (reader.item token lexeme)) := by
  cases lexeme with
  | option =>
    exact .after_bind (OptionToken.grows_read .language r token) fun _ _ _ => .refl
  | ellipsis =>
    unfold item
    by_cases hatom : reader.frame.atom.isEmpty = true
    · simp only [if_pos hatom]
      exact .refl
    · simp only [if_neg hatom]
      exact .refl
  | _ => exact .refl

theorem grows_step (r : Registry) : r.Grows .language (r.after (reader.step token rest)) := by
  unfold step
  split
  · exact .refl
  · next b _ =>
    cases reader.close? b with
    | some closed => exact .refl
    | none => exact .refl
  · by_cases hended : reader.frame.ended = true
    · rw [if_pos hended]
      exact .refl
    · rw [if_neg hended]
      exact grows_item r _

theorem grows_read (r : Registry) (tokens : List String) (reader : Reader) :
    r.Grows .language (r.after (read tokens reader)) := by
  induction tokens generalizing reader r with
  | nil =>
    rw [read]
    cases reader.finish with
    | ok ps => exact .refl
    | error fault => exact .refl
  | cons token rest ih =>
    rw [read]
    cases reader.waiting with
    | some w =>
      by_cases hdashes : token = "--"
      · simp only [if_pos hdashes]
        exact .refl
      · simp only [if_neg hdashes]
        exact ih r _
    | none => exact .after_bind (grows_step r) fun next s _ => ih s next

theorem Reads.grows (h : Reads r reader tokens ps s) : r.Grows .language s :=
  (grows_read r tokens reader).of_ok (run_read_eq_ok_iff.2 h)

structure WellFormed (options : Registry) (reader : Reader) : Prop where
  frame : reader.frame.WellFormed options
  outer : ∀ x ∈ reader.outer, x.2.WellFormed options

namespace WellFormed

theorem start : WellFormed r {} :=
  ⟨.empty, by simp⟩

theorem grows {phase : Phase} (h : reader.WellFormed r) (hgrows : r.Grows phase s) :
    reader.WellFormed s :=
  ⟨h.frame.grows hgrows, fun x hx => (h.outer x hx).grows hgrows⟩

theorem moves (h : reader.WellFormed r) (hmoves : Moves r reader s next) :
    next.WellFormed s := by
  cases hmoves with
  | bar => exact ⟨h.frame.next, h.outer⟩
  | closing houter =>
    have hall := h.outer
    rw [houter] at hall
    obtain ⟨hf, houter⟩ := List.forall_mem_cons.1 hall
    refine ⟨hf.add fun p hp => ?_, houter⟩
    rw [List.mem_singleton.1 hp]
    exact .ofBracket _ h.frame.content
  | opening b _ => exact ⟨.empty, List.forall_mem_cons.2 ⟨h.frame, h.outer⟩⟩
  | ellipsis _ _ => exact ⟨h.frame.repeatAtom, h.outer⟩
  | atom _ hgrows hparts =>
    have hs := h.grows hgrows
    exact ⟨hs.frame.add fun p hp => (hparts p hp).wellFormed, hs.outer⟩

end WellFormed

variable {outer : List (Bracket × Frame)} {f inner : Frame}

theorem run_read_bar : (read ("|" :: rest) { outer, frame := f }).run r =
    (read rest { outer, frame := f.next }).run r :=
  run_read_cons rfl rfl

theorem run_read_shortcut (hended : f.ended = false) :
    (read ("options" :: rest) { outer, frame := f }).run r =
      (read rest { outer, frame := f.add [.shortcut] }).run r :=
  run_read_cons rfl (Steps.word rfl hended).run_step

theorem run_read_opening (b : Bracket) (hended : f.ended = false) :
    (read (b.opening :: rest) { outer, frame := f }).run r =
      (read rest { outer := (b, f) :: outer }).run r :=
  run_read_cons rfl (Steps.opening (Lexeme.ofToken_opening b) hended).run_step

theorem run_read_closing (b : Bracket) :
    (read (b.closing :: rest) { outer := (b, f) :: outer, frame := inner }).run r =
      (read rest { outer, frame := f.add [.ofBracket b inner.content] }).run r :=
  run_read_cons rfl (Steps.closing (Lexeme.ofToken_closing b) rfl).run_step

theorem run_read_ellipsis (hended : f.ended = false) (hatom : f.atom ≠ []) :
    (read ("..." :: rest) { outer, frame := f }).run r =
      (read rest { outer, frame := f.repeatAtom }).run r :=
  run_read_cons rfl (Steps.ellipsis rfl hended hatom).run_step

end Reader

theorem run_readPattern_eq_ok_iff {source : String} {p : Pattern} :
    (readPattern source).run r = .ok p s ↔
      ∃ ps, Reader.Reads r {} (tokens source) ps s ∧ p = .required ps := by
  rw [readPattern, OptionToken.run_bind_eq_ok_iff]
  constructor
  · rintro ⟨ps, s', hread, hdone⟩
    obtain ⟨rfl, rfl⟩ := hdone
    exact ⟨ps, Reader.run_read_eq_ok_iff.1 hread, rfl⟩
  · rintro ⟨ps, hread, rfl⟩
    exact ⟨ps, s, Reader.run_read_eq_ok_iff.2 hread, rfl⟩

/-- A usage that cannot be read keeps what it has introduced up to the fault. -/
theorem grows_readPattern (r : Registry) (source : String) :
    r.Grows .language (r.after (readPattern source)) :=
  .after_bind (Reader.grows_read r _ _) fun _ _ _ => .refl

/-- The tree of a formal usage is well formed over the registry with the new options. -/
theorem readPattern_spec {source : String} {p : Pattern}
    (h : (readPattern source).run r = .ok p s) : r.Grows .language s ∧ p.WellFormed s := by
  obtain ⟨ps, hread, rfl⟩ := run_readPattern_eq_ok_iff.1 h
  obtain ⟨last, hlast, rfl⟩ := hread.exists_last
    (fun _ _ _ _ hreader => hreader.moves) (fun _ _ hreader => ⟨hreader.frame, hreader.outer⟩)
    Reader.WellFormed.start
  exact ⟨(grows_readPattern r source).of_ok h, .required hlast.frame.content⟩

end Usage

end Synopsis
