import Synopsis.Proofs.Usage.NormalForm

/-!
# Reading behind other sequences

The sequences that have ended are only looked at when their group ends. So a reader whose outermost
group has other sequences before its own takes the same steps, and tokens that can be read on their
own are read in the same way behind these sequences, with more tokens to follow.
-/

namespace Synopsis.Usage

variable {r s : Registry} {earlier : List (List Pattern)}

namespace Frame

variable {f : Frame}

def after (earlier : List (List Pattern)) (f : Frame) : Frame :=
  { f with sequences := earlier ++ f.sequences }

theorem after_add (atom : List Pattern) : (f.add atom).after earlier = (f.after earlier).add atom :=
  rfl

theorem after_repeatAtom : f.repeatAtom.after earlier = (f.after earlier).repeatAtom := rfl

theorem next_after : (f.after earlier).next = { sequences := earlier ++ f.next.sequences } := by
  simp only [next, after, sequence, List.append_assoc]

theorem after_next : f.next.after earlier = (f.after earlier).next :=
  next_after.symm

end Frame

namespace Reader

variable {reader reader' next : Reader} {token : String} {ts : List String}

/-- The same open groups, where the outermost has other sequences before its own. -/
inductive Behind (earlier : List (List Pattern)) : Reader → Reader → Prop
  | root {f waiting} : Behind earlier { frame := f, waiting }
      { frame := f.after earlier, waiting }
  | inner {b f g g' outer outer' waiting} :
      Behind earlier { outer, frame := g } { outer := outer', frame := g' } →
      Behind earlier { outer := (b, g) :: outer, frame := f, waiting }
        { outer := (b, g') :: outer', frame := f, waiting }

namespace Behind

theorem waiting_eq (h : Behind earlier reader reader') : reader'.waiting = reader.waiting := by
  cases h <;> rfl

theorem ended_eq (h : Behind earlier reader reader') :
    reader'.frame.ended = reader.frame.ended := by
  cases h <;> rfl

theorem atom_eq (h : Behind earlier reader reader') : reader'.frame.atom = reader.frame.atom := by
  cases h <;> rfl

theorem wait (h : Behind earlier reader reader') (waiting : Option OptionToken.Waiting) :
    Behind earlier { reader with waiting } { reader' with waiting } := by
  cases h with
  | root => exact .root
  | inner hinner => exact .inner hinner

theorem change (h : Behind earlier reader reader') (change : Frame → Frame)
    (hafter : ∀ f, (change f).after earlier = change (f.after earlier)) :
    Behind earlier { reader with frame := change reader.frame }
      { reader' with frame := change reader'.frame } := by
  cases h with
  | @root f waiting =>
    have hroot : Behind earlier { frame := change f, waiting } _ := .root
    rwa [hafter] at hroot
  | inner hinner => exact .inner hinner

theorem add (h : Behind earlier reader reader') (atom : List Pattern) :
    Behind earlier (reader.add atom) (reader'.add atom) :=
  h.change (·.add atom) fun _ => Frame.after_add atom

theorem opening (h : Behind earlier reader reader') (b : Bracket) :
    Behind earlier { outer := (b, reader.frame) :: reader.outer }
      { outer := (b, reader'.frame) :: reader'.outer } :=
  .inner (h.wait none)

theorem closing {b : Bracket} {f : Frame} {outer : List (Bracket × Frame)}
    (h : Behind earlier reader reader') (houter : reader.outer = (b, f) :: outer) :
    ∃ f' outer', reader'.outer = (b, f') :: outer' ∧
      Behind earlier { outer, frame := f.add [.ofBracket b reader.frame.content] }
        { outer := outer', frame := f'.add [.ofBracket b reader'.frame.content] } := by
  cases h with
  | root => cases houter
  | inner hinner =>
    obtain ⟨hhead, rfl⟩ := List.cons.inj houter
    obtain ⟨rfl, rfl⟩ := Prod.mk.inj hhead
    exact ⟨_, _, rfl, hinner.add _⟩

theorem word?_eq (h : Behind earlier reader reader') :
    reader'.word? token = reader.word? token := by
  unfold word?
  rw [h.atom_eq]

theorem exists_steps (h : Behind earlier reader reader') (hstep : Steps r reader token s next) :
    ∃ next', Steps r reader' token s next' ∧ Behind earlier next next' := by
  cases hstep with
  | bar hlexeme => exact ⟨_, .bar hlexeme, h.change Frame.next fun _ => Frame.after_next⟩
  | closing hlexeme houter =>
    obtain ⟨f', outer', houter', hnext⟩ := h.closing houter
    exact ⟨_, .closing hlexeme houter', hnext⟩
  | opening hlexeme hended => exact ⟨_, .opening hlexeme (h.ended_eq.trans hended), h.opening _⟩
  | ellipsis hlexeme hended hatom =>
    exact ⟨_, .ellipsis hlexeme (h.ended_eq.trans hended) (h.atom_eq ▸ hatom),
      h.change Frame.repeatAtom fun _ => Frame.after_repeatAtom⟩
  | option hlexeme hended hread =>
    exact ⟨_, .option hlexeme (h.ended_eq.trans hended) hread, (h.add _).wait _⟩
  | word hword hended =>
    exact ⟨_, .word (h.word?_eq.trans hword) (h.ended_eq.trans hended), h.add _⟩

/-- The whole run: what has been read is in the last frame, and the tokens behind it are read from
there. -/
theorem exists_run_read {ps : List Pattern} (hread : Reads r reader ts ps s)
    (h : Behind earlier reader reader') (hnormal : reader.Normal) (us : List String) :
    ∃ last : Frame, last.Normal ∧ last.content = ps ∧
      (read (ts ++ us) reader').run r = (read us { frame := last.after earlier }).run s := by
  induction hread generalizing reader' with
  | done hwaiting houter =>
    cases h with
    | @root f waiting =>
      obtain rfl : waiting = none := hwaiting
      exact ⟨f, hnormal.frame, rfl, rfl⟩
    | inner _ => cases houter
  | value hwaiting hvalue _ ih =>
    obtain ⟨last, hlast, hcontent, hrun⟩ := ih (h.wait none) ⟨hnormal.frame, hnormal.outer⟩
    refine ⟨last, hlast, hcontent, ?_⟩
    rw [List.cons_append, run_read_value (h.waiting_eq.trans hwaiting) hvalue, hrun]
  | step hwaiting hstep _ ih =>
    obtain ⟨next', hstep', hnext⟩ := h.exists_steps hstep
    obtain ⟨last, hlast, hcontent, hrun⟩ := ih hnext (hnormal.moves hstep.moves)
    refine ⟨last, hlast, hcontent, ?_⟩
    rw [List.cons_append, run_read_cons (h.waiting_eq.trans hwaiting) hstep'.run_step, hrun]

end Behind

end Reader

end Synopsis.Usage
