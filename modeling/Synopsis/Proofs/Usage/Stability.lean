import Synopsis.Proofs.OptionToken.Spelling
import Synopsis.Proofs.Usage.Reader

/-!
# Reading a usage again

What a usage introduces while it is read is there from the beginning when it is read again. An
option that the first reading introduced is then found, and it takes the same tokens: a flag is
found as a flag, and an option that was introduced with its value in the token takes this value.
Options that were found before are found in the same place, because a name that is known is never
introduced again. So the second reading makes the same tree and introduces nothing, and this stays
so when the registry has grown further in between.
-/

namespace Synopsis

namespace OptionToken

variable {r s t : Registry} {reading : Reading}

/-- The letters of a cluster are the same options again, each with the same value. -/
theorem ReadsCluster.again {cs : List Char} (h : ReadsCluster cs r reading s)
    (hgrows : s.Grows .language t) : ReadsCluster cs t reading t := by
  induction h with
  | nil => exact .nil
  | @introduced c cs r s reading hids hrest ih =>
    have hpushed := (hrest.grows .language).trans hgrows
    obtain ⟨-, hspec⟩ := sole_of_register (Registry.fresh_short hids) hpushed
    have hflag : ¬ (t.spec r.size).takesValue = true := hspec ▸ Bool.false_ne_true
    exact .flag (hpushed.shortIds_eq (Registry.shortIds_push hids)) hflag (ih hgrows)
  | flag hids hvalued hrest ih =>
    have hlater := (hrest.grows .language).trans hgrows
    have hspec := hlater.spec_eq (Registry.sole_of_shortIds hids).lt
    exact .flag (hlater.shortIds_eq hids) (hspec ▸ hvalued) (ih hgrows)
  | value hids hvalued =>
    have hspec := hgrows.spec_eq (Registry.sole_of_shortIds hids).lt
    exact .value (hgrows.shortIds_eq hids) (hspec ▸ hvalued)

/-- The same options in the same order, with the same one waiting for its value. The values need
not be the same: an option has none where it is introduced. -/
structure Reading.Agrees (reading other : Reading) : Prop where
  ids : other.ids = reading.ids
  waiting : other.waiting = reading.waiting

theorem Reading.agrees_self (reading : Reading) : reading.Agrees reading :=
  ⟨rfl, rfl⟩

theorem Reading.agrees_one (id : OptionId) (v w : Value) :
    (Reading.one id v).Agrees (Reading.one id w) :=
  ⟨rfl, rfl⟩

theorem ReadsLong.again {token : String} (h : ReadsLong .language token r reading s)
    (hgrows : s.Grows .language t) :
    ∃ other, (readLong .language token).run t = .ok other t ∧ reading.Agrees other := by
  cases h with
  | @introduced long value r hsplit _ hids =>
    have hfound := candidates_of_longIds (hgrows.longIds_eq (Registry.longIds_push hids)) .language
    obtain ⟨-, hspec⟩ := sole_of_register (Registry.fresh_long hids) hgrows
    cases value with
    | some value =>
      have hread := run_readLong_value hsplit hfound
      rw [hspec] at hread
      exact ⟨_, hread, Reading.agrees_one _ _ _⟩
    | none =>
      have hread := run_readLong hsplit hfound
      rw [Reading.bare, hspec] at hread
      exact ⟨_, hread, Reading.agrees_one _ _ _⟩
  | value hsplit hids hvalued =>
    have hspec := hgrows.spec_eq (Registry.sole_of_longIds hids).lt
    have hfound := candidates_of_longIds (hgrows.longIds_eq hids) .language
    have hread := run_readLong_value hsplit hfound
    rw [hspec, if_pos hvalued] at hread
    exact ⟨_, hread, Reading.agrees_self _⟩
  | bare hsplit hids =>
    have hspec := hgrows.spec_eq (Registry.sole_of_longIds hids).lt
    have hfound := candidates_of_longIds (hgrows.longIds_eq hids) .language
    have hread := run_readLong hsplit hfound
    rw [Reading.bare, hspec] at hread
    exact ⟨_, hread, Reading.agrees_self _⟩

theorem read_again {token : String} (h : (read .language token).run r = .ok reading s)
    (hgrows : s.Grows .language t) :
    ∃ other, (read .language token).run t = .ok other t ∧ reading.Agrees other := by
  unfold read at h ⊢
  by_cases hlong : isLong token = true
  · rw [if_pos hlong] at h ⊢
    exact (readsLong_of_run h).again hgrows
  · rw [if_neg hlong] at h ⊢
    have hagain := (run_readCluster_eq_ok_iff.1 h).again hgrows
    exact ⟨reading, run_readCluster_eq_ok_iff.2 hagain, reading.agrees_self⟩

end OptionToken

namespace Usage

variable {r s t : Registry} {reader next : Reader} {token : String} {tokens : List String}
  {ps : List Pattern}

/-- Only option tokens look at the registry. -/
theorem Reader.Steps.again (h : Reader.Steps r reader token s next)
    (hgrows : s.Grows .language t) : Reader.Steps t reader token t next := by
  cases h with
  | bar hlexeme => exact .bar hlexeme
  | closing hlexeme houter => exact .closing hlexeme houter
  | opening hlexeme hended => exact .opening hlexeme hended
  | ellipsis hlexeme hended hatom => exact .ellipsis hlexeme hended hatom
  | word hword hended => exact .word hword hended
  | option hlexeme hended hread =>
    obtain ⟨other, hother, hagrees⟩ := OptionToken.read_again hread hgrows
    rw [← hagrees.ids, ← hagrees.waiting]
    exact .option hlexeme hended hother

theorem Reader.Reads.again (h : Reader.Reads r reader tokens ps s)
    (hgrows : s.Grows .language t) : Reader.Reads t reader tokens ps t := by
  induction h with
  | done hwaiting houter => exact .done hwaiting houter
  | value hwaiting hvalue _ ih => exact .value hwaiting hvalue (ih hgrows)
  | step hwaiting hstep hrest ih =>
    exact .step hwaiting (hstep.again (hrest.grows.trans hgrows)) (ih hgrows)

/-- A usage that has been read can be read again: it is the same tree with the same options, and
nothing new is introduced. -/
theorem readPattern_again {source : String} {p : Pattern}
    (h : (readPattern source).run r = .ok p s) : (readPattern source).run s = .ok p s := by
  obtain ⟨ps, hread, rfl⟩ := run_readPattern_eq_ok_iff.1 h
  exact run_readPattern_eq_ok_iff.2 ⟨ps, hread.again .refl, rfl⟩

/-- A cluster and a long option are introduced, and the long one later takes its value from the
next token. -/
theorem readPattern_again_introduced :
    let source := "[ -ab --out=<x> ] --out FILE"
    let p := Pattern.required [.optional [.option 0, .option 1, .option 2], .option 2]
    let s : Registry := { entries := [.ofNames (some "-a") none 0, .ofNames (some "-b") none 0,
      .ofNames none (some "--out") 1] }
    (readPattern source).run {} = .ok p s ∧ (readPattern source).run s = .ok p s := by
  intro source p s
  have hread : (readPattern source).run {} = .ok p s := by decide +kernel
  exact ⟨hread, readPattern_again hread⟩

end Usage

end Synopsis
