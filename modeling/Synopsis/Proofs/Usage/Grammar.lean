import Synopsis.Proofs.Usage.Spelling

/-!
# The grammar of a usage without options

As long as no token is an option, what can be read is what the grammar derives: alternatives with
bars between them, sequences of atoms of which the last can be repeated, and expressions in brackets
as atoms. An ellipsis at the head of a sequence is a word. Reading such a usage does not touch the
registry, whether it succeeds or not.

What has been read so far is kept as an invariant of the reader: the tokens in each open group
derive the sequences before the last bar, and then the current sequence as far as it has come. For
the converse, each derivation says how it moves the reader.
-/

namespace Synopsis.Usage

/-- A word that is no option: it does not begin with a dash, unless it is `-` or `--`. -/
structure IsBareWord (word : String) : Prop where
  nonempty : word ≠ ""
  plain : PlainWord word.toList
  dash : word.toList.head? = some '-' → word = "-" ∨ word = "--"

inductive IsBareToken : String → Prop
  | bar : IsBareToken "|"
  | ellipsis : IsBareToken "..."
  | opening (b : Bracket) : IsBareToken b.opening
  | closing (b : Bracket) : IsBareToken b.closing
  | word {w : String} : IsBareWord w → IsBareToken w

inductive Category where
  | expression
  | sequence
  | head
  | atoms
  | atom
  deriving DecidableEq, Repr

/-- The token lists of each category of the grammar

    expression = sequence, { "|", sequence } ;
    sequence   = [ head, { atom }, [ "..." ] ] ;
    head       = atom | "..." ;
    atom       = "(", expression, ")" | "[", expression, "]" | word ; -/
inductive Derives : Category → List String → Prop
  | expression {ts} : Derives .sequence ts → Derives .expression ts
  | bar {ts us} : Derives .expression ts → Derives .sequence us →
      Derives .expression (ts ++ "|" :: us)
  | empty : Derives .sequence []
  | sequence {ts us} : Derives .head ts → Derives .atoms us → Derives .sequence (ts ++ us)
  | repeated {ts us} : Derives .head ts → Derives .atoms us →
      Derives .sequence (ts ++ us ++ ["..."])
  | head {ts} : Derives .atom ts → Derives .head ts
  | ellipsis : Derives .head ["..."]
  | nil : Derives .atoms []
  | append {ts us} : Derives .atoms ts → Derives .atom us → Derives .atoms (ts ++ us)
  | bracket {ts} (b : Bracket) : Derives .expression ts →
      Derives .atom (b.opening :: (ts ++ [b.closing]))
  | word {w} : IsBareWord w → Derives .atom [w]

variable {f : Frame} {w token : String} {ts us vs rest : List String} {options : Registry}

theorem IsBareToken.whole (h : IsBareToken token) : Whole token.toList := by
  cases h with
  | bar => exact .grouping rfl
  | ellipsis => exact .ellipsis
  | opening b => cases b <;> exact .grouping rfl
  | closing b => cases b <;> exact .grouping rfl
  | word hw => exact .word (fun hnil => hw.nonempty (String.toList_eq_nil_iff.1 hnil)) hw.plain

theorem IsBareWord.isOption_eq_false (h : IsBareWord w) : OptionToken.isOption w = false := by
  by_cases hdash : w.toList.head? = some '-'
  · rcases h.dash hdash with rfl | rfl <;> rfl
  · exact Usage.isOption_eq_false hdash

theorem IsBareWord.ofToken (h : IsBareWord w) :
    Lexeme.ofToken w = .shortcut ∨ Lexeme.ofToken w = .argument ∨ Lexeme.ofToken w = .command := by
  by_cases hreserved : w ∈ reserved
  · simp only [reserved, List.mem_cons, List.not_mem_nil, or_false] at hreserved
    have hplain := h.plain
    rcases hreserved with rfl | rfl | rfl | rfl | rfl | rfl | rfl
    · exact absurd (hplain.grouping '(' (by decide)) (by decide)
    · exact absurd (hplain.grouping '[' (by decide)) (by decide)
    · exact absurd (hplain.grouping ')' (by decide)) (by decide)
    · exact absurd (hplain.grouping ']' (by decide)) (by decide)
    · exact absurd (hplain.grouping '|' (by decide)) (by decide)
    · exact absurd (List.infix_refl _) hplain.ellipsis
    · exact .inl rfl
  · rw [Lexeme.ofToken_word hreserved, h.isOption_eq_false]
    cases isArgumentName w
    · exact .inr (.inr rfl)
    · exact .inr (.inl rfl)

theorem IsBareWord.exists_word? (h : IsBareWord w) :
    ∃ p, ∀ reader : Reader, reader.word? w = some p := by
  rcases h.ofToken with hlexeme | hlexeme | hlexeme
  · exact ⟨.shortcut, fun _ => by rw [Reader.word?, hlexeme]⟩
  · exact ⟨.argument w, fun _ => by rw [Reader.word?, hlexeme]⟩
  · exact ⟨.command w, fun _ => by rw [Reader.word?, hlexeme]⟩

theorem IsBareToken.ofToken_ne_option (h : IsBareToken token) :
    Lexeme.ofToken token ≠ .option := by
  cases h with
  | bar => exact fun heq => Lexeme.noConfusion heq
  | ellipsis => exact fun heq => Lexeme.noConfusion heq
  | opening b => simp [Lexeme.ofToken_opening]
  | closing b => simp [Lexeme.ofToken_closing]
  | word hw => rcases hw.ofToken with hlexeme | hlexeme | hlexeme <;> simp [hlexeme]

/-! ### What the grammar derives can be read -/

/-- Where a category can begin. -/
def Category.Admits : Category → Frame → Prop
  | atoms, f => f.ended = false ∧ f.atom ≠ []
  | atom, f => f.ended = false
  | _, f => f.ended = false ∧ f.atom = []

def Category.Leaves : Category → Frame → Prop
  | expression, _ => True
  | sequence, _ => True
  | _, f => f.ended = false ∧ f.atom ≠ []

theorem Derives.exists_read {c : Category} (h : Derives c ts) (options : Registry) :
    ∀ (outer : List (Bracket × Frame)) (f : Frame) (rest : List String), c.Admits f →
      ∃ g, c.Leaves g ∧ (Reader.read (ts ++ rest) { outer, frame := f }).run options =
        (Reader.read rest { outer, frame := g }).run options := by
  induction h with
  | expression _ ih => exact ih
  | bar _ _ ih ih' =>
    intro outer f rest hf
    obtain ⟨g, -, hg⟩ := ih outer f ("|" :: (_ ++ rest)) hf
    obtain ⟨g', -, hg'⟩ := ih' outer g.next rest ⟨rfl, rfl⟩
    refine ⟨g', trivial, ?_⟩
    rw [List.append_assoc, List.cons_append, hg, Reader.run_read_bar, hg']
  | empty => exact fun _ f _ _ => ⟨f, trivial, rfl⟩
  | sequence _ _ ih ih' =>
    intro outer f rest hf
    obtain ⟨g, hleaves, hg⟩ := ih outer f (_ ++ rest) hf
    obtain ⟨g', -, hg'⟩ := ih' outer g rest hleaves
    exact ⟨g', trivial, by rw [List.append_assoc, hg, hg']⟩
  | repeated _ _ ih ih' =>
    intro outer f rest hf
    obtain ⟨g, hleaves, hg⟩ := ih outer f (_ ++ "..." :: rest) hf
    obtain ⟨g', ⟨hended, hatom⟩, hg'⟩ := ih' outer g ("..." :: rest) hleaves
    refine ⟨g'.repeatAtom, trivial, ?_⟩
    rw [List.append_assoc, List.append_assoc, List.singleton_append, hg, hg',
      Reader.run_read_ellipsis hended hatom]
  | head _ ih => exact fun outer f rest hf => ih outer f rest hf.1
  | ellipsis =>
    intro outer f rest hf
    obtain ⟨hended, hatom⟩ := hf
    have hword : Reader.word? { outer, frame := f } "..." = some (.command "...") := by
      have hlexeme : Lexeme.ofToken "..." = .ellipsis := rfl
      simp [Reader.word?, hlexeme, hatom]
    exact ⟨f.add [.command "..."], ⟨hended, List.cons_ne_nil _ _⟩,
      Reader.run_read_cons rfl (Reader.Steps.word hword hended).run_step⟩
  | nil => exact fun _ f _ hf => ⟨f, hf, rfl⟩
  | append _ _ ih ih' =>
    intro outer f rest hf
    obtain ⟨g, hleaves, hg⟩ := ih outer f (_ ++ rest) hf
    obtain ⟨g', hleaves', hg'⟩ := ih' outer g rest hleaves.1
    exact ⟨g', hleaves', by rw [List.append_assoc, hg, hg']⟩
  | bracket b _ ih =>
    intro outer f rest hf
    obtain ⟨g, -, hg⟩ := ih ((b, f) :: outer) {} (b.closing :: rest) ⟨rfl, rfl⟩
    refine ⟨f.add [.ofBracket b g.content], ⟨hf, List.cons_ne_nil _ _⟩, ?_⟩
    rw [List.cons_append, List.append_assoc, List.singleton_append, Reader.run_read_opening b hf,
      hg, Reader.run_read_closing]
  | word hw =>
    intro outer f rest hf
    obtain ⟨p, hword⟩ := hw.exists_word?
    have hended : f.ended = false := hf
    exact ⟨f.add [p], ⟨hended, List.cons_ne_nil _ _⟩,
      Reader.run_read_cons rfl (Reader.Steps.word (hword _) hended).run_step⟩

/-! ### What can be read is derived -/

namespace Frame

/-- The tokens of the current sequence, as far as it has been read. -/
inductive InSequence : Frame → List String → Prop
  | start {f : Frame} : f.atom = [] → InSequence f []
  | going {f : Frame} {ts us : List String} : f.atom ≠ [] → Derives .head ts → Derives .atoms us →
      InSequence f (ts ++ us)
  | ended {f : Frame} {ts us : List String} : f.ended = true → Derives .head ts →
      Derives .atoms us → InSequence f (ts ++ us ++ ["..."])

inductive InGroup : Frame → List String → Prop
  | first {f : Frame} {ts : List String} : InSequence f ts → InGroup f ts
  | later {f : Frame} {ts us : List String} : Derives .expression ts → InSequence f us →
      InGroup f (ts ++ "|" :: us)

inductive InGroups : List (Bracket × Frame) → Frame → List String → Prop
  | outermost {f : Frame} {ts : List String} : InGroup f ts → InGroups [] f ts
  | inner {b : Bracket} {f g : Frame} {outer : List (Bracket × Frame)} {ts us : List String} :
      f.ended = false → InGroups outer f ts → InGroup g us →
      InGroups ((b, f) :: outer) g (ts ++ b.opening :: us)

theorem InSequence.derives (h : InSequence f ts) : Derives .sequence ts := by
  cases h with
  | start _ => exact .empty
  | going _ hhead hatoms => exact .sequence hhead hatoms
  | ended _ hhead hatoms => exact .repeated hhead hatoms

theorem InSequence.add {p : Pattern} (h : InSequence f ts) (hended : f.ended = false)
    (hatom : Derives .atom us) : InSequence (f.add [p]) (ts ++ us) := by
  have hne : (f.add [p]).atom ≠ [] := List.cons_ne_nil _ _
  cases h with
  | start _ =>
    have hgoing := InSequence.going hne (.head hatom) .nil
    rwa [List.append_nil] at hgoing
  | going _ hhead hatoms =>
    rw [List.append_assoc]
    exact .going hne hhead (.append hatoms hatom)
  | ended htrue _ _ => exact Bool.noConfusion (hended.symm.trans htrue)

theorem InSequence.repeatAtom (h : InSequence f ts) (hended : f.ended = false)
    (hatom : f.atom ≠ []) : InSequence f.repeatAtom (ts ++ ["..."]) := by
  cases h with
  | start hnil => exact absurd hnil hatom
  | going _ hhead hatoms => exact .ended rfl hhead hatoms
  | ended htrue _ _ => exact Bool.noConfusion (hended.symm.trans htrue)

/-- An ellipsis at the head of a sequence is a word. -/
theorem InSequence.addEllipsis {p : Pattern} (h : InSequence f ts) (hended : f.ended = false)
    (hatom : f.atom = []) : InSequence (f.add [p]) (ts ++ ["..."]) := by
  cases h with
  | start _ =>
    have hgoing : InSequence (f.add [p]) (["..."] ++ []) :=
      .going (List.cons_ne_nil _ _) .ellipsis .nil
    exact hgoing
  | going hne _ _ => exact absurd hatom hne
  | ended htrue _ _ => exact Bool.noConfusion (hended.symm.trans htrue)

theorem InGroup.derives (h : InGroup f ts) : Derives .expression ts := by
  cases h with
  | first hsequence => exact .expression hsequence.derives
  | later hbefore hsequence => exact .bar hbefore hsequence.derives

theorem InGroup.next (h : InGroup f ts) : InGroup f.next (ts ++ ["|"]) :=
  .later h.derives (.start rfl)

theorem InGroup.extend {g : Frame} (h : InGroup f ts)
    (hextend : ∀ us, InSequence f us → InSequence g (us ++ vs)) : InGroup g (ts ++ vs) := by
  cases h with
  | first hsequence => exact .first (hextend _ hsequence)
  | later hbefore hsequence =>
    rw [List.append_assoc, List.cons_append]
    exact .later hbefore (hextend _ hsequence)

theorem InGroups.extend {outer : List (Bracket × Frame)} {g : Frame} (h : InGroups outer f ts)
    (hextend : ∀ us, InGroup f us → InGroup g (us ++ vs)) : InGroups outer g (ts ++ vs) := by
  cases h with
  | outermost hgroup => exact .outermost (hextend _ hgroup)
  | inner hended houter hgroup =>
    rw [List.append_assoc, List.cons_append]
    exact .inner hended houter (hextend _ hgroup)

end Frame

open Usage.Frame

variable {outer : List (Bracket × Frame)}

/-- The faults that tokens in a wrong place can raise. -/
inductive IsMisplaced : Fault → Prop
  | unmatched (b : Bracket) : IsMisplaced (.unmatched b)
  | unexpectedEnding (rest : List String) : IsMisplaced (.unexpectedEnding rest)

theorem isMisplaced_stray (reader : Reader) (rest : List String) :
    IsMisplaced (reader.stray rest) := by
  unfold Reader.stray
  split
  · exact .unexpectedEnding rest
  · exact .unmatched _

theorem Frame.InGroups.steps {s : Registry} {next : Reader} (h : InGroups outer f ts)
    (htoken : IsBareToken token)
    (hstep : Reader.Steps options { outer, frame := f } token s next) :
    InGroups next.outer next.frame (ts ++ [token]) ∧ next.waiting = none ∧ s = options := by
  have text {lexeme : Lexeme} {text : String} (hlexeme : Lexeme.ofToken token = lexeme)
      (htext : lexeme.text? = some text) : token = text := Lexeme.eq_of_text? (hlexeme ▸ htext)
  cases hstep with
  | bar hlexeme =>
    obtain rfl := text hlexeme rfl
    exact ⟨h.extend fun _ => InGroup.next, rfl, rfl⟩
  | closing hlexeme houter =>
    obtain rfl := text hlexeme rfl
    cases h with
    | outermost _ => cases houter
    | inner hended hbefore hgroup =>
      obtain ⟨hhead, rfl⟩ := List.cons.inj houter
      obtain ⟨rfl, rfl⟩ := Prod.mk.inj hhead
      refine ⟨?_, rfl, rfl⟩
      rw [List.append_assoc]
      refine hbefore.extend fun _ hbefore => hbefore.extend fun _ hs => ?_
      exact hs.add hended (.bracket _ hgroup.derives)
  | opening hlexeme hended =>
    obtain rfl := text hlexeme rfl
    exact ⟨.inner hended h (.first (.start rfl)), rfl, rfl⟩
  | ellipsis hlexeme hended hatom =>
    obtain rfl := text hlexeme rfl
    refine ⟨h.extend fun _ hgroup => hgroup.extend fun _ hs => ?_, rfl, rfl⟩
    exact hs.repeatAtom hended hatom
  | option hlexeme _ _ => exact absurd hlexeme htoken.ofToken_ne_option
  | word hword hended =>
    refine ⟨h.extend fun _ hgroup => hgroup.extend fun _ hs => ?_, rfl, rfl⟩
    cases htoken with
    | word hw => exact hs.add hended (.word hw)
    | ellipsis =>
      have hatom : f.atom = [] := by
        by_contra hne
        have hlexeme : Lexeme.ofToken "..." = .ellipsis := rfl
        simp [Reader.word?, hlexeme, hne] at hword
      exact hs.addEllipsis hended hatom
    | bar => cases hword
    | opening b => simp [Reader.word?, Lexeme.ofToken_opening] at hword
    | closing b => simp [Reader.word?, Lexeme.ofToken_closing] at hword

theorem read_bare (hts : ∀ t ∈ ts, IsBareToken t) (h : InGroups outer f us)
    (options : Registry) :
    (Derives .expression (us ++ ts) ∧
      ∃ ps, (Reader.read ts { outer, frame := f }).run options = .ok ps options) ∨
    ∃ fault, IsMisplaced fault ∧
      (Reader.read ts { outer, frame := f }).run options = .error fault options := by
  induction ts generalizing outer f us with
  | nil =>
    rw [List.append_nil]
    cases h with
    | outermost hgroup => exact .inl ⟨hgroup.derives, f.content, rfl⟩
    | inner _ _ _ => exact .inr ⟨_, .unmatched _, rfl⟩
  | cons token ts ih =>
    obtain ⟨htoken, hts⟩ := List.forall_mem_cons.1 hts
    rcases Reader.exists_steps_or_stray htoken.ofToken_ne_option options ts with
      ⟨⟨outer', f', waiting⟩, hstep⟩ | hstray
    · obtain ⟨hnext, rfl, -⟩ := h.steps htoken hstep
      have hread := ih hts hnext
      rw [List.append_assoc, List.singleton_append] at hread
      rwa [Reader.run_read_cons rfl hstep.run_step]
    · refine .inr ⟨_, isMisplaced_stray { outer, frame := f } (token :: ts), ?_⟩
      rw [Reader.read, EStateM.run_bind, hstray]

/-- A usage without options is read exactly if the grammar derives its tokens. If it does not, the
fault is about a token in a wrong place. The registry stays as it is either way. -/
theorem readPattern_bare_iff (hts : ∀ t ∈ ts, IsBareToken t) :
    ((∃ p s, (readPattern (" ".intercalate ts)).run options = .ok p s) ↔ Derives .expression ts) ∧
    (∀ p s, (readPattern (" ".intercalate ts)).run options = .ok p s → s = options) ∧
    (¬ Derives .expression ts → ∃ fault, IsMisplaced fault ∧
      (readPattern (" ".intercalate ts)).run options = .error fault options ∧
      (Tokens.ofPattern (" ".intercalate ts)).error fault = .language fault) := by
  have htokens : tokens (" ".intercalate ts) = ts := tokens_intercalate fun t ht => (hts t ht).whole
  have hstart : InGroups [] {} [] := .outermost (.first (.start rfl))
  rcases read_bare hts hstart options with ⟨hderives, ps, hread⟩ | ⟨fault, hfault, hread⟩
  · have hrun : (readPattern (" ".intercalate ts)).run options = .ok (.required ps) options := by
      rw [readPattern, htokens, EStateM.run_bind, hread]
      rfl
    refine ⟨⟨fun _ => hderives, fun _ => ⟨_, _, hrun⟩⟩, fun p s h => ?_, fun hnot => ?_⟩
    · obtain ⟨-, rfl⟩ := EStateM.Result.ok.inj (hrun.symm.trans h)
      rfl
    · exact absurd hderives hnot
  · have hrun : (readPattern (" ".intercalate ts)).run options = .error fault options := by
      rw [readPattern, htokens, EStateM.run_bind, hread]
    refine ⟨⟨?_, fun hderives => ?_⟩, fun p s h => ?_, fun _ => ?_⟩
    · rintro ⟨p, s, h⟩
      cases hrun.symm.trans h
    · obtain ⟨g, -, hg⟩ := hderives.exists_read options [] {} [] ⟨rfl, rfl⟩
      rw [List.append_nil, hread] at hg
      cases hg
    · cases hrun.symm.trans h
    · exact ⟨fault, hfault, hrun, rfl⟩

/-- An ellipsis at the head, one that ends a sequence, and an empty alternative; and a word behind
an ellipsis, where no bar comes between them. -/
theorem readPattern_bare_iff_ellipsis :
    let ts := ["(", "...", "go", "...", "|", ")", "-"]
    let us := ["[", "go", "...", "on", "]"]
    (∀ t ∈ ts, IsBareToken t) ∧ Derives .expression ts ∧
      (∀ t ∈ us, IsBareToken t) ∧ ¬ Derives .expression us := by
  intro ts us
  have hgo : IsBareToken "go" := .word ⟨by decide, plainWord_of_all (by decide), by decide⟩
  have hon : IsBareToken "on" := .word ⟨by decide, plainWord_of_all (by decide), by decide⟩
  have hdash : IsBareToken "-" :=
    .word ⟨by decide, plainWord_of_all (by decide), fun _ => .inl rfl⟩
  have hts : ∀ t ∈ ts, IsBareToken t := by
    simp only [ts, List.forall_mem_cons]
    exact ⟨.opening .round, .ellipsis, hgo, .ellipsis, .bar, .closing .round, hdash, by simp⟩
  have hus : ∀ t ∈ us, IsBareToken t := by
    simp only [us, List.forall_mem_cons]
    exact ⟨.opening .square, hgo, .ellipsis, hon, .closing .square, by simp⟩
  have hread : (readPattern (" ".intercalate ts)).run {} = .ok (.required [.required
      [.required [.command "...", .oneOrMore (.command "go")]], .command "-"]) {} := by
    decide +kernel
  have hfault : (readPattern (" ".intercalate us)).run {} = .error (.unmatched .square) {} := by
    decide +kernel
  refine ⟨hts, (readPattern_bare_iff hts).1.1 ⟨_, _, hread⟩, hus, fun hderives => ?_⟩
  obtain ⟨p, s, hok⟩ : ∃ p s, (readPattern (" ".intercalate us)).run {} = .ok p s :=
    (readPattern_bare_iff hus).1.2 hderives
  cases hfault.symm.trans hok

end Synopsis.Usage
