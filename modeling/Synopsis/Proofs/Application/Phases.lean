import Synopsis.Proofs.Application.Outcome

/-!
# The phases of a run

The document is read before the arguments are looked at, so a document that cannot be read fails in
one way whatever the arguments. If it can be read, it has a usage, and everything that fails after
that is a fault of the arguments which carries this usage. Help and version only intercept: they
replace an outcome, when all has been read, and leave every other outcome as it is.
-/

namespace Synopsis

variable {doc : String} {argv : List String} {config : Config} {d : Document}
  {arguments : List Occurrence}

theorem conclude_matched_or_mismatch (d : Document) (arguments : List Occurrence) :
    (∃ es, d.conclude arguments = .matched es) ∨
      d.conclude arguments =
        .failed ((UsageError.ofPhase .input .mismatch).withUsage d.usage) := by
  unfold Document.conclude
  by_cases hcomplete : (Matching.run d.fix.options d.fix.pattern arguments).isComplete = true
  · rw [if_pos hcomplete]
    exact .inl ⟨_, rfl⟩
  · rw [if_neg hcomplete]
    exact .inr rfl

theorem input_of_entries_failed (hread : Document.read doc = .ok d) {e : UsageError}
    (h : entries doc argv config = .failed e) :
    ∃ fault, e = ((Usage.Tokens.ofArguments argv).error fault).withUsage d.usage := by
  cases hrun : (Occurrence.readArguments config.optionsFirst argv).run d.options with
  | error fault options =>
    rw [entries_of_misread config hread hrun] at h
    exact ⟨fault, (Outcome.failed.inj h).symm⟩
  | ok arguments options =>
    rw [entries_of_read config hread hrun] at h
    by_cases hhelp : (config.help && requested options ["-h", "--help"] arguments) = true
    · rw [if_pos hhelp] at h
      cases h
    · rw [if_neg hhelp] at h
      cases hversion : config.version.filter fun _ => requested options ["--version"] arguments with
      | some text =>
        rw [hversion] at h
        cases h
      | none =>
        rw [hversion, Option.elim_none] at h
        rcases conclude_matched_or_mismatch ({ d with options } : Document).expand arguments with
          ⟨es, hconclude⟩ | hconclude
        · rw [hconclude] at h
          cases h
        · rw [hconclude] at h
          exact ⟨.mismatch, (Outcome.failed.inj h).symm⟩

theorem phase?_of_entries_failed {e : UsageError} (h : entries doc argv config = .failed e) :
    e.phase? ≠ none := by
  cases hread : Document.read doc with
  | error fault =>
    rw [entries_of_unreadable hread] at h
    obtain rfl := Outcome.failed.inj h
    exact Option.some_ne_none _
  | ok d =>
    obtain ⟨fault, rfl⟩ := input_of_entries_failed hread h
    exact Option.some_ne_none _

/-- Help and version are decided when all has been read, so faults are met alike without them. -/
theorem entries_eq_or_read (config config' : Config)
    (hfirst : config'.optionsFirst = config.optionsFirst) (doc : String) (argv : List String) :
    entries doc argv config = entries doc argv config' ∨
      ∃ d arguments options, Document.read doc = .ok d ∧
        (Occurrence.readArguments config.optionsFirst argv).run d.options =
          .ok arguments options := by
  cases hread : Document.read doc with
  | error fault =>
    left
    rw [entries_of_unreadable hread, entries_of_unreadable hread]
  | ok d =>
    cases hrun : (Occurrence.readArguments config.optionsFirst argv).run d.options with
    | error fault options =>
      left
      have hrun' := hrun
      rw [← hfirst] at hrun'
      rw [entries_of_misread config hread hrun, entries_of_misread config' hread hrun']
    | ok arguments options => exact .inr ⟨d, arguments, options, rfl, hrun⟩

theorem entries_help (doc : String) (argv : List String) (config : Config) :
    entries doc argv { config with help := true } = .help doc ∨
      entries doc argv { config with help := true } =
        entries doc argv { config with help := false } := by
  rcases entries_eq_or_read { config with help := true } { config with help := false } rfl doc argv
    with heq | ⟨d, arguments, options, hread, hrun⟩
  · exact .inr heq
  · rw [entries_of_read { config with help := true } hread hrun,
      entries_of_read { config with help := false } hread hrun]
    cases requested options ["-h", "--help"] arguments with
    | true => exact .inl rfl
    | false => exact .inr rfl

theorem entries_version (doc : String) (argv : List String) (config : Config) (text : String) :
    entries doc argv { config with version := some text } = .help doc ∨
      entries doc argv { config with version := some text } = .version text ∨
        entries doc argv { config with version := some text } =
          entries doc argv { config with version := none } := by
  rcases entries_eq_or_read { config with version := some text } { config with version := none } rfl
    doc argv with heq | ⟨d, arguments, options, hread, hrun⟩
  · exact .inr (.inr heq)
  · rw [entries_of_read { config with version := some text } hread hrun,
      entries_of_read { config with version := none } hread hrun]
    by_cases hhelp : (config.help && requested options ["-h", "--help"] arguments) = true
    · exact .inl (if_pos hhelp)
    · right
      rw [if_neg hhelp, if_neg hhelp]
      cases requested options ["--version"] arguments with
      | true => exact .inl rfl
      | false => exact .inr rfl

/-- Binding the values never fails, so each outcome of a run is also one of its bindings. -/
theorem apply_eq (doc : String) (argv : List String) (config : Config) :
    apply doc argv config = (entries doc argv config).andThen
      fun es => .ok (es.foldl (fun b e => b.insert e.name e.value) .empty) := by
  unfold apply applyWith
  rw [funext run_bindings]

theorem apply_eq_failed_iff {e : UsageError} :
    apply doc argv config = .failed e ↔ entries doc argv config = .failed e := by
  rw [apply_eq]
  cases entries doc argv config <;> simp [Outcome.andThen]

theorem apply_eq_help_iff {text : String} :
    apply doc argv config = .help text ↔ entries doc argv config = .help text := by
  rw [apply_eq]
  cases entries doc argv config <;> simp [Outcome.andThen]

theorem apply_eq_version_iff {text : String} :
    apply doc argv config = .version text ↔ entries doc argv config = .version text := by
  rw [apply_eq]
  cases entries doc argv config <;> simp [Outcome.andThen]

/-- The errors of a document and of its arguments are apart. -/
structure PhasesApart (doc : String) : Prop where
  /-- If the document is at fault, it is so in the same way in every run. -/
  language : ∀ argv config fault, apply doc argv config = .failed (.language fault) →
    ∀ argv' config', apply doc argv' config' = .failed (.language fault)
  /-- Otherwise every error is about the arguments and carries the usage. -/
  input : (∀ argv config fault, apply doc argv config ≠ .failed (.language fault)) →
    ∃ usage, Layout.usageSection doc = .ok usage ∧ usage ≠ "" ∧
      ∀ argv config e, apply doc argv config = .failed e →
        e.phase? = some .input ∧ e.usage? = some usage

/-- Help and version replace outcomes and change nothing else. -/
structure Intercepts (doc : String) (argv : List String) (config : Config) : Prop where
  help : apply doc argv { config with help := true } = .help doc ∨
    apply doc argv { config with help := true } = apply doc argv { config with help := false }
  version : ∀ text, apply doc argv { config with version := some text } = .help doc ∨
    apply doc argv { config with version := some text } = .version text ∨
    apply doc argv { config with version := some text } =
      apply doc argv { config with version := none }
  /-- There is neither help nor a version when something cannot be read. -/
  read : ∀ text, apply doc argv config = .help text ∨ apply doc argv config = .version text →
    ∃ d arguments options, Document.read doc = .ok d ∧
      (Occurrence.readArguments config.optionsFirst argv).run d.options = .ok arguments options

theorem apply_of_unreadable {fault : Fault} (hread : Document.read doc = .error fault)
    (argv : List String) (config : Config) : apply doc argv config = .failed (.language fault) :=
  apply_eq_failed_iff.2 (entries_of_unreadable hread argv config)

theorem phasesApart (doc : String) : PhasesApart doc := by
  cases hread : Document.read doc with
  | error fault =>
    refine ⟨fun argv config other h argv' config' => ?_, fun h => ?_⟩
    · rw [apply_of_unreadable hread] at h ⊢
      exact h
    · exact absurd (apply_of_unreadable hread [] {}) (h [] {} fault)
  | ok d =>
    refine ⟨fun argv config fault h => ?_, fun _ => ?_⟩
    · obtain ⟨_, he⟩ := input_of_entries_failed hread (apply_eq_failed_iff.1 h)
      cases he
    · have hnonempty := Document.usage_ne_empty_of_read hread
      refine ⟨d.usage, (Document.read_spec hread).1, hnonempty, fun argv config e h => ?_⟩
      obtain ⟨fault, rfl⟩ := input_of_entries_failed hread (apply_eq_failed_iff.1 h)
      have hphase := Usage.Tokens.phase?_error (.ofArguments argv) fault
      exact ⟨(UsageError.phase?_withUsage _ _).trans hphase,
        UsageError.usage?_withUsage hphase hnonempty⟩

theorem exists_read_of_apply {text : String}
    (h : apply doc argv config = .help text ∨ apply doc argv config = .version text) :
    ∃ d arguments options, Document.read doc = .ok d ∧
      (Occurrence.readArguments config.optionsFirst argv).run d.options =
        .ok arguments options := by
  rw [apply_eq_help_iff, apply_eq_version_iff] at h
  cases hread : Document.read doc with
  | error fault =>
    rw [entries_of_unreadable hread] at h
    simp at h
  | ok d =>
    cases hrun : (Occurrence.readArguments config.optionsFirst argv).run d.options with
    | error fault options =>
      rw [entries_of_misread config hread hrun] at h
      simp at h
    | ok arguments options => exact ⟨d, arguments, options, rfl, hrun⟩

theorem apply_congr {config' : Config} (h : entries doc argv config = entries doc argv config') :
    apply doc argv config = apply doc argv config' := by
  rw [apply_eq, apply_eq, h]

theorem intercepts (doc : String) (argv : List String) (config : Config) :
    Intercepts doc argv config := by
  refine ⟨?_, fun text => ?_, fun text => exists_read_of_apply⟩
  · exact (entries_help doc argv config).imp apply_eq_help_iff.2 apply_congr
  · exact (entries_version doc argv config text).imp apply_eq_help_iff.2
      (Or.imp apply_eq_version_iff.2 apply_congr)

/-- A run reports faults of the document and of the arguments only: its values can be bound. -/
theorem phase?_of_toExcept_apply {e : UsageError}
    (h : (apply doc argv config).toExcept = .error e) : e.phase? ≠ none :=
  phase?_of_entries_failed (apply_eq_failed_iff.1 (Outcome.toExcept_eq_error_iff.1 h))

/-- In every run of a document the errors of its two phases are apart, and help and version only
intercept what would come without them. -/
theorem apply_phases (doc : String) :
    PhasesApart doc ∧ ∀ argv config, Intercepts doc argv config :=
  ⟨phasesApart doc, intercepts doc⟩

end Synopsis
