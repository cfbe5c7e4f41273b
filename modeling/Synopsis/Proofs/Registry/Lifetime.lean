import Synopsis.Proofs.Occurrence.Arguments
import Synopsis.Proofs.Pattern.Shortcut
import Synopsis.Proofs.Usage.Reader

/-!
# The registry through its lifetime

A registry begins with the documented options and then serves to read usages and arguments, in any
order, whether they can be read or not. Entries are only added behind the ones there are. What is
added is a flag with a letter or, by a usage, an option with a long name, and it has its name to
itself. So what a tree or an occurrence refers to stays the same entry for as long as the registry
is used.
-/

namespace Synopsis

namespace Registry

inductive Call where
  | usage (source : String)
  | arguments (optionsFirst : Bool) (argv : List String)

namespace Call

def phase : Call → Phase
  | usage _ => .language
  | arguments _ _ => .input

def after (r : Registry) : Call → Registry
  | usage source => r.after (Usage.readPattern source)
  | arguments optionsFirst argv => r.after (Occurrence.readArguments optionsFirst argv)

def afterAll (r : Registry) (calls : List Call) : Registry :=
  calls.foldl after r

end Call

variable {phase : Phase} {r s t : Registry} {id : OptionId} {o : OptionSpec} {v : Value}
  {specs : List OptionSpec}

/-- No other entry has the same name of this sort. -/
def AloneIn (names : OptionSpec → Option String) (r : Registry) (id : OptionId) : Prop :=
  ∀ name, names (r.spec id) = some name → ∀ k < r.size, names (r.spec k) = some name → k = id

structure Unshared (r : Registry) (id : OptionId) : Prop where
  short : r.AloneIn OptionSpec.short id
  long : r.AloneIn OptionSpec.long id

/-- The registry began with these documented entries. All others are additions with names of
their own. -/
structure Descends (specs : List OptionSpec) (r : Registry) : Prop where
  documented : specs <+: r.entries
  count : r.documented = specs.length
  addition : ∀ id < r.size, specs.length ≤ id → (r.spec id).IsAddition .language
  unshared : ∀ id < r.size, specs.length ≤ id → r.Unshared id

theorem Grows.widen (h : Grows phase r s) : Grows .language r s := by
  induction h with
  | refl => exact .refl
  | short c _ hnew ih => exact .short c ih hnew
  | long name valued _ _ hnew ih => exact .long name valued rfl ih hnew

theorem Grows.exists_added (h : Grows phase r s) :
    ∃ added, s.entries = r.entries ++ added ∧ ∀ o ∈ added, o.IsAddition phase := by
  refine h.of_adds (P := fun s => ∃ added, s.entries = r.entries ++ added ∧
    ∀ o ∈ added, o.IsAddition phase) ⟨[], by simp, by simp⟩ ?_
  rintro t o hadds ⟨added, hentries, hadded⟩
  refine ⟨added ++ [o], ?_, List.forall_mem_append.2 ⟨hadded, ?_⟩⟩
  · change t.entries ++ [o] = _
    rw [hentries, List.append_assoc]
  · exact fun x hx => List.mem_singleton.1 hx ▸ hadds.addition

section

variable {names : OptionSpec → Option String}
  (hnew : ∀ name, names o = some name → r.idsWhere (names · == some name) = [])

include hnew

theorem names_ne_of_new {name : String} (hname : names o = some name) (hid : id < r.size) :
    names (r.spec id) ≠ some name := by
  intro hother
  have hmem : id ∈ r.idsWhere (names · == some name) := mem_idsWhere.2 ⟨hid, beq_iff_eq.2 hother⟩
  rw [hnew name hname] at hmem
  exact List.not_mem_nil hmem

theorem AloneIn.push (h : r.AloneIn names id) (hid : id < r.size) :
    (r.push o).AloneIn names id := by
  intro name hname k hk hother
  rw [spec_push_of_lt hid] at hname
  rw [size_push] at hk
  rcases Nat.lt_succ_iff_lt_or_eq.1 hk with hk | rfl
  · rw [spec_push_of_lt hk] at hother
    exact h name hname k hk hother
  · rw [spec_push_size] at hother
    exact absurd hname (names_ne_of_new hnew hother hid)

theorem aloneIn_push_size : (r.push o).AloneIn names r.size := by
  intro name hname k hk hother
  rw [spec_push_size] at hname
  rw [size_push] at hk
  rcases Nat.lt_succ_iff_lt_or_eq.1 hk with hk | rfl
  · rw [spec_push_of_lt hk] at hother
    exact absurd hother (names_ne_of_new hnew hname hk)
  · rfl

end

theorem Unshared.push (h : r.Unshared id) (hid : id < r.size) (hadds : r.Adds phase o) :
    (r.push o).Unshared id :=
  ⟨h.short.push hadds.short hid, h.long.push hadds.long hid⟩

theorem Adds.unshared (hadds : r.Adds phase o) : (r.push o).Unshared r.size :=
  ⟨aloneIn_push_size hadds.short, aloneIn_push_size hadds.long⟩

theorem descends_ofDocumented (specs : List OptionSpec) : (ofDocumented specs).Descends specs :=
  ⟨List.prefix_rfl, rfl, fun _ hlt hle => absurd hlt (Nat.not_lt.2 hle),
    fun _ hlt hle => absurd hlt (Nat.not_lt.2 hle)⟩

theorem Descends.push (h : r.Descends specs) (hadds : r.Adds .language o) :
    (r.push o).Descends specs := by
  refine ⟨h.documented.trans (List.prefix_append _ _), h.count, fun id hlt hle => ?_,
    fun id hlt hle => ?_⟩
  all_goals
    rw [size_push] at hlt
    rcases Nat.lt_succ_iff_lt_or_eq.1 hlt with hlt | rfl
  · rw [spec_push_of_lt hlt]
    exact h.addition id hlt hle
  · rw [spec_push_size]
    exact hadds.addition
  · exact (h.unshared id hlt hle).push hlt hadds
  · exact hadds.unshared

theorem Descends.grows (h : r.Descends specs) (hgrows : Grows .language r s) : s.Descends specs :=
  hgrows.of_adds (P := fun s => s.Descends specs) h fun _ _ hadds ih => ih.push hadds

theorem Sole.canonical_eq (h : r.Sole id) : r.canonical id = id := by
  obtain ⟨hlt, hsame, -⟩ := canonical_spec h.lt
  exact h.unique _ hlt hsame

namespace Call

theorem grows_after (r : Registry) (call : Call) : r.Grows call.phase (call.after r) := by
  cases call with
  | usage source => exact Usage.grows_readPattern r source
  | arguments optionsFirst argv => exact Occurrence.grows_readArguments optionsFirst r argv

theorem grows_afterAll (r : Registry) (calls : List Call) :
    r.Grows .language (afterAll r calls) := by
  induction calls generalizing r with
  | nil => exact .refl
  | cons call calls ih => exact (grows_after r call).widen.trans (ih (call.after r))

end Call

/-- The option is the only entry with its names, and the value is one of its arity. -/
structure Binds (r : Registry) (id : OptionId) (v : Value) : Prop where
  sole : r.Sole id
  canonical : r.canonical id = id
  text : (r.spec id).takesValue = true → ∃ text, v = .text text
  flag : (r.spec id).takesValue = false → v = .flag true

/-- What the call gives, when it succeeds from `r`, refers to entries of `t`. -/
def Call.RefersTo (r t : Registry) : Call → Prop
  | usage source => ∀ p s, (Usage.readPattern source).run r = .ok p s →
      ∀ id ∈ p.optionIds, id < t.size
  | arguments optionsFirst argv => ∀ xs s,
      (Occurrence.readArguments optionsFirst argv).run r = .ok xs s →
        ∀ id v, .option id v ∈ xs → t.Binds id v

theorem binds_of_resolved (h : (Occurrence.option id v).Resolved r) : r.Binds id v := by
  obtain ⟨hsole, hadmits⟩ := h
  refine ⟨hsole, hsole.canonical_eq, OptionSpec.exists_text_of_admits hadmits, fun hflag => ?_⟩
  exact OptionSpec.eq_flag_of_admits hadmits (hflag ▸ Bool.false_ne_true)

theorem Call.refersTo (r : Registry) (call : Call) (hgrows : (call.after r).Grows phase t) :
    call.RefersTo r t := by
  cases call with
  | usage source =>
    intro p s hread id hid
    have hs : (usage source).after r = s := by
      simp only [Call.after, Registry.after, hread]
    rw [hs] at hgrows
    obtain ⟨-, hformed⟩ := Usage.readPattern_spec hread
    exact (hformed.grows hgrows).lt_of_mem_optionIds id hid
  | arguments optionsFirst argv =>
    intro xs s hread id v hmem
    have hs : (arguments optionsFirst argv).after r = s := by
      simp only [Call.after, Registry.after, hread]
    rw [hs] at hgrows
    obtain ⟨-, hresolved⟩ := Occurrence.readArguments_spec hread
    exact binds_of_resolved ((hresolved _ hmem).grows hgrows)

/-- Whatever is read before and after a call, the registry ends with the documented entries in front
and additions with names of their own behind them; the call itself has changed nothing but add such
entries, nothing that it has left is changed later, and what it gives refers to these entries. -/
theorem calls_keep_entries (specs : List OptionSpec) (before : List Call) (call : Call)
    (later : List Call) :
    let r := Call.afterAll (.ofDocumented specs) before
    let s := call.after r
    let t := Call.afterAll s later
    t.Descends specs ∧
      (∃ added, s.entries = r.entries ++ added ∧ ∀ o ∈ added, o.IsAddition call.phase) ∧
      s.entries <+: t.entries ∧ call.RefersTo r t := by
  intro r s t
  have hbefore := Call.grows_afterAll (.ofDocumented specs) before
  have hcall := Call.grows_after r call
  have hlater := Call.grows_afterAll s later
  refine ⟨?_, hcall.exists_added, ?_, call.refersTo r hlater⟩
  · exact (descends_ofDocumented specs).grows ((hbefore.trans hcall.widen).trans hlater)
  · obtain ⟨added, hentries, -⟩ := hlater.exists_added
    exact ⟨added, hentries.symm⟩

/-- A usage whose last group stays open has introduced two options before the fault. Arguments that
are read afterwards find them, one by an abbreviation, beside two documented options of one name. -/
theorem calls_keep_entries_after_fault :
    let specs := [OptionSpec.ofNames (some "-d") none 1, .ofNames (some "-d") none 0]
    let r := Call.afterAll (.ofDocumented specs) [.usage "( -x --out=<f> ( a )"]
    let argv := ["-xz", "--ou", "FILE"]
    let xs := [.option 2 (.flag true), .option 4 (.flag true), .option 3 (.text "FILE")]
    let t := Call.afterAll ((Call.arguments false argv).after r) [.usage "( -q"]
    (∃ s, (Occurrence.readArguments false argv).run r = .ok xs s) ∧
      t.Descends specs ∧ ∀ id v, .option id v ∈ xs → t.Binds id v := by
  intro specs r argv xs t
  have hr : r = ((ofDocumented specs).push (.ofNames (some "-x") none 0)).push
      (.ofNames none (some "--out") 1) := by
    decide +kernel
  have hread : (Occurrence.readArguments false argv).run r =
      .ok xs (r.push (.ofNames (some "-z") none 0)) := by
    rw [hr]
    rfl
  obtain ⟨hdescends, -, -, hrefers⟩ :=
    calls_keep_entries specs [.usage "( -x --out=<f> ( a )"] (.arguments false argv) [.usage "( -q"]
  exact ⟨⟨_, hread⟩, hdescends, hrefers xs _ hread⟩

end Registry

end Synopsis
