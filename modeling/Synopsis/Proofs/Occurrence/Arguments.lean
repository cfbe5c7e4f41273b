import Synopsis.Proofs.Occurrence.Tokens

/-!
# What an argument vector is read into

Positionals are unnamed texts. Options are the only entries with their names and have a value of
their arity. This is so in the registry as it is at the end, which has grown by unknown short
options only.
-/

namespace Synopsis.Occurrence

def Resolved (options : Registry) : Occurrence → Prop
  | argument name v => name = none ∧ ∃ text, v = .text text
  | command _ _ => False
  | option id v => options.Sole id ∧ (options.spec id).admits v = true

variable {phase : Phase} {r s : Registry} {optionsFirst : Bool}

theorem Resolved.grows {x : Occurrence} (h : x.Resolved r) (hgrows : r.Grows phase s) :
    x.Resolved s := by
  cases x with
  | argument name v => exact h
  | command name v => exact h
  | option id v =>
    obtain ⟨hsole, hadmits⟩ := h
    refine ⟨hsole.grows hgrows, ?_⟩
    rw [hgrows.spec_eq hsole.lt]
    exact hadmits

theorem Resolved.exists_positional {x : Occurrence} (h : x.Resolved r)
    (hargument : x.isArgument = true) : ∃ s, x = positional s := by
  obtain ⟨name, v, rfl⟩ := isArgument_iff.1 hargument
  obtain ⟨rfl, s, rfl⟩ := h
  exact ⟨s, rfl⟩

theorem resolved_positionals (tokens : List String) :
    ∀ x ∈ tokens.map positional, x.Resolved r := by
  intro x hx
  obtain ⟨token, -, rfl⟩ := List.mem_map.1 hx
  exact ⟨rfl, token, rfl⟩

theorem grows_readTokens (r : Registry) (waiting : Option OptionToken.Waiting)
    (tokens : List String) : r.Grows .input (r.after (readTokens optionsFirst waiting tokens)) := by
  induction tokens generalizing waiting r with
  | nil =>
    cases waiting with
    | none => exact .refl
    | some w => exact .refl
  | cons token rest ih =>
    cases waiting with
    | some w =>
      rw [readTokens]
      by_cases hdashes : token = "--"
      · rw [if_pos hdashes]
        exact .refl
      · rw [if_neg hdashes]
        exact .after_bind (ih r none) fun _ _ _ => .refl
    | none =>
      rw [readTokens]
      by_cases hdashes : token = "--"
      · rw [if_pos hdashes]
        exact .refl
      · rw [if_neg hdashes]
        by_cases hoption : OptionToken.isOption token = true
        · rw [if_pos hoption]
          refine .after_bind (OptionToken.grows_read .input r token) fun reading s _ => ?_
          exact .after_bind (ih s reading.waiting) fun _ _ _ => .refl
        · rw [if_neg hoption]
          by_cases hfirst : optionsFirst = true
          · rw [if_pos hfirst]
            exact .refl
          · rw [if_neg hfirst]
            exact .after_bind (ih r none) fun _ _ _ => .refl

/-- Arguments that cannot be read have only added unknown short options either. -/
theorem grows_readArguments (optionsFirst : Bool) (r : Registry) (argv : List String) :
    r.Grows .input (r.after (readArguments optionsFirst argv)) :=
  grows_readTokens r none argv

theorem Reads.grows {waiting : Option OptionToken.Waiting} {tokens : List String}
    {xs : List Occurrence} (h : Reads optionsFirst waiting tokens r xs s) : r.Grows .input s :=
  (grows_readTokens r waiting tokens).of_ok (run_readTokens_eq_ok_iff.2 h)

theorem Reads.resolved {waiting : Option OptionToken.Waiting} {tokens : List String}
    {xs : List Occurrence} (h : Reads optionsFirst waiting tokens r xs s)
    (hwaiting : ∀ w ∈ waiting, r.Sole w.id ∧ (r.spec w.id).takesValue = true) :
    ∀ x ∈ xs, x.Resolved s := by
  induction h with
  | done => exact fun _ hx => absurd hx List.not_mem_nil
  | @value w token rest r s xs _ hrest ih =>
    obtain ⟨hsole, hvalued⟩ := hwaiting w rfl
    have hfirst : (option w.id (.text token)).Resolved r := ⟨hsole, hvalued⟩
    exact List.forall_mem_cons.2 ⟨hfirst.grows hrest.grows, ih (by simp)⟩
  | separator => exact resolved_positionals _
  | @options token rest r t s reading xs _ hread hrest ih =>
    obtain ⟨-, hreading⟩ := OptionToken.read_spec hread
    refine List.forall_mem_append.2 ⟨fun x hx => ?_, ih hreading.waiting⟩
    obtain ⟨⟨id, v⟩, hmem, rfl⟩ := List.mem_map.1 hx
    obtain ⟨hsole, hadmits⟩ := hreading.complete _ hmem
    have hx' : (option id v).Resolved t := ⟨hsole, hadmits rfl⟩
    exact hx'.grows hrest.grows
  | verbatim _ _ => exact resolved_positionals _
  | single _ _ _ _ ih => exact List.forall_mem_cons.2 ⟨⟨rfl, _, rfl⟩, ih (by simp)⟩

theorem readArguments_spec {argv : List String} {xs : List Occurrence}
    (h : (readArguments optionsFirst argv).run r = .ok xs s) :
    r.Grows .input s ∧ ∀ x ∈ xs, x.Resolved s :=
  ⟨(grows_readArguments optionsFirst r argv).of_ok h,
    (run_readTokens_eq_ok_iff.1 h).resolved (by simp)⟩

end Synopsis.Occurrence
