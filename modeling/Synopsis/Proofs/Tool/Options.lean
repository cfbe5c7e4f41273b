import Mathlib.Tactic.Tauto
import Synopsis.Proofs.OptionToken.Spelling
import Synopsis.Tool

/-!
# The options of the tool

The options of a command stand in any order, each at most once, and a value stands behind an equals
sign or in a token of its own. Reading them gives the settings that have exactly these options, and
what is behind the first `--` is not read. Nothing else can be read.
-/

namespace Synopsis

def Report.Format.name : Report.Format → String
  | json => "json"
  | yaml => "yaml"
  | table => "table"

theorem Report.Format.ofName?_name (f : Report.Format) : ofName? f.name = some f := by
  cases f <;> rfl

theorem Report.Format.name_of_ofName? {s : String} {f : Report.Format} (h : ofName? s = some f) :
    f.name = s := by
  unfold ofName? at h
  split at h <;> cases h <;> rfl

namespace Tool

def Command.name : Command → String
  | matching => "match"
  | inspect => "inspect"

theorem Command.ofName?_name (c : Command) : ofName? c.name = some c := by
  cases c <;> rfl

theorem Command.name_of_ofName? {s : String} {c : Command} (h : ofName? s = some c) :
    c.name = s := by
  unfold ofName? at h
  split at h <;> cases h <;> rfl

inductive Setting where
  | doc (path : String)
  | format (f : Report.Format)
  | noHelp
  | version (text : String)
  | optionsFirst
  deriving DecidableEq, Repr

namespace Setting

def name : Setting → String
  | doc _ => "--doc"
  | format _ => "--format"
  | noHelp => "--no-help"
  | version _ => "--version-text"
  | optionsFirst => "--options-first"

def value? : Setting → Option String
  | doc path => some path
  | format f => some f.name
  | noHelp => none
  | version text => some text
  | optionsFirst => none

def format? : Setting → Option Report.Format
  | format f => some f
  | _ => none

def version? : Setting → Option String
  | version text => some text
  | _ => none

theorem format?_eq_some_iff {x : Setting} {f : Report.Format} :
    x.format? = some f ↔ x = .format f := by
  cases x <;> simp [format?]

theorem version?_eq_some_iff {x : Setting} {text : String} :
    x.version? = some text ↔ x = .version text := by
  cases x <;> simp [version?]

/-- The command has the option, and its value is not refused. -/
def IsOf (c : Command) : Setting → Prop
  | doc path => path ≠ ""
  | format _ => True
  | noHelp => c = .matching
  | version _ => c = .matching
  | optionsFirst => c = .matching

theorem isFlag_name (x : Setting) : Settings.isFlag x.name = x.value?.isNone := by
  cases x <;> rfl

theorem name_ne (x : Setting) : x.name ≠ "--" := by
  cases x <;> simp [name]

theorem not_mem_name (x : Setting) : '=' ∉ x.name.toList := by
  cases x <;> simp [name]

theorem splitValue_name (x : Setting) : OptionToken.splitValue x.name = (x.name, none) :=
  OptionToken.splitValue_of_not_mem x.not_mem_name

theorem splitValue_attached (x : Setting) (v : String) :
    OptionToken.splitValue (x.name ++ "=" ++ v) = (x.name, some v) := by
  have htoken : x.name ++ "=" ++ v = String.ofList (x.name.toList ++ '=' :: v.toList) := by
    rw [String.append_assoc]
    apply String.toList_injective
    simp
  rw [htoken, OptionToken.splitValue_equals x.not_mem_name, String.ofList_toList,
    String.ofList_toList]

theorem attached_ne (x : Setting) (v : String) : x.name ++ "=" ++ v ≠ "--" := by
  intro htoken
  have hsplit := x.splitValue_attached v
  rw [htoken] at hsplit
  exact Option.some_ne_none v (congrArg Prod.snd hsplit).symm

end Setting

namespace Settings

variable {c : Command} {s t : Settings} {x y : Setting} {v : String} {rest : List String}

def give (s : Settings) : Setting → Settings
  | .doc path => { s with doc := some path }
  | .format f => { s with format := some f }
  | .noHelp => { s with noHelp := true }
  | .version text => { s with version := some text }
  | .optionsFirst => { s with optionsFirst := true }

def Has (s : Settings) : Setting → Prop
  | .doc path => s.doc = some path
  | .format f => s.format = some f
  | .noHelp => s.noHelp = true
  | .version text => s.version = some text
  | .optionsFirst => s.optionsFirst = true

def isGiven (s : Settings) : Setting → Bool
  | .doc _ => s.doc.isSome
  | .format _ => s.format.isSome
  | .noHelp => s.noHelp
  | .version _ => s.version.isSome
  | .optionsFirst => s.optionsFirst

theorem isGiven_empty (x : Setting) : ({} : Settings).isGiven x = false := by
  cases x <;> rfl

theorem not_has_empty (x : Setting) : ¬({} : Settings).Has x := by
  cases x <;> simp [Has]

theorem isGiven_give : (s.give x).isGiven y = false ↔ x.name ≠ y.name ∧ s.isGiven y = false := by
  cases x <;> cases y <;> simp [give, isGiven, Setting.name]

theorem has_give (hfree : s.isGiven x = false) : (s.give x).Has y ↔ y = x ∨ s.Has y := by
  cases x <;> cases y <;> grind [give, Has, isGiven]

theorem eq_of_has (h : ∀ x, s.Has x ↔ t.Has x) : s = t := by
  obtain ⟨doc, format, noHelp, version, optionsFirst⟩ := s
  obtain ⟨doc', format', noHelp', version', optionsFirst'⟩ := t
  have hdoc : doc = doc' := Option.ext fun path => h (.doc path)
  have hformat : format = format' := Option.ext fun f => h (.format f)
  have hnoHelp : noHelp = noHelp' := Bool.eq_iff_iff.2 (h .noHelp)
  have hversion : version = version' := Option.ext fun text => h (.version text)
  have hoptionsFirst : optionsFirst = optionsFirst' := Bool.eq_iff_iff.2 (h .optionsFirst)
  rw [hdoc, hformat, hnoHelp, hversion, hoptionsFirst]

/-- The option is one of the command and has not been given. -/
structure Accepts (c : Command) (s : Settings) (x : Setting) : Prop where
  isOf : x.IsOf c
  free : s.isGiven x = false

theorem setValue?_eq_some_iff {name : String} : s.setValue? c name v = some t ↔
    ∃ x, s.Accepts c x ∧ x.name = name ∧ x.value? = some v ∧ s.give x = t := by
  constructor
  · intro h
    unfold setValue? at h
    split at h
    · obtain ⟨hfree, ht⟩ := Option.ite_none_left_eq_some.1 h
      rw [Bool.or_eq_true, not_or, Bool.not_eq_true, String.isEmpty_iff] at hfree
      cases ht
      exact ⟨.doc v, ⟨hfree.2, hfree.1⟩, rfl, rfl, rfl⟩
    · obtain ⟨hfree, ht⟩ := Option.ite_none_left_eq_some.1 h
      obtain ⟨f, hf, rfl⟩ := Option.map_eq_some_iff.1 ht
      exact ⟨.format f, ⟨trivial, Bool.eq_false_iff.2 hfree⟩, rfl,
        congrArg some (Report.Format.name_of_ofName? hf), rfl⟩
    · obtain ⟨hfree, ht⟩ := Option.ite_none_left_eq_some.1 h
      cases ht
      exact ⟨.version v, ⟨rfl, Bool.eq_false_iff.2 hfree⟩, rfl, rfl, rfl⟩
    · cases h
  · rintro ⟨x, ⟨hof, hfree⟩, rfl, hvalue, rfl⟩
    cases x with
    | doc path =>
      cases hvalue
      have hfree : s.doc.isSome = false := hfree
      have hnonempty : v ≠ "" := hof
      cases c <;> simp [setValue?, Setting.name, give, hfree, hnonempty]
    | format f =>
      cases hvalue
      have hfree : s.format.isSome = false := hfree
      cases c <;> simp [setValue?, Setting.name, give, hfree, Report.Format.ofName?_name]
    | version text =>
      cases hvalue
      cases hof
      have hfree : s.version.isSome = false := hfree
      simp [setValue?, Setting.name, give, hfree]
    | noHelp => cases hvalue
    | optionsFirst => cases hvalue

theorem setFlag?_eq_some_iff {name : String} : s.setFlag? c name = some t ↔
    ∃ x, s.Accepts c x ∧ x.name = name ∧ x.value? = none ∧ s.give x = t := by
  constructor
  · intro h
    unfold setFlag? at h
    split at h
    · obtain ⟨hfree, ht⟩ := Option.ite_none_left_eq_some.1 h
      cases ht
      exact ⟨.noHelp, ⟨rfl, Bool.eq_false_iff.2 hfree⟩, rfl, rfl, rfl⟩
    · obtain ⟨hfree, ht⟩ := Option.ite_none_left_eq_some.1 h
      cases ht
      exact ⟨.optionsFirst, ⟨rfl, Bool.eq_false_iff.2 hfree⟩, rfl, rfl, rfl⟩
    · cases h
  · rintro ⟨x, ⟨hof, hfree⟩, rfl, hvalue, rfl⟩
    cases x with
    | noHelp =>
      cases hof
      have hfree : s.noHelp = false := hfree
      simp [setFlag?, Setting.name, give, hfree]
    | optionsFirst =>
      cases hof
      have hfree : s.optionsFirst = false := hfree
      simp [setFlag?, Setting.name, give, hfree]
    | doc path => cases hvalue
    | format f => cases hvalue
    | version text => cases hvalue

theorem Accepts.read?_flag (h : s.Accepts c x) (hvalue : x.value? = none) :
    read? c (x.name :: rest) s = read? c rest (s.give x) := by
  have hflag : isFlag x.name = true := by rw [x.isFlag_name, hvalue]; rfl
  rw [read?, if_neg x.name_ne, x.splitValue_name]
  simp [hflag, setFlag?_eq_some_iff.2 ⟨x, h, rfl, hvalue, rfl⟩]

theorem Accepts.read?_attached (h : s.Accepts c x) (hvalue : x.value? = some v) :
    read? c ((x.name ++ "=" ++ v) :: rest) s = read? c rest (s.give x) := by
  rw [read?, if_neg (x.attached_ne v), x.splitValue_attached]
  simp [setValue?_eq_some_iff.2 ⟨x, h, rfl, hvalue, rfl⟩]

theorem Accepts.read?_separate (h : s.Accepts c x) (hvalue : x.value? = some v)
    (hseparate : isSeparateValue v = true) :
    read? c (x.name :: v :: rest) s = read? c rest (s.give x) := by
  have hflag : isFlag x.name = false := by rw [x.isFlag_name, hvalue]; rfl
  rw [read?, if_neg x.name_ne, x.splitValue_name]
  simp [hflag, hseparate, setValue?_eq_some_iff.2 ⟨x, h, rfl, hvalue, rfl⟩]

end Settings

open Settings

variable {c : Command} {x y : Setting} {xs : List Setting} {s t : Settings}
  {tokens argv args : List String}

/-! ## Reading what was written -/

/-- The tokens spell the options one after another. A value in a token of its own does not look
like an option. -/
inductive Spells : List Setting → List String → Prop
  | nil : Spells [] []
  | flag {x : Setting} {xs : List Setting} {tokens : List String} :
      x.value? = none → Spells xs tokens → Spells (x :: xs) (x.name :: tokens)
  | attached {x : Setting} {v : String} {xs : List Setting} {tokens : List String} :
      x.value? = some v → Spells xs tokens → Spells (x :: xs) ((x.name ++ "=" ++ v) :: tokens)
  | separate {x : Setting} {v : String} {xs : List Setting} {tokens : List String} :
      x.value? = some v → isSeparateValue v = true → Spells xs tokens →
      Spells (x :: xs) (x.name :: v :: tokens)

structure AcceptsAll (c : Command) (s : Settings) (xs : List Setting) : Prop where
  accepts : ∀ x ∈ xs, s.Accepts c x
  once : (xs.map Setting.name).Nodup

theorem acceptsAll_nil : AcceptsAll c s [] :=
  ⟨by simp, List.nodup_nil⟩

theorem acceptsAll_cons_iff :
    AcceptsAll c s (x :: xs) ↔ s.Accepts c x ∧ AcceptsAll c (s.give x) xs := by
  constructor
  · intro h
    obtain ⟨hname, honce⟩ := List.nodup_cons.1 h.once
    refine ⟨h.accepts x List.mem_cons_self, fun y hy => ?_, honce⟩
    have hy' := h.accepts y (List.mem_cons_of_mem x hy)
    refine ⟨hy'.isOf, isGiven_give.2 ⟨fun heq => hname ?_, hy'.free⟩⟩
    rw [heq]
    exact List.mem_map_of_mem hy
  · rintro ⟨hx, h⟩
    refine ⟨fun y hy => ?_, List.nodup_cons.2 ⟨fun hname => ?_, h.once⟩⟩
    · rcases List.mem_cons.1 hy with rfl | hy
      · exact hx
      · exact ⟨(h.accepts y hy).isOf, (isGiven_give.1 (h.accepts y hy).free).2⟩
    · obtain ⟨y, hy, heq⟩ := List.mem_map.1 hname
      exact (isGiven_give.1 (h.accepts y hy).free).1 heq.symm

theorem AcceptsAll.has_foldl_give (h : AcceptsAll c s xs) :
    (xs.foldl give s).Has y ↔ y ∈ xs ∨ s.Has y := by
  induction xs generalizing s with
  | nil => simp
  | cons x xs ih =>
    obtain ⟨hx, hxs⟩ := acceptsAll_cons_iff.1 h
    rw [List.foldl_cons, ih hxs, has_give hx.free, List.mem_cons]
    tauto

/-- Reading the options gives each of them, and goes on behind their tokens. -/
theorem Spells.read?_append (hspells : Spells xs tokens) (h : AcceptsAll c s xs)
    (rest : List String) : read? c (tokens ++ rest) s = read? c rest (xs.foldl give s) := by
  induction hspells generalizing s with
  | nil => rfl
  | flag hvalue _ ih =>
    obtain ⟨hx, hxs⟩ := acceptsAll_cons_iff.1 h
    rw [List.cons_append, hx.read?_flag hvalue, ih hxs, List.foldl_cons]
  | attached hvalue _ ih =>
    obtain ⟨hx, hxs⟩ := acceptsAll_cons_iff.1 h
    rw [List.cons_append, hx.read?_attached hvalue, ih hxs, List.foldl_cons]
  | separate hvalue hseparate _ ih =>
    obtain ⟨hx, hxs⟩ := acceptsAll_cons_iff.1 h
    rw [List.cons_append, List.cons_append, hx.read?_separate hvalue hseparate, ih hxs,
      List.foldl_cons]

/-- What stands behind the options: `--` and the arguments, or nothing. -/
inductive Follows (argv : List String) : List String → Prop
  | arguments : Follows argv ("--" :: argv)
  | nothing : argv = [] → Follows argv []

theorem Follows.read?_eq {rest : List String} (h : Follows argv rest) :
    read? c rest s = some (s, argv) := by
  cases h with
  | arguments => rw [read?, if_pos rfl]
  | nothing hargv => rw [hargv]; rfl

theorem exists_spells_of_read? (h : read? c args s = some (t, argv)) :
    ∃ xs tokens rest, Spells xs tokens ∧ AcceptsAll c s xs ∧ xs.foldl give s = t ∧
      args = tokens ++ rest ∧ Follows argv rest := by
  induction args, s using read?.induct with
  | case1 s =>
    cases h
    exact ⟨[], [], [], .nil, acceptsAll_nil, rfl, rfl, .nothing rfl⟩
  | case2 rest s =>
    rw [read?, if_pos rfl] at h
    cases h
    exact ⟨[], [], "--" :: argv, .nil, acceptsAll_nil, rfl, rfl, .arguments⟩
  | case3 token rest s hdashes name v hsplit ih =>
    rw [read?, if_neg hdashes, hsplit] at h
    obtain ⟨s', hset, h⟩ := Option.bind_eq_some_iff.1 h
    obtain ⟨x, hx, rfl, hvalue, rfl⟩ := setValue?_eq_some_iff.1 hset
    obtain ⟨xs, tokens, rest', hspells, hxs, hgiven, rfl, hrest⟩ := ih _ h
    refine ⟨x :: xs, _, rest', .attached hvalue hspells, acceptsAll_cons_iff.2 ⟨hx, hxs⟩, hgiven,
      ?_, hrest⟩
    rw [OptionToken.eq_of_splitValue_some hsplit, List.cons_append]
  | case4 token rest s hdashes name hsplit hflag ih =>
    rw [read?, if_neg hdashes, hsplit] at h
    obtain ⟨s', hset, h⟩ := Option.bind_eq_some_iff.1 ((if_pos hflag).symm.trans h)
    obtain ⟨x, hx, rfl, hvalue, rfl⟩ := setFlag?_eq_some_iff.1 hset
    obtain ⟨xs, tokens, rest', hspells, hxs, hgiven, rfl, hrest⟩ := ih _ h
    refine ⟨x :: xs, _, rest', .flag hvalue hspells, acceptsAll_cons_iff.2 ⟨hx, hxs⟩, hgiven, ?_,
      hrest⟩
    rw [OptionToken.eq_of_splitValue_none hsplit, List.cons_append]
  | case5 token s hdashes name hsplit hflag v rest hseparate ih =>
    rw [read?, if_neg hdashes, hsplit] at h
    have h := (if_pos hseparate).symm.trans ((if_neg hflag).symm.trans h)
    obtain ⟨s', hset, h⟩ := Option.bind_eq_some_iff.1 h
    obtain ⟨x, hx, rfl, hvalue, rfl⟩ := setValue?_eq_some_iff.1 hset
    obtain ⟨xs, tokens, rest', hspells, hxs, hgiven, rfl, hrest⟩ := ih _ h
    refine ⟨x :: xs, _, rest', .separate hvalue hseparate hspells,
      acceptsAll_cons_iff.2 ⟨hx, hxs⟩, hgiven, ?_, hrest⟩
    rw [OptionToken.eq_of_splitValue_none hsplit, List.cons_append, List.cons_append]
  | case6 token s hdashes name hsplit hflag v rest hseparate =>
    rw [read?, if_neg hdashes, hsplit] at h
    cases (if_neg hseparate).symm.trans ((if_neg hflag).symm.trans h)
  | case7 token s hdashes name hsplit hflag =>
    rw [read?, if_neg hdashes, hsplit] at h
    cases (if_neg hflag).symm.trans h

end Tool

end Synopsis
