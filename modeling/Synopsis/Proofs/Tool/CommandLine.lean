import Mathlib.Data.List.DropRight
import Synopsis.Proofs.Tool.Options

/-!
# Command lines

A command line whose document can be read is answered by what comes out when the document is applied
to the arguments, or by the names of the document. The options choose the config and the format,
however they are written.
-/

namespace Synopsis.Tool

open Settings

variable {c : Command} {path doc : String} {xs ys : List Setting} {s : Settings}
  {argv args args' : List String} {read : String → Except String String}

/-- A command with its options, the document among them, each once and in any order and spelling,
and the arguments behind `--`. -/
structure CommandLine (c : Command) (path : String) (xs : List Setting)
    (argv args : List String) : Prop where
  doc : .doc path ∈ xs
  isOf : ∀ x ∈ xs, x.IsOf c
  once : (xs.map Setting.name).Nodup
  spelled : ∃ tokens rest, Spells xs tokens ∧ Follows argv rest ∧
    args = c.name :: (tokens ++ rest)

def configOf (xs : List Setting) : Config where
  help := decide (.noHelp ∉ xs)
  version := xs.findSome? Setting.version?
  optionsFirst := decide (.optionsFirst ∈ xs)

def formatOf (xs : List Setting) : Report.Format :=
  (xs.findSome? Setting.format?).getD .json

/-! The settings that have exactly the options are what the config and the format come from. -/

theorem findSome?_eq {α : Type} {f : Setting → Option α} {o : Option α}
    (h : ∀ a, o = some a ↔ ∃ x ∈ xs, f x = some a) : xs.findSome? f = o := by
  cases hfind : xs.findSome? f with
  | none =>
    refine (Option.eq_none_iff_forall_ne_some.2 fun a ha => ?_).symm
    obtain ⟨x, hx, hfx⟩ := (h a).1 ha
    rw [List.findSome?_eq_none_iff.1 hfind x hx] at hfx
    cases hfx
  | some a =>
    obtain ⟨x, hx, hfx⟩ := List.exists_of_findSome?_eq_some hfind
    exact ((h a).2 ⟨x, hx, hfx⟩).symm

theorem configOf_eq (h : ∀ x, s.Has x ↔ x ∈ xs) :
    configOf xs = ⟨!s.noHelp, s.version, s.optionsFirst⟩ := by
  have hnoHelp : s.noHelp = decide (.noHelp ∈ xs) :=
    Bool.eq_iff_iff.2 ((h .noHelp).trans decide_eq_true_iff.symm)
  have hversion : xs.findSome? Setting.version? = s.version := by
    refine findSome?_eq fun text => (h (.version text)).trans ?_
    simp only [Setting.version?_eq_some_iff, exists_eq_right]
  have hoptionsFirst : s.optionsFirst = decide (.optionsFirst ∈ xs) :=
    Bool.eq_iff_iff.2 ((h .optionsFirst).trans decide_eq_true_iff.symm)
  rw [configOf, hnoHelp, hversion, hoptionsFirst, decide_not]

theorem formatOf_eq (h : ∀ x, s.Has x ↔ x ∈ xs) : formatOf xs = s.format.getD .json := by
  have hformat : xs.findSome? Setting.format? = s.format := by
    refine findSome?_eq fun f => (h (.format f)).trans ?_
    simp only [Setting.format?_eq_some_iff, exists_eq_right]
  rw [formatOf, hformat]

namespace CommandLine

theorem acceptsAll (h : CommandLine c path xs argv args) : AcceptsAll c {} xs :=
  ⟨fun x hx => ⟨h.isOf x hx, isGiven_empty x⟩, h.once⟩

theorem has_foldl_give (h : CommandLine c path xs argv args) (x : Setting) :
    (xs.foldl give {}).Has x ↔ x ∈ xs := by
  rw [h.acceptsAll.has_foldl_give]
  exact or_iff_left (not_has_empty x)

/-- The request of a command line is what its options and arguments say. Arguments behind `--` are
refused where the command has none. -/
theorem request?_eq (h : CommandLine c path xs argv args) :
    request? args = if c = .inspect ∧ argv ≠ [] then none
      else some ⟨c, path, formatOf xs, configOf xs, argv⟩ := by
  obtain ⟨tokens, rest, hspells, hfollows, rfl⟩ := h.spelled
  have hread : Settings.read? c (tokens ++ rest) {} = some (xs.foldl give {}, argv) := by
    rw [hspells.read?_append h.acceptsAll, hfollows.read?_eq]
  have hdoc : (xs.foldl give {}).doc = some path := (h.has_foldl_give (.doc path)).2 h.doc
  rw [configOf_eq h.has_foldl_give, formatOf_eq h.has_foldl_give]
  simp [request?, Command.ofName?_name, hread, hdoc]

theorem request?_perm (hx : CommandLine c path xs argv args)
    (hy : CommandLine c path ys argv args') (hperm : ys.Perm xs) :
    request? args' = request? args := by
  have hgiven : ys.foldl give {} = xs.foldl give {} :=
    eq_of_has fun x => by rw [hy.has_foldl_give, hx.has_foldl_give, hperm.mem_iff]
  rw [hy.request?_eq, hx.request?_eq, configOf_eq hy.has_foldl_give, configOf_eq hx.has_foldl_give,
    formatOf_eq hy.has_foldl_give, formatOf_eq hx.has_foldl_give, hgiven]

end CommandLine

theorem commandLine_of_request? {r : Request} (h : request? args = some r) :
    ∃ xs, CommandLine r.command r.doc xs r.argv args ∧ (r.command = .inspect → r.argv = []) := by
  cases args with
  | nil => cases h
  | cons name args =>
    obtain ⟨c, hname, hcommand⟩ := Option.bind_eq_some_iff.1 h
    obtain ⟨⟨t, argv⟩, hread, hsettings⟩ := Option.bind_eq_some_iff.1 hcommand
    obtain ⟨path, hpath, hrequest⟩ := Option.bind_eq_some_iff.1 hsettings
    obtain ⟨xs, tokens, rest, hspells, hxs, rfl, rfl, hfollows⟩ := exists_spells_of_read? hread
    by_cases hrefused : c = .inspect ∧ argv ≠ []
    · rw [if_pos hrefused] at hrequest
      cases hrequest
    · rw [if_neg hrefused] at hrequest
      cases hrequest
      have hdoc : .doc path ∈ xs ∨ ({} : Settings).Has (.doc path) := hxs.has_foldl_give.1 hpath
      refine ⟨xs, ⟨?_, fun x hx => (hxs.accepts x hx).isOf, hxs.once, tokens, rest, hspells,
        hfollows, ?_⟩, fun hinspect => ?_⟩
      · exact hdoc.resolve_right (not_has_empty (.doc path))
      · rw [Command.name_of_ofName? hname]
      · by_contra hargv
        exact hrefused ⟨hinspect, hargv⟩

/-! ## What is answered -/

/-- The text with a newline at its end, which is added only where there is none. -/
def OnLine (text out : String) : Prop :=
  out.toList.getLast? = some '\n' ∧
    (out = text ∨ text.toList.getLast? ≠ some '\n' ∧ out = text ++ "\n")

def TrimmedOnLine (text out : String) : Prop :=
  ∃ kept blanks, text.toList = kept ++ blanks ∧ (∀ c ∈ blanks, Text.isBlank c = true) ∧
    (∀ c, kept.getLast? = some c → Text.isBlank c = false) ∧ out = String.ofList kept ++ "\n"

namespace Answer

structure Succeeds (a : Answer) (Out : String → Prop) : Prop where
  success : a.success = true
  out : Out a.out
  err : a.err = ""

structure Fails (a : Answer) (e : UsageError) : Prop where
  success : a.success = false
  out : a.out = ""
  err : a.err = "error: " ++ e.display ++ "\n"

def Reports (a : Answer) (f : Report.Format) : Outcome Bindings → Prop
  | .matched b => a.Succeeds (OnLine (Report.ofBindings b f))
  | .help text => a.Succeeds (TrimmedOnLine text)
  | .version text => a.Succeeds (TrimmedOnLine text)
  | .failed e => a.Fails e

def Lists (a : Answer) (f : Report.Format) : Except Fault (List LeafNode) → Prop
  | .ok nodes => a.Succeeds (OnLine (Report.ofNodes nodes f))
  | .error fault => a.Fails (.language fault)

theorem succeeds_text (text : String) : (Answer.text text).Succeeds (OnLine text) := by
  refine ⟨rfl, ?_, rfl⟩
  unfold Answer.text
  by_cases hlast : text.toList.getLast? = some '\n'
  · simp [OnLine, hlast]
  · simp [OnLine, hlast]

theorem succeeds_trimmed (text : String) :
    (Answer.trimmed text).Succeeds (TrimmedOnLine text) := by
  refine ⟨rfl, ⟨text.toList.rdropWhile Text.isBlank, text.toList.rtakeWhile Text.isBlank, ?_⟩, rfl⟩
  refine ⟨List.rdropWhile_append_rtakeWhile.symm, fun c hc => List.mem_rtakeWhile_imp hc,
    fun c hc => ?_, rfl⟩
  obtain ⟨hne, rfl⟩ := List.mem_getLast?_eq_getLast hc
  exact Bool.eq_false_iff.2 (List.rdropWhile_last_not _ _ hne)

theorem fails_error (e : UsageError) : (Answer.error e.display).Fails e :=
  ⟨rfl, rfl, rfl⟩

end Answer

theorem Request.reports_answer {r : Request} (hc : r.command = .matching) (doc : String) :
    (r.answer (.ok doc)).Reports r.format (apply doc r.argv r.config) := by
  simp only [Request.answer, hc]
  cases apply doc r.argv r.config with
  | matched b => exact Answer.succeeds_text _
  | help text => exact Answer.succeeds_trimmed text
  | version text => exact Answer.succeeds_trimmed text
  | failed e => exact Answer.fails_error e

theorem Request.lists_answer {r : Request} (hc : r.command = .inspect) (doc : String) :
    (r.answer (.ok doc)).Lists r.format (leafNodes doc) := by
  simp only [Request.answer, hc]
  cases leafNodes doc with
  | ok nodes => exact Answer.succeeds_text _
  | error fault => exact Answer.fails_error (.language fault)

/-- A command line is answered as the library says, and its answer depends on the options alone, not
on how they are written. -/
theorem answered_of_commandLine (hline : CommandLine c path xs argv args)
    (hread : read path = .ok doc) :
    (c = .matching → ∃ a, answer? args read = some a ∧
      a.Reports (formatOf xs) (apply doc argv (configOf xs))) ∧
    (c = .inspect → argv = [] → ∃ a, answer? args read = some a ∧
      a.Lists (formatOf xs) (leafNodes doc)) ∧
    (c = .inspect → argv ≠ [] → answer? args read = none) ∧
    ∀ ys args', ys.Perm xs → CommandLine c path ys argv args' →
      answer? args' read = answer? args read := by
  have hrequest := hline.request?_eq
  refine ⟨fun hc => ?_, fun hc hargv => ?_, fun hc hargv => ?_, fun ys args' hperm hline' => ?_⟩
  · rw [if_neg (by simp [hc])] at hrequest
    rw [answer?, hrequest, Option.map_some, hread]
    exact ⟨_, rfl, Request.reports_answer hc doc⟩
  · rw [if_neg (by simp [hargv])] at hrequest
    rw [answer?, hrequest, Option.map_some, hread]
    exact ⟨_, rfl, Request.lists_answer hc doc⟩
  · rw [answer?, hrequest, if_pos ⟨hc, hargv⟩, Option.map_none]
  · rw [answer?, answer?, hline.request?_perm hline' hperm]

theorem answered_of_commandLine_options_first :
    CommandLine .matching "-" [.optionsFirst, .doc "-", .format .table] ["--", "--doc"]
      ["match", "--options-first", "--doc", "-", "--format=table", "--", "--", "--doc"] ∧
    ∃ a, answer? ["match", "--options-first", "--doc", "-", "--format=table", "--", "--", "--doc"]
        (Function.const String (.ok "Usage: p <a>...")) = some a ∧
      a.Reports .table (apply "Usage: p <a>..." ["--", "--doc"] { optionsFirst := true }) := by
  have hline : CommandLine .matching "-" [.optionsFirst, .doc "-", .format .table] ["--", "--doc"]
      ["match", "--options-first", "--doc", "-", "--format=table", "--", "--", "--doc"] :=
    ⟨by decide, by simp [Setting.IsOf], by decide, _, _,
      .flag rfl (.separate rfl (by decide) (.attached rfl .nil)), .arguments, rfl⟩
  have hread : Function.const String (Except.ok "Usage: p <a>...") "-" =
      (.ok "Usage: p <a>..." : Except String String) := rfl
  have hconfig : configOf [.optionsFirst, .doc "-", .format .table] = { optionsFirst := true } := by
    decide
  have hanswered := (answered_of_commandLine hline hread).1 rfl
  rw [hconfig] at hanswered
  exact ⟨hline, hanswered⟩

/-- With arguments `inspect` gives no answer, neither the names nor an error. -/
theorem inspect_refuses_arguments :
    CommandLine .inspect "-" [.doc "-"] ["x"] ["inspect", "--doc", "-", "--", "x"] ∧
      ¬∃ a, answer? ["inspect", "--doc", "-", "--", "x"] (fun _ => .ok "Usage: p x") = some a ∧
        a.Lists .json (leafNodes "Usage: p x") := by
  refine ⟨⟨by decide, by simp [Setting.IsOf], by decide, _, _, .separate rfl (by decide) .nil,
    .arguments, rfl⟩, ?_⟩
  rintro ⟨a, ha, -⟩
  have hrequest : request? ["inspect", "--doc", "-", "--", "x"] = none := by decide
  rw [answer?, hrequest] at ha
  cases ha

end Synopsis.Tool
