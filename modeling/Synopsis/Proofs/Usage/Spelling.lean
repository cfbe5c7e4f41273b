import Synopsis.Proofs.OptionToken.Spelling
import Synopsis.Proofs.Usage.Reader
import Synopsis.Proofs.Usage.Tokens

/-!
# How slots are spelled

An argument and a command are spelled as their names, and an option as a name that only it has,
with a value if it takes one. Reading the spelling of a slot adds the slot to the sequence that is
being read, and leaves the registry as it is.
-/

namespace Synopsis

namespace Usage

variable {cs : List Char} {name : String}

inductive IsArgumentWord (name : String) : Prop
  | placeholder {word : List Char} : name.toList = '<' :: (word ++ ['>']) → PlainWord word →
      '>' ∉ word → IsArgumentWord name
  | upper : isArgumentName name = true → name.toList.head? ≠ some '-' → PlainWord name.toList →
      IsArgumentWord name

structure IsCommandWord (name : String) : Prop where
  nonempty : name ≠ ""
  shortcut : name ≠ "options"
  argument : isArgumentName name = false
  dash : name.toList.head? ≠ some '-'
  plain : PlainWord name.toList

theorem PlainWord.dash (h : PlainWord cs) : PlainWord ('-' :: cs) :=
  h.cons (by decide) (by decide) (by decide) (by decide)

theorem IsArgumentWord.isArgumentName (h : IsArgumentWord name) : isArgumentName name = true := by
  cases h with
  | placeholder hname _ _ => simp [Usage.isArgumentName, hname, List.getLast?_cons]
  | upper hname _ _ => exact hname

theorem IsArgumentWord.whole (h : IsArgumentWord name) : Whole name.toList := by
  cases h with
  | placeholder hname hplain hclose =>
    rw [hname]
    exact .placeholder plainWord_nil hplain hclose
  | upper hname _ hplain =>
    refine .word ?_ hplain
    intro hnil
    simp [Usage.isArgumentName, hnil] at hname

theorem IsCommandWord.whole (h : IsCommandWord name) : Whole name.toList :=
  .word (fun hnil => h.nonempty (String.toList_eq_nil_iff.1 hnil)) h.plain

def reserved : List String :=
  ["(", "[", ")", "]", "|", "...", "options"]

/-- A token that is not reserved is an option, an argument or a command. -/
theorem Lexeme.ofToken_word {token : String} (h : token ∉ reserved) :
    ofToken token = if OptionToken.isOption token then .option
      else if isArgumentName token then .argument else .command := by
  simp only [reserved, List.mem_cons, List.not_mem_nil, or_false, not_or] at h
  obtain ⟨h₁, h₂, h₃, h₄, h₅, h₆, h₇⟩ := h
  rw [ofToken, if_neg h₁, if_neg h₂, if_neg h₃, if_neg h₄, if_neg h₅, if_neg h₆, if_neg h₇]

theorem Lexeme.ofToken_option {token : String} (h : OptionToken.isOption token = true) :
    ofToken token = .option := by
  have hreserved : ∀ t ∈ reserved, OptionToken.isOption t = false := by decide
  rw [ofToken_word fun hmem => Bool.noConfusion ((hreserved _ hmem).symm.trans h), if_pos h]

theorem isOption_eq_false {token : String} (h : token.toList.head? ≠ some '-') :
    OptionToken.isOption token = false := by
  simp [OptionToken.isOption, h]

theorem IsArgumentWord.ofToken (h : IsArgumentWord name) : Lexeme.ofToken name = .argument := by
  have hargument := h.isArgumentName
  have hreserved : ∀ t ∈ reserved, Usage.isArgumentName t = false := by decide
  have hdash : name.toList.head? ≠ some '-' := by
    cases h with
    | placeholder hname _ _ => simp [hname]
    | upper _ hdash _ => exact hdash
  have hword : name ∉ reserved := by
    intro hmem
    have hother := hreserved name hmem
    rw [hargument] at hother
    cases hother
  rw [Lexeme.ofToken_word hword, isOption_eq_false hdash, hargument]
  rfl

theorem IsCommandWord.ofToken (h : IsCommandWord name) : Lexeme.ofToken name = .command := by
  have hreserved : ∀ t ∈ reserved, t.toList.any isGrouping = true ∨ t = "..." ∨ t = "options" := by
    decide
  rw [Lexeme.ofToken_word, isOption_eq_false h.dash, h.argument]
  · rfl
  · intro hmem
    rcases hreserved _ hmem with hgrouping | rfl | hshortcut
    · obtain ⟨c, hc, hgrouping⟩ := List.any_eq_true.1 hgrouping
      exact Bool.noConfusion ((h.plain.grouping c hc).symm.trans hgrouping)
    · exact h.plain.ellipsis (List.infix_refl _)
    · exact h.shortcut hshortcut

end Usage

open Usage

/-- Only this option has the name, the long one or, without it, the short one. -/
inductive Registry.Prints (options : Registry) (id : OptionId) : List Char → Prop
  | long {word : List Char} : word ≠ [] → '=' ∉ word → PlainWord word →
      options.longIds (String.ofList ('-' :: '-' :: word)) = [id] →
      Prints options id ('-' :: '-' :: word)
  | short {c : Char} : (options.spec id).long = none → c ≠ '-' → PlainWord [c] →
      options.shortIds (String.ofList ['-', c]) = [id] → Prints options id ['-', c]

/-- The slot has no default of its own and a name that can be written down. -/
inductive Slot.Printable (options : Registry) : Slot → Prop
  | argument {name : String} : IsArgumentWord name → Printable options (.argument name .absent)
  | command {name : String} : IsCommandWord name → Printable options (.command name (.flag false))
  | option {id : OptionId} {cs : List Char} : options.Prints id cs → Printable options (.option id)

/-- The tokens that stand for a slot. The value of an option can be any text that is whole. -/
inductive Slot.Spelled (options : Registry) : Slot → List String → Prop
  | argument {name : String} : IsArgumentWord name →
      Spelled options (.argument name .absent) [name]
  | command {name : String} : IsCommandWord name →
      Spelled options (.command name (.flag false)) [name]
  | flag {id : OptionId} {cs : List Char} : options.Prints id cs →
      (options.spec id).takesValue = false → Spelled options (.option id) [String.ofList cs]
  | apart {id : OptionId} {cs : List Char} {value : String} : options.Prints id cs →
      (options.spec id).takesValue = true → value ≠ "--" → Whole value.toList →
      Spelled options (.option id) [String.ofList cs, value]
  | equals {id : OptionId} {word value : List Char} : options.Prints id ('-' :: '-' :: word) →
      (options.spec id).takesValue = true → Whole ('-' :: '-' :: (word ++ '=' :: value)) →
      Spelled options (.option id) [String.ofList ('-' :: '-' :: (word ++ '=' :: value))]
  | attached {id : OptionId} {c : Char} {value : List Char} : options.Prints id ['-', c] →
      (options.spec id).takesValue = true → value ≠ [] → Whole ('-' :: c :: value) →
      Spelled options (.option id) [String.ofList ('-' :: c :: value)]

variable {options : Registry} {id : OptionId} {cs : List Char} {slot : Slot} {tokens : List String}

theorem Registry.Prints.whole (h : options.Prints id cs) : Whole cs := by
  cases h with
  | long _ _ hplain _ => exact .word (List.cons_ne_nil _ _) hplain.dash.dash
  | short _ _ hplain _ => exact .word (List.cons_ne_nil _ _) hplain.dash

theorem Slot.Spelled.whole (h : slot.Spelled options tokens) : ∀ t ∈ tokens, Whole t.toList := by
  cases h with
  | argument hname => exact List.forall_mem_singleton.2 hname.whole
  | command hname => exact List.forall_mem_singleton.2 hname.whole
  | flag hprints _ =>
    exact List.forall_mem_singleton.2 (String.toList_ofList ▸ hprints.whole)
  | apart hprints _ _ hvalue =>
    exact List.forall_mem_cons.2 ⟨String.toList_ofList ▸ hprints.whole,
      List.forall_mem_singleton.2 hvalue⟩
  | equals _ _ hwhole => exact List.forall_mem_singleton.2 (String.toList_ofList ▸ hwhole)
  | attached _ _ _ hwhole => exact List.forall_mem_singleton.2 (String.toList_ofList ▸ hwhole)

theorem Slot.Printable.exists_spelled (h : slot.Printable options) :
    ∃ tokens, slot.Spelled options tokens := by
  cases h with
  | argument hname => exact ⟨_, .argument hname⟩
  | command hname => exact ⟨_, .command hname⟩
  | @option id cs hprints =>
    cases hvalued : (options.spec id).takesValue with
    | false => exact ⟨_, .flag hprints hvalued⟩
    | true =>
      have hvalue : Whole "V".toList :=
        .word (by decide) (plainWord_of_all (by decide))
      exact ⟨_, .apart hprints hvalued (by decide) hvalue⟩

namespace Usage.Reader

variable {reader : Reader} {token : String} {rest : List String} {r : Registry}

theorem run_read_option {reading : OptionToken.Reading} (hwaiting : reader.waiting = none)
    (hended : reader.frame.ended = false) (hoption : OptionToken.isOption token = true)
    (hread : (OptionToken.read .language token).run r = .ok reading r) :
    (read (token :: rest) reader).run r = (read rest
      { reader.add (reading.ids.map .option) with waiting := reading.waiting }).run r :=
  run_read_cons hwaiting (Steps.option (Lexeme.ofToken_option hoption) hended hread).run_step

end Usage.Reader

open Usage.Reader

variable {reader : Reader} {rest : List String}

theorem Registry.Prints.isOption (h : options.Prints id cs) :
    OptionToken.isOption (String.ofList cs) = true := by
  cases h with
  | long hne _ _ _ => exact OptionToken.isOption_long hne
  | short _ hc _ _ => exact OptionToken.isOption_short hc []

theorem Registry.Prints.exists_read (h : options.Prints id cs) :
    ∃ name, (OptionToken.read .language (String.ofList cs)).run options =
      .ok (.bare options id name) options := by
  cases h with
  | long _ hequals _ hids =>
    exact ⟨_, OptionToken.run_read_long hequals (OptionToken.candidates_of_longIds hids _)⟩
  | short _ hc _ hids => exact ⟨_, OptionToken.run_read_short hc hids _⟩

theorem Slot.Spelled.run_read (h : slot.Spelled options tokens) (hwaiting : reader.waiting = none)
    (hended : reader.frame.ended = false) :
    (read (tokens ++ rest) reader).run options =
      (read rest (reader.add [.leaf slot])).run options := by
  obtain ⟨outer, frame, waiting⟩ := reader
  obtain rfl : waiting = none := hwaiting
  cases h with
  | @argument name hname =>
    have hword : word? { outer, frame } name = some (.argument name) := by
      rw [word?, hname.ofToken]
    exact run_read_cons rfl (Steps.word hword hended).run_step
  | @command name hname =>
    have hword : word? { outer, frame } name = some (.command name) := by
      rw [word?, hname.ofToken]
    exact run_read_cons rfl (Steps.word hword hended).run_step
  | flag hprints hvalued =>
    obtain ⟨name, hread⟩ := hprints.exists_read
    rw [OptionToken.Reading.bare, hvalued] at hread
    exact run_read_option rfl hended hprints.isOption hread
  | apart hprints hvalued hvalue _ =>
    obtain ⟨name, hread⟩ := hprints.exists_read
    rw [OptionToken.Reading.bare, if_pos hvalued] at hread
    exact (run_read_option rfl hended hprints.isOption hread).trans (run_read_value rfl hvalue)
  | @equals id word value hprints hvalued _ =>
    cases hprints with
    | long _ hequals _ hids =>
      have hread := OptionToken.run_read_long_value hequals
        (OptionToken.candidates_of_longIds hids .language) value
      rw [if_pos hvalued] at hread
      exact run_read_option rfl hended (OptionToken.isOption_long (by simp)) hread
    | short _ hc _ _ => exact absurd rfl hc
  | @attached id c value hprints hvalued hvalue _ =>
    cases hprints with
    | long hne _ _ _ => exact absurd rfl hne
    | short _ hc _ hids =>
      have hread := OptionToken.run_read_short_value hc hids hvalued hvalue .language
      exact run_read_option rfl hended (OptionToken.isOption_short hc value) hread

end Synopsis
