import Mathlib.Data.List.Forall2
import Synopsis.Text.Quoted

/-!
# Reading quoted text

The rules of quoting, one for each way in which a character is written: as itself, with a second
character behind a backslash, or by its code point. No written form begins another, and none begins
with a quote, so that a quoted text can be told from whatever stands behind it. No character that
ends a line is written as itself.
-/

namespace Synopsis.Text

/-- The characters that end a line or a paragraph. -/
def lineEnds : List Char :=
  ['\n', '\x0b', '\x0c', '\r', '\u0085', '\u2028', '\u2029']

def shortEscapes : List (Char × Char) :=
  [('"', '"'), ('\\', '\\'), ('\n', 'n'), ('\r', 'r'), ('\t', 't'), ('\x00', '0')]

def hexDigits : List Char :=
  ['0', '1', '2', '3', '4', '5', '6', '7', '8', '9', 'a', 'b', 'c', 'd', 'e', 'f']

def hexValue (cs : List Char) : Nat :=
  cs.foldl (fun n c => 16 * n + hexDigits.idxOf c) 0

/-- The numeral of a positive number in lower case hexadecimal, as short as possible. -/
structure IsHex (n : Nat) (cs : List Char) : Prop where
  digits : ∀ c ∈ cs, c ∈ hexDigits
  value : hexValue cs = n
  unpadded : cs.head? ≠ some '0'

inductive Escapes : Char → List Char → Prop
  | itself {c : Char} : shortEscapes.lookup c = none → isPrintable c = true → Escapes c [c]
  | short {c d : Char} : shortEscapes.lookup c = some d → Escapes c ['\\', d]
  | code {c : Char} {digits : List Char} : shortEscapes.lookup c = none →
      isPrintable c = false → IsHex c.toNat digits →
      Escapes c ('\\' :: 'u' :: '{' :: (digits ++ ['}']))

def Quoted (cs text : List Char) : Prop :=
  ∃ parts, List.Forall₂ Escapes cs parts ∧ text = '"' :: (parts.flatten ++ ['"'])

variable {c d : Char} {cs ds text text' rest rest' : List Char} {parts parts' : List (List Char)}
  {k n : Nat}

/-! ### Numerals -/

theorem hexDigits_digitChar (h : k < 16) :
    k.digitChar ∈ hexDigits ∧ hexDigits.idxOf k.digitChar = k := by
  revert k
  decide

theorem hexValue_concat (cs : List Char) (h : k < 16) :
    hexValue (cs ++ [k.digitChar]) = 16 * hexValue cs + k := by
  rw [hexValue, List.foldl_append, List.foldl_cons, List.foldl_nil, (hexDigits_digitChar h).2]
  rfl

theorem isHex_toDigits (h : 0 < n) : IsHex n (Nat.toDigits 16 n) := by
  induction n using Nat.base_induction 16 (by decide) with
  | single m hm =>
    rw [Nat.toDigits_of_lt_base hm]
    refine ⟨fun c hc => ?_, ?_, ?_⟩
    · rw [List.mem_singleton.1 hc]
      exact (hexDigits_digitChar hm).1
    · exact (hexValue_concat [] hm).trans (Nat.zero_add m)
    · simpa using Nat.ne_of_gt h
  | digit m k hk hm ih =>
    obtain ⟨hdigits, hvalue, hhead⟩ := ih hm
    rw [← Nat.toDigits_append_toDigits (by decide) hm hk, Nat.toDigits_of_lt_base hk]
    refine ⟨fun c hc => ?_, ?_, ?_⟩
    · rcases List.mem_append.1 hc with hc | hc
      · exact hdigits c hc
      · rw [List.mem_singleton.1 hc]
        exact (hexDigits_digitChar hk).1
    · rw [hexValue_concat _ hk, hvalue]
    · rwa [List.head?_append_of_ne_nil _ Nat.toDigits_ne_nil]

theorem IsHex.brace_not_mem (h : IsHex n cs) : '}' ∉ cs :=
  fun hmem => absurd (h.digits _ hmem) (by decide)

/-! ### Written forms -/

theorem escapes_escape (c : Char) : Escapes c (escape c) := by
  unfold escape
  split
  · exact .short rfl
  · exact .short rfl
  · exact .short rfl
  · exact .short rfl
  · exact .short rfl
  · exact .short rfl
  · next hquote hbackslash hnewline hreturn htab hnull =>
    have hlookup : shortEscapes.lookup c = none := by
      rw [List.lookup_eq_none_iff]
      simpa [shortEscapes] using ⟨hquote, hbackslash, hnewline, hreturn, htab, hnull⟩
    by_cases hprints : isPrintable c = true
    · rw [if_pos hprints]
      exact .itself hlookup hprints
    · have hpositive : 0 < c.toNat := Nat.pos_of_ne_zero fun h => hnull (Char.toNat_inj.1 h)
      rw [if_neg hprints]
      exact .code hlookup (Bool.eq_false_iff.2 hprints) (isHex_toDigits hpositive)

theorem quoted_quoteChars (cs : List Char) : Quoted cs (quoteChars cs) := by
  refine ⟨cs.map escape, ?_, rfl⟩
  rw [List.forall₂_map_right_iff]
  exact List.forall₂_same.2 fun c _ => escapes_escape c

/-! ### Telling written forms apart -/

/-- The first place of a character divides a text in one way only. -/
theorem eq_of_append_stop {stop : Char} (hcs : stop ∉ cs) (hds : stop ∉ ds)
    (h : cs ++ stop :: rest = ds ++ stop :: rest') : cs = ds ∧ rest = rest' := by
  induction cs generalizing ds with
  | nil =>
    cases ds with
    | nil => exact ⟨rfl, (List.cons.inj h).2⟩
    | cons d ds => exact absurd (List.cons.inj h).1 (List.ne_of_not_mem_cons hds)
  | cons c cs ih =>
    cases ds with
    | nil => exact absurd (List.cons.inj h).1.symm (List.ne_of_not_mem_cons hcs)
    | cons d ds =>
      obtain ⟨rfl, htail⟩ := List.cons.inj h
      obtain ⟨rfl, hrest⟩ := ih (List.not_mem_of_not_mem_cons hcs)
        (List.not_mem_of_not_mem_cons hds) htail
      exact ⟨rfl, hrest⟩

theorem mem_shortEscapes (h : shortEscapes.lookup c = some d) : (c, d) ∈ shortEscapes := by
  obtain ⟨front, back, hsplit, -⟩ := List.lookup_eq_some_iff.1 h
  rw [hsplit]
  exact List.mem_append_right _ List.mem_cons_self

theorem shortEscapes_inj : ∀ x ∈ shortEscapes, ∀ y ∈ shortEscapes, x.2 = y.2 → x.1 = y.1 := by
  decide

/-- A short escape is not taken for the beginning of a code point. -/
theorem ne_of_mem_shortEscapes : ∀ x ∈ shortEscapes, x.2 ≠ 'u' := by
  decide

theorem ne_of_lookup (h : shortEscapes.lookup c = none) : c ≠ '"' ∧ c ≠ '\\' := by
  constructor
  · rintro rfl
    cases h
  · rintro rfl
    cases h

theorem not_mem_lineEnds_of_all (h : cs.all (!lineEnds.contains ·) = true) :
    ∀ c ∈ cs, c ∉ lineEnds := by
  intro c hc
  simpa using List.all_eq_true.1 h c hc

theorem not_mem_lineEnds_of_isPrintable (h : isPrintable c = true) : c ∉ lineEnds := by
  have hends : lineEnds.all (!isPrintable ·) = true := by decide +kernel
  intro hmem
  have hhidden := List.all_eq_true.1 hends c hmem
  rw [h] at hhidden
  cases hhidden

namespace Escapes

/-- The quote that ends a text is not taken for the beginning of a written form. -/
theorem exists_cons (h : Escapes c text) : ∃ x xs, text = x :: xs ∧ x ≠ '"' := by
  cases h with
  | itself hlookup _ => exact ⟨c, [], rfl, (ne_of_lookup hlookup).1⟩
  | short _ => exact ⟨'\\', _, rfl, by decide⟩
  | code _ _ _ => exact ⟨'\\', _, rfl, by decide⟩

/-- No written form begins another one. -/
theorem append_inj (h : Escapes c text) (h' : Escapes d text')
    (heq : text ++ rest = text' ++ rest') : c = d ∧ rest = rest' := by
  cases h with
  | itself hlookup _ =>
    cases h' with
    | itself _ _ => exact List.cons.inj heq
    | short _ => exact absurd (List.cons.inj heq).1 (ne_of_lookup hlookup).2
    | code _ _ _ => exact absurd (List.cons.inj heq).1 (ne_of_lookup hlookup).2
  | short hc =>
    have hshort := mem_shortEscapes hc
    cases h' with
    | itself hlookup _ => exact absurd (List.cons.inj heq).1.symm (ne_of_lookup hlookup).2
    | short hd =>
      obtain ⟨rfl, hrest⟩ := List.cons.inj (List.cons.inj heq).2
      exact ⟨shortEscapes_inj _ hshort _ (mem_shortEscapes hd) rfl, hrest⟩
    | code _ _ _ =>
      have hu := (List.cons.inj (List.cons.inj heq).2).1
      exact absurd hu (ne_of_mem_shortEscapes _ hshort)
  | code _ _ hc =>
    cases h' with
    | itself hlookup _ => exact absurd (List.cons.inj heq).1.symm (ne_of_lookup hlookup).2
    | short hd =>
      have hu := (List.cons.inj (List.cons.inj heq).2).1
      exact absurd hu.symm (ne_of_mem_shortEscapes _ (mem_shortEscapes hd))
    | code _ _ hd =>
      simp only [List.cons_append, List.append_assoc, List.nil_append, List.cons.injEq,
        true_and] at heq
      obtain ⟨rfl, hrest⟩ := eq_of_append_stop hc.brace_not_mem hd.brace_not_mem heq
      exact ⟨Char.toNat_inj.1 (hc.value.symm.trans hd.value), hrest⟩

theorem not_mem_lineEnds (h : Escapes c text) : ∀ x ∈ text, x ∉ lineEnds := by
  have hbackslash : '\\' ∉ lineEnds := by decide
  cases h with
  | itself _ hprints =>
    exact List.forall_mem_singleton.2 (not_mem_lineEnds_of_isPrintable hprints)
  | short hlookup =>
    have hends : ∀ x ∈ shortEscapes, x.2 ∉ lineEnds := by decide
    rw [List.forall_mem_cons, List.forall_mem_singleton]
    exact ⟨hbackslash, hends _ (mem_shortEscapes hlookup)⟩
  | @code digits _ _ hhex =>
    have hends : ∀ x ∈ hexDigits, x ∉ lineEnds := not_mem_lineEnds_of_all rfl
    have hdigits : ∀ x ∈ digits, x ∉ lineEnds := fun x hx => hends x (hhex.digits x hx)
    rw [List.forall_mem_cons, List.forall_mem_cons, List.forall_mem_cons,
      List.forall_mem_append, List.forall_mem_singleton]
    exact ⟨hbackslash, by decide, by decide, hdigits, by decide⟩

end Escapes

theorem eq_of_escapes (h : List.Forall₂ Escapes cs parts) (h' : List.Forall₂ Escapes ds parts')
    (heq : parts.flatten ++ '"' :: rest = parts'.flatten ++ '"' :: rest') :
    cs = ds ∧ rest = rest' := by
  induction h generalizing ds parts' with
  | nil =>
    cases h' with
    | nil => exact ⟨rfl, (List.cons.inj heq).2⟩
    | cons hd _ =>
      obtain ⟨x, xs, rfl, hx⟩ := hd.exists_cons
      exact absurd (List.cons.inj heq).1.symm hx
  | cons hc _ ih =>
    cases h' with
    | nil =>
      obtain ⟨x, xs, rfl, hx⟩ := hc.exists_cons
      exact absurd (List.cons.inj heq).1 hx
    | cons hd htail =>
      rw [List.flatten_cons, List.flatten_cons, List.append_assoc, List.append_assoc] at heq
      obtain ⟨rfl, heq⟩ := hc.append_inj hd heq
      obtain ⟨rfl, hrest⟩ := ih htail heq
      exact ⟨rfl, hrest⟩

namespace Quoted

theorem append_inj (h : Quoted cs text) (h' : Quoted ds text')
    (heq : text ++ rest = text' ++ rest') : cs = ds ∧ rest = rest' := by
  obtain ⟨parts, hparts, rfl⟩ := h
  obtain ⟨parts', hparts', rfl⟩ := h'
  rw [List.cons_append, List.cons_append, List.append_assoc, List.append_assoc] at heq
  exact eq_of_escapes hparts hparts' (List.cons.inj heq).2

theorem not_mem_lineEnds (h : Quoted cs text) : ∀ x ∈ text, x ∉ lineEnds := by
  obtain ⟨parts, hparts, rfl⟩ := h
  have hquote : '"' ∉ lineEnds := by decide
  have hflat : ∀ x ∈ parts.flatten, x ∉ lineEnds := by
    induction hparts with
    | nil => simp
    | cons hc _ ih =>
      rw [List.flatten_cons, List.forall_mem_append]
      exact ⟨hc.not_mem_lineEnds, ih⟩
  rw [List.forall_mem_cons, List.forall_mem_append, List.forall_mem_singleton]
  exact ⟨hquote, hflat, hquote⟩

end Quoted

end Synopsis.Text
