import Synopsis.Proofs.Text.Quoted
import Synopsis.Value

/-!
# Telling displayed values apart

The first character of a displayed value tells its kind, and among the values of one kind no two are
displayed alike: quoted texts in a list end where their closing quotes are, so that the list can be
divided in one way only. A displayed value stays on one line.
-/

namespace Synopsis.Value

open Text (Quoted lineEnds quoteChars)

variable {v w : Value} {xs ys parts parts' : List (List Char)}

/-- Values are shown on one line and can be told apart, and texts are shown in quotes. -/
structure Legible (shown : Value → String) : Prop where
  injective : Function.Injective shown
  oneLine : ∀ v, ∀ c ∈ (shown v).toList, c ∉ lineEnds
  quoted : ∀ s, Quoted s.toList (shown (.text s)).toList
  listed : ∀ l, ∃ parts, List.Forall₂ Quoted (l.map String.toList) parts ∧
    (shown (.items l)).toList = '[' :: ([',', ' '].intercalate parts ++ [']'])

def kindOfFirst (c : Char) : ValueKind :=
  if c = 'n' then .absent
  else if c = 't' ∨ c = 'f' then .flag
  else if c = '"' then .text
  else if c = '[' then .items
  else .count

/-! ### Lists of quoted texts -/

theorem intercalate_cons (part : List Char) (parts : List (List Char)) :
    [',', ' '].intercalate (part :: parts) = part ++ parts.flatMap ([',', ' '] ++ ·) := by
  induction parts generalizing part with
  | nil => rw [List.intercalate_singleton, List.flatMap_nil, List.append_nil]
  | cons next parts ih =>
    rw [List.intercalate_cons_cons, ih next, List.flatMap_cons, List.append_assoc,
      List.append_assoc]

theorem toList_display_text (s : String) : (text s).display.toList = quoteChars s.toList :=
  String.toList_ofList

theorem toList_display_items (l : List String) :
    (items l).display.toList =
      '[' :: ([',', ' '].intercalate ((l.map String.toList).map quoteChars) ++ [']']) := by
  have hquote : String.toList ∘ Text.quote = quoteChars ∘ String.toList :=
    funext toList_display_text
  simp only [display, String.toList_append, String.toList_intercalate, List.map_map, hquote]
  rfl

theorem forall₂_quoted (xs : List (List Char)) : List.Forall₂ Quoted xs (xs.map quoteChars) := by
  rw [List.forall₂_map_right_iff]
  exact List.forall₂_same.2 fun cs _ => Text.quoted_quoteChars cs

theorem eq_of_separated (h : List.Forall₂ Quoted xs parts) (h' : List.Forall₂ Quoted ys parts')
    (heq : parts.flatMap ([',', ' '] ++ ·) ++ [']'] = parts'.flatMap ([',', ' '] ++ ·) ++ [']']) :
    xs = ys := by
  induction h generalizing ys parts' with
  | nil =>
    cases h' with
    | nil => rfl
    | cons _ _ => exact absurd (List.cons.inj heq).1 (by decide)
  | cons hx _ ih =>
    cases h' with
    | nil => exact absurd (List.cons.inj heq).1 (by decide)
    | cons hy hys =>
      simp only [List.flatMap_cons, List.append_assoc] at heq
      obtain ⟨rfl, htail⟩ := hx.append_inj hy (List.append_cancel_left heq)
      rw [ih hys htail]

theorem eq_of_listed (h : List.Forall₂ Quoted xs parts) (h' : List.Forall₂ Quoted ys parts')
    (heq : [',', ' '].intercalate parts ++ [']'] = [',', ' '].intercalate parts' ++ [']']) :
    xs = ys := by
  cases h with
  | nil =>
    cases h' with
    | nil => rfl
    | cons hy _ =>
      obtain ⟨_, _, rfl⟩ := hy
      rw [intercalate_cons] at heq
      exact absurd (List.cons.inj heq).1 (by decide)
  | cons hx hxs =>
    cases h' with
    | nil =>
      obtain ⟨_, _, rfl⟩ := hx
      rw [intercalate_cons] at heq
      exact absurd (List.cons.inj heq).1 (by decide)
    | cons hy hys =>
      rw [intercalate_cons, intercalate_cons, List.append_assoc, List.append_assoc] at heq
      obtain ⟨rfl, htail⟩ := hx.append_inj hy heq
      rw [eq_of_separated hxs hys htail]

theorem not_mem_lineEnds_intercalate (xs : List (List Char)) :
    ∀ c ∈ [',', ' '].intercalate (xs.map quoteChars), c ∉ lineEnds := by
  have hquoted (cs : List Char) : ∀ c ∈ quoteChars cs, c ∉ lineEnds :=
    (Text.quoted_quoteChars cs).not_mem_lineEnds
  have hseparator : ∀ c ∈ [',', ' '], c ∉ lineEnds := Text.not_mem_lineEnds_of_all rfl
  cases xs with
  | nil => simp
  | cons cs xs =>
    rw [List.map_cons, intercalate_cons, List.forall_mem_append]
    refine ⟨hquoted cs, fun c hc => ?_⟩
    obtain ⟨part, hpart, hc⟩ := List.mem_flatMap.1 hc
    obtain ⟨ds, -, rfl⟩ := List.mem_map.1 hpart
    exact (List.mem_append.1 hc).elim (hseparator c) (hquoted ds c)

/-! ### Values -/

theorem kindOfFirst_of_isDigit {c : Char} (h : c.isDigit = true) : kindOfFirst c = .count := by
  have hne {d : Char} (hd : d.isDigit = false) : c ≠ d := by
    rintro rfl
    rw [hd] at h
    cases h
  rw [kindOfFirst, if_neg (hne rfl), if_neg (not_or.2 ⟨hne rfl, hne rfl⟩), if_neg (hne rfl),
    if_neg (hne rfl)]

theorem isDigit_of_mem_display {n : Nat} {c : Char} (h : c ∈ (count n).display.toList) :
    c.isDigit = true := by
  rw [display, Nat.toString_eq_repr, Nat.toList_repr] at h
  exact Nat.isDigit_of_mem_toDigits (by decide) (by decide) h

theorem exists_display_cons (v : Value) :
    ∃ c cs, v.display.toList = c :: cs ∧ kindOfFirst c = v.kind := by
  cases v with
  | absent => exact ⟨'n', _, rfl, rfl⟩
  | flag on =>
    cases on with
    | false => exact ⟨'f', _, rfl, rfl⟩
    | true => exact ⟨'t', _, rfl, rfl⟩
  | text s => exact ⟨'"', _, toList_display_text s, rfl⟩
  | items l => exact ⟨'[', _, toList_display_items l, rfl⟩
  | count n =>
    obtain ⟨c, cs, hcons⟩ := List.exists_cons_of_ne_nil (l := (count n).display.toList) (by
      rw [display, Nat.toString_eq_repr, Nat.toList_repr]
      exact Nat.toDigits_ne_nil)
    refine ⟨c, cs, hcons, kindOfFirst_of_isDigit (isDigit_of_mem_display (n := n) ?_)⟩
    rw [hcons]
    exact List.mem_cons_self

theorem kind_eq_of_display (h : v.display = w.display) : v.kind = w.kind := by
  obtain ⟨c, cs, hv, hc⟩ := exists_display_cons v
  obtain ⟨d, ds, hw, hd⟩ := exists_display_cons w
  rw [h, hw] at hv
  rw [← hc, ← hd, (List.cons.inj hv).1]

theorem display_injective : Function.Injective display := by
  intro v w h
  have hkind := kind_eq_of_display h
  have hlist : v.display.toList = w.display.toList := congrArg String.toList h
  cases v with
  | absent =>
    cases w with
    | absent => rfl
    | _ => cases hkind
  | flag on =>
    cases w with
    | flag other =>
      revert h
      cases on <;> cases other <;> decide
    | _ => cases hkind
  | text s =>
    cases w with
    | text t =>
      rw [toList_display_text, toList_display_text, ← List.append_nil (quoteChars s.toList),
        ← List.append_nil (quoteChars t.toList)] at hlist
      have hchars := ((Text.quoted_quoteChars _).append_inj (Text.quoted_quoteChars _) hlist).1
      rw [String.toList_inj.1 hchars]
    | _ => cases hkind
  | items l =>
    cases w with
    | items m =>
      rw [toList_display_items, toList_display_items] at hlist
      have hchars := eq_of_listed (forall₂_quoted _) (forall₂_quoted _) (List.cons.inj hlist).2
      have htexts : Function.Injective String.toList := fun _ _ => String.toList_inj.1
      rw [List.map_injective_iff.2 htexts hchars]
    | _ => cases hkind
  | count m =>
    cases w with
    | count n =>
      have hdigits : Nat.toDigits 10 m = Nat.toDigits 10 n := by
        simpa only [display, Nat.toString_eq_repr, Nat.toList_repr] using hlist
      have hnumbers := congrArg (fun digits => Nat.ofDigitChars 10 digits 0) hdigits
      simp only [Nat.ofDigitChars_ten_toDigits] at hnumbers
      rw [hnumbers]
    | _ => cases hkind

/-- The word `null`, not quoted, is kept for names without a value. -/
theorem display_eq_null_iff : v.display = "null" ↔ v.isAbsent = true := by
  have hnull : absent.display = "null" := rfl
  rw [← hnull, display_injective.eq_iff]
  cases v <;> simp [isAbsent]

theorem not_mem_lineEnds_display (v : Value) : ∀ c ∈ v.display.toList, c ∉ lineEnds := by
  cases v with
  | absent => exact Text.not_mem_lineEnds_of_all rfl
  | flag on =>
    cases on with
    | false => exact Text.not_mem_lineEnds_of_all rfl
    | true => exact Text.not_mem_lineEnds_of_all rfl
  | text s =>
    rw [toList_display_text]
    exact (Text.quoted_quoteChars _).not_mem_lineEnds
  | items l =>
    rw [toList_display_items, List.forall_mem_cons, List.forall_mem_append,
      List.forall_mem_singleton]
    exact ⟨by decide, not_mem_lineEnds_intercalate _, by decide⟩
  | count n =>
    have hends : lineEnds.all (!Char.isDigit ·) = true := rfl
    intro c hc hmem
    have hother := List.all_eq_true.1 hends c hmem
    rw [isDigit_of_mem_display hc] at hother
    cases hother

theorem legible_display : Legible display where
  injective := display_injective
  oneLine := not_mem_lineEnds_display
  quoted s := by
    rw [toList_display_text]
    exact Text.quoted_quoteChars _
  listed l := ⟨_, forall₂_quoted _, toList_display_items l⟩

end Synopsis.Value
