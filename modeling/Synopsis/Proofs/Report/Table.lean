import Synopsis.Proofs.Layout.Lines
import Synopsis.Proofs.Value.Display
import Synopsis.Report.Format

/-!
# The lines of a table

A table of bindings has a line for each binding, in the order of the names. No name has more
characters than bytes, so that its padding, which counts characters, always reaches the column that
is given by the longest name in bytes. No line is broken by the value in it.
-/

namespace Synopsis.Report.Table

variable {width : Nat} {name : String} {names : List String} {entry : String × Value}

def longest (names : List String) : Nat :=
  (names.map String.utf8ByteSize).max?.getD 0

/-- The line of a binding, whose value begins two columns past the width. -/
structure Row (width : Nat) (entry : String × Value) (line : List Char) : Prop where
  aligned : ∃ padding : List Char, (∀ c ∈ padding, c = ' ') ∧
    (entry.1.toList ++ padding).length = width + 2 ∧
    line = entry.1.toList ++ padding ++ entry.2.display.toList
  unbroken : ∀ c ∈ line, c ∈ Text.lineEnds → c ∈ entry.1.toList

/-- The text has one line for each binding, in the order of the names, and all values begin in the
same column. -/
structure Tabulates (entries : List (String × Value)) (text : List Char) : Prop where
  ordered : entries.Pairwise (·.1 < ·.1)
  rows : ∃ rows, Layout.lines text = rows.map (· ++ ['\n']) ∧
    List.Forall₂ (Row (longest (entries.map Prod.fst))) entries rows

def rowOf (width : Nat) (entry : String × Value) : List Char :=
  (padTo width entry.1).toList ++ [' ', ' '] ++ entry.2.display.toList

theorem toList_padTo (width : Nat) (name : String) :
    (padTo width name).toList = name.toList ++ List.replicate (width - name.length) ' ' := by
  rw [padTo, String.toList_append, String.toList_ofList]

theorem length_le_utf8ByteSize_ofList (cs : List Char) :
    cs.length ≤ (String.ofList cs).utf8ByteSize := by
  induction cs with
  | nil => exact Nat.zero_le _
  | cons c cs ih =>
    have hbyte : 0 < c.utf8Size := c.utf8Size_pos
    rw [String.ofList_cons, String.utf8ByteSize_append, String.utf8ByteSize_singleton,
      List.length_cons]
    omega

theorem length_le_utf8ByteSize (name : String) : name.length ≤ name.utf8ByteSize := by
  have hle := length_le_utf8ByteSize_ofList name.toList
  rwa [String.ofList_toList, String.length_toList] at hle

theorem row_rowOf (h : entry.1.utf8ByteSize ≤ width) : Row width entry (rowOf width entry) := by
  have hlength : entry.1.length ≤ width := Nat.le_trans (length_le_utf8ByteSize entry.1) h
  have hspace : ' ' ∉ Text.lineEnds := by decide
  let padding : List Char := List.replicate (width - entry.1.length + 2) ' '
  have hpadding : ∀ c ∈ padding, c = ' ' := fun c hc => List.eq_of_mem_replicate hc
  have hspaces : List.replicate (width - entry.1.length) ' ' ++ List.replicate 2 ' ' = padding :=
    List.replicate_append_replicate
  have hrow : rowOf width entry = entry.1.toList ++ padding ++ entry.2.display.toList := by
    rw [rowOf, toList_padTo, List.append_assoc entry.1.toList, ← hspaces]
    rfl
  refine ⟨⟨padding, hpadding, ?_, hrow⟩, fun c hc hends => ?_⟩
  · rw [List.length_append, List.length_replicate, String.length_toList]
    omega
  · rw [hrow, List.append_assoc] at hc
    rcases List.mem_append.1 hc with hname | hc
    · exact hname
    rcases List.mem_append.1 hc with hgap | hvalue
    · exact absurd (hpadding c hgap ▸ hends) hspace
    · exact absurd hends (entry.2.not_mem_lineEnds_display c hvalue)

theorem max?_widthOf (name : String) (names : List String) :
    ((name :: names).map String.utf8ByteSize).max? = some (widthOf (name :: names)) := by
  rw [List.map_cons, List.max?_cons', List.foldl_map]
  rfl

theorem widthOf_eq_longest (h : name ∈ names) : widthOf names = longest names := by
  cases names with
  | nil => cases h
  | cons first names =>
    rw [longest, max?_widthOf]
    rfl

theorem le_longest (h : name ∈ names) : name.utf8ByteSize ≤ longest names := by
  cases names with
  | nil => cases h
  | cons first names =>
    rw [longest, max?_widthOf, Option.getD_some]
    exact (List.max?_eq_some_iff.1 (max?_widthOf first names)).2 _ (List.mem_map_of_mem h)

theorem toList_line (width : Nat) (entry : String × Value) :
    (padTo width entry.1 ++ "  " ++ entry.2.display ++ "\n").toList =
      rowOf width entry ++ ['\n'] := by
  simp only [String.toList_append]
  rfl

theorem toList_printBindings (b : Bindings) : (printBindings b).toList =
    (b.toList.map (rowOf (widthOf (b.toList.map Prod.fst)))).flatMap (· ++ ['\n']) := by
  rw [printBindings, String.toList_join, List.flatMap_map, List.flatMap_map]
  exact congrArg (List.flatMap · b.toList) (funext fun entry => toList_line _ entry)

/-- Every binding has a line of its own in the table, and from the line its value can be told. -/
theorem legible_table (b : Bindings) (hnames : ∀ entry ∈ b.toList, '\n' ∉ entry.1.toList) :
    Value.Legible Value.display ∧ Tabulates b.toList (ofBindings b .table).toList := by
  let names : List String := b.toList.map Prod.fst
  have hrow : ∀ entry ∈ b.toList, Row (longest names) entry (rowOf (widthOf names) entry) := by
    intro entry hentry
    have hname : entry.1 ∈ names := List.mem_map_of_mem hentry
    rw [widthOf_eq_longest hname]
    exact row_rowOf (le_longest hname)
  have hunbroken : ∀ line ∈ b.toList.map (rowOf (widthOf names)), '\n' ∉ line := by
    intro line hline hnewline
    obtain ⟨entry, hentry, rfl⟩ := List.mem_map.1 hline
    exact hnames entry hentry ((hrow entry hentry).unbroken _ hnewline (by decide))
  have hlines : Layout.lines (ofBindings b .table).toList =
      (b.toList.map (rowOf (widthOf names))).map (· ++ ['\n']) := by
    rw [ofBindings, toList_printBindings]
    exact Layout.lines_flatMap hunbroken
  exact ⟨Value.legible_display, b.sorted, _, hlines,
    List.forall₂_map_right_iff.2 (List.forall₂_same.2 hrow)⟩

def accented : Bindings :=
  (Bindings.empty.insert "é" (.items ["a, \"b", "\n"])).insert "--out" (.text "\u2028")

theorem legible_table_accented :
    (∀ entry ∈ accented.toList, '\n' ∉ entry.1.toList) ∧
      Value.Legible Value.display ∧
      Tabulates accented.toList (ofBindings accented .table).toList := by
  have hnames : ∀ entry ∈ accented.toList, '\n' ∉ entry.1.toList := by decide +kernel
  exact ⟨hnames, legible_table accented hnames⟩

end Synopsis.Report.Table
