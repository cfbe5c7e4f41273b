import Mathlib.Data.List.TakeWhile
import Synopsis.Layout.Section

/-!
# Lines and blocks of lines

A text is the sequence of its lines, each with the newline that ends it. From the top, a line that
opens a block begins one, the block takes the lines behind it as long as they go on with it, and the
search for the next block starts there. The blocks stand one after the other in the order of the
lines, and between them is no line that would open a block.
-/

namespace Synopsis.Layout

variable {opens goesOn : List Char → Bool} {line content body cs : List Char}
  {ls ms : List (List Char)} {c d : Char}

/-- The lines of a text, each with its newline. Only the last line can be without one. -/
def lines : List Char → List (List Char)
  | [] => []
  | c :: cs =>
    if c = '\n' then [c] :: lines cs
    else match lines cs with
      | [] => [[c]]
      | line :: rest => (c :: line) :: rest

inductive AreLines : List (List Char) → Prop
  | nil : AreLines []
  | last {line : List Char} : line ≠ [] → '\n' ∉ line → AreLines [line]
  | cons {body : List Char} {ls : List (List Char)} :
      '\n' ∉ body → AreLines ls → AreLines ((body ++ ['\n']) :: ls)

def isGap (c : Char) : Bool :=
  c == ' ' || c == '\t'

/-- A carriage return stands only directly before a newline. -/
def Paired : List Char → Prop
  | [] => True
  | c :: cs => (c = '\r' → cs.head? = some '\n') ∧ Paired cs

instance decidablePaired : DecidablePred Paired
  | [] => .isTrue trivial
  | _ :: cs =>
    have := decidablePaired cs
    inferInstanceAs (Decidable (_ ∧ Paired cs))

def blocks (opens goesOn : List Char → Bool) : List (List Char) → List (List (List Char))
  | [] => []
  | line :: rest =>
    if opens line then
      (line :: rest.takeWhile goesOn) :: blocks opens goesOn (rest.dropWhile goesOn)
    else blocks opens goesOn rest
termination_by ls => ls.length
decreasing_by
  · exact Nat.lt_succ_of_le (List.length_dropWhile_le goesOn rest)
  · exact Nat.lt_succ_self rest.length

/-- The blocks are disjoint, in the order of the lines and as long as they can be, and every line
that opens a block stands in one of them. -/
inductive Covers (opens goesOn : List Char → Bool) :
    List (List Char) → List (List (List Char)) → Prop
  | nil : Covers opens goesOn [] []
  | skip {line : List Char} {ls : List (List Char)} {found : List (List (List Char))} :
      opens line = false → Covers opens goesOn ls found → Covers opens goesOn (line :: ls) found
  | block {first : List Char} {more ls : List (List Char)} {found : List (List (List Char))} :
      opens first = true → (∀ line ∈ more, goesOn line = true) →
      (∀ line ∈ ls.head?, goesOn line = false) → Covers opens goesOn ls found →
      Covers opens goesOn (first :: (more ++ ls)) ((first :: more) :: found)

/-! ### Lines of a text -/

theorem isGap_iff : isGap c = true ↔ c = ' ' ∨ c = '\t' := by
  rw [isGap, Bool.or_eq_true, beq_iff_eq, beq_iff_eq]

theorem flatten_lines (cs : List Char) : (lines cs).flatten = cs := by
  induction cs with
  | nil => rfl
  | cons c cs ih =>
    rw [lines]
    by_cases hc : c = '\n'
    · rw [if_pos hc, List.flatten_cons, ih]
      rfl
    · rw [if_neg hc]
      cases hlines : lines cs with
      | nil =>
        rw [hlines] at ih
        rw [← ih]
        rfl
      | cons line ls =>
        rw [hlines] at ih
        rw [← ih]
        rfl

theorem lines_append_newline (hbody : '\n' ∉ body) (cs : List Char) :
    lines (body ++ '\n' :: cs) = (body ++ ['\n']) :: lines cs := by
  induction body with
  | nil => exact if_pos rfl
  | cons c body ih =>
    obtain ⟨hc, hbody⟩ := not_or.1 (mt List.mem_cons.2 hbody)
    rw [List.cons_append, lines, if_neg (Ne.symm hc), ih hbody]
    rfl

theorem lines_flatMap (hls : ∀ line ∈ ls, '\n' ∉ line) :
    lines (ls.flatMap (· ++ ['\n'])) = ls.map (· ++ ['\n']) := by
  induction ls with
  | nil => rfl
  | cons line ls ih =>
    obtain ⟨hline, hls⟩ := List.forall_mem_cons.1 hls
    rw [List.flatMap_cons, List.append_assoc, List.singleton_append,
      lines_append_newline hline, ih hls, List.map_cons]

theorem areLines_lines (cs : List Char) : AreLines (lines cs) := by
  induction cs with
  | nil => exact .nil
  | cons c cs ih =>
    rw [lines]
    by_cases hc : c = '\n'
    · have hempty : '\n' ∉ ([] : List Char) := List.not_mem_nil
      rw [if_pos hc, hc]
      exact .cons hempty ih
    · have hcons {body : List Char} (hbody : '\n' ∉ body) : '\n' ∉ c :: body :=
        fun hmem => (List.mem_cons.1 hmem).elim (fun heq => hc heq.symm) hbody
      rw [if_neg hc]
      generalize lines cs = ls at ih ⊢
      cases ih with
      | nil => exact .last (List.cons_ne_nil c []) (hcons List.not_mem_nil)
      | last _ hline => exact .last (List.cons_ne_nil _ _) (hcons hline)
      | cons hbody hls => exact .cons (hcons hbody) hls

namespace AreLines

theorem ne_nil (h : AreLines (line :: ls)) : line ≠ [] := by
  cases h with
  | last hne _ => exact hne
  | cons _ _ => simp

theorem tail (h : AreLines (line :: ls)) : AreLines ls := by
  cases h with
  | last _ _ => exact .nil
  | cons _ hls => exact hls

theorem append_right (h : AreLines (ls ++ ms)) : AreLines ms := by
  induction ls with
  | nil => exact h
  | cons line ls ih => exact ih h.tail

theorem eq_newline_or (h : AreLines ([c] :: ls)) : c = '\n' ∨ ls = [] := by
  generalize hline : [c] = line at h
  cases h with
  | last _ _ => exact .inr rfl
  | @cons body _ _ _ =>
    cases body with
    | nil => exact .inl (List.cons.inj hline).1
    | cons d body => simp at hline

theorem behind (h : AreLines ((c :: d :: cs) :: ls)) : c ≠ '\n' ∧ AreLines ((d :: cs) :: ls) := by
  generalize hline : c :: d :: cs = line at h
  cases h with
  | last _ hbreak =>
    rw [← hline] at hbreak
    obtain ⟨hc, hcs⟩ := not_or.1 (mt List.mem_cons.2 hbreak)
    exact ⟨Ne.symm hc, .last (List.cons_ne_nil d cs) hcs⟩
  | @cons body _ hbody hls =>
    cases body with
    | nil => simp at hline
    | cons b body =>
      obtain ⟨rfl, hrest⟩ := List.cons.inj hline
      obtain ⟨hc, hbody⟩ := not_or.1 (mt List.mem_cons.2 hbody)
      change d :: cs = body ++ ['\n'] at hrest
      rw [hrest]
      exact ⟨Ne.symm hc, .cons hbody hls⟩

theorem getLast?_flatten (h : AreLines (ls ++ ms)) (hls : ls ≠ []) (hms : ms ≠ []) :
    ls.flatten.getLast? = some '\n' := by
  induction ls with
  | nil => exact absurd rfl hls
  | cons line ls ih =>
    cases ls with
    | nil =>
      rw [List.cons_append, List.nil_append] at h
      cases h with
      | last _ _ => exact absurd rfl hms
      | cons _ _ => simp
    | cons next ls =>
      have hlast := ih h.tail (List.cons_ne_nil next ls)
      rw [List.flatten_cons, List.getLast?_append, hlast]
      rfl

end AreLines

/-! ### Line breaks -/

theorem Paired.append_right (h : Paired (body ++ cs)) : Paired cs := by
  induction body with
  | nil => exact h
  | cons c body ih => exact ih h.2

theorem Paired.exists_content (h : Paired (body ++ cs)) (hbody : '\n' ∉ body)
    (hcs : ∀ c ∈ cs.head?, c = '\n') :
    ∃ content, (body = content ∨ body = content ++ ['\r'] ∧ cs ≠ []) ∧
      ∀ c ∈ content, isLineBreak c = false := by
  induction body with
  | nil => exact ⟨[], .inl rfl, by simp⟩
  | cons c body ih =>
    obtain ⟨hc, hrest⟩ := h
    obtain ⟨hne, hbody⟩ := not_or.1 (mt List.mem_cons.2 hbody)
    by_cases hreturn : c = '\r'
    · have hnext := hc hreturn
      cases body with
      | nil =>
        refine ⟨[], .inr ⟨by rw [hreturn]; rfl, ?_⟩, by simp⟩
        rintro rfl
        cases hnext
      | cons d body =>
        obtain rfl := Option.some.inj hnext
        exact absurd List.mem_cons_self hbody
    · obtain ⟨content, hcontent, hplain⟩ := ih hrest hbody
      have hbreak : isLineBreak c = false := by
        simp [isLineBreak, hreturn, Ne.symm hne]
      refine ⟨c :: content, ?_, List.forall_mem_cons.2 ⟨hbreak, hplain⟩⟩
      rcases hcontent with rfl | ⟨rfl, hcs⟩
      · exact .inl rfl
      · exact .inr ⟨rfl, hcs⟩

/-- How a line can end; only the last line of a text need not have an end. -/
inductive Ends : List Char → List (List Char) → Prop
  | newline {ls : List (List Char)} : Ends ['\n'] ls
  | returned {ls : List (List Char)} : Ends ['\r', '\n'] ls
  | last : Ends [] []

theorem AreLines.exists_content (h : AreLines (line :: ls))
    (hpaired : Paired (line ++ ls.flatten)) : ∃ content ending, line = content ++ ending ∧
      (∀ c ∈ content, isLineBreak c = false) ∧ Ends ending ls := by
  cases h with
  | last _ hline =>
    obtain ⟨content, rfl | ⟨-, hne⟩, hplain⟩ := hpaired.exists_content hline (by simp)
    · exact ⟨line, [], (List.append_nil line).symm, hplain, .last⟩
    · exact absurd rfl hne
  | @cons body _ hbody hls =>
    rw [List.append_assoc] at hpaired
    obtain ⟨content, rfl | ⟨rfl, -⟩, hplain⟩ := hpaired.exists_content hbody
      fun c hc => (Option.some.inj hc).symm
    · exact ⟨body, ['\n'], rfl, hplain, .newline⟩
    · exact ⟨content, ['\r', '\n'], List.append_assoc _ _ _, hplain, .returned⟩

/-! ### Blocks -/

theorem blocks_cons_of_opens (h : opens line = true) : blocks opens goesOn (line :: ls) =
    (line :: ls.takeWhile goesOn) :: blocks opens goesOn (ls.dropWhile goesOn) := by
  rw [blocks, if_pos h]

theorem blocks_cons_of_not_opens (h : ¬ opens line = true) :
    blocks opens goesOn (line :: ls) = blocks opens goesOn ls := by
  rw [blocks, if_neg h]

/-- Lines that open no block can be left out before the first block. -/
theorem blocks_dropWhile {p : List Char → Bool} (hp : ∀ line, p line = true → opens line = false)
    (ls : List (List Char)) : blocks opens goesOn (ls.dropWhile p) = blocks opens goesOn ls := by
  induction ls with
  | nil => rfl
  | cons line ls ih =>
    by_cases hline : p line = true
    · rw [List.dropWhile_cons_of_pos hline, ih,
        blocks_cons_of_not_opens (Bool.eq_false_iff.1 (hp line hline))]
    · rw [List.dropWhile_cons_of_neg hline]

theorem covers_blocks (opens goesOn : List Char → Bool) (ls : List (List Char)) :
    Covers opens goesOn ls (blocks opens goesOn ls) := by
  induction ls using blocks.induct opens goesOn with
  | case1 =>
    rw [blocks]
    exact .nil
  | case2 line rest hopens ih =>
    have hstops : ∀ next ∈ (rest.dropWhile goesOn).head?, goesOn next = false := by
      intro next hnext
      have hhead := List.head?_dropWhile_not goesOn rest
      rwa [Option.mem_def.1 hnext] at hhead
    have hmore : ∀ next ∈ rest.takeWhile goesOn, goesOn next = true :=
      List.all_eq_true.1 List.all_takeWhile
    have hblock := Covers.block hopens hmore hstops ih
    rw [List.takeWhile_append_dropWhile] at hblock
    rwa [blocks_cons_of_opens hopens]
  | case3 line rest hopens ih =>
    rw [blocks_cons_of_not_opens hopens]
    exact .skip (Bool.eq_false_iff.2 hopens) ih

theorem Covers.exists_first {found : List (List (List Char))} (h : Covers opens goesOn ls found) :
    ∀ block ∈ found, ∃ first more, block = first :: more ∧ opens first = true ∧
      ∀ line ∈ more, goesOn line = true := by
  induction h with
  | nil => simp
  | skip _ _ ih => exact ih
  | block hopens hmore _ _ ih => exact List.forall_mem_cons.2 ⟨⟨_, _, rfl, hopens, hmore⟩, ih⟩

/-- If an opening line never goes on with a block, there are as many blocks as opening lines. -/
theorem Covers.length_eq {found : List (List (List Char))} (h : Covers opens goesOn ls found)
    (hstop : ∀ line, goesOn line = true → opens line = false) :
    found.length = ls.countP opens := by
  induction h with
  | nil => rfl
  | skip hopens _ ih => rw [ih, List.countP_cons_of_neg (Bool.eq_false_iff.1 hopens)]
  | @block first more ls found hopens hmore _ _ ih =>
    have hnone : more.countP opens = 0 := by
      rw [List.countP_eq_zero]
      exact fun line hline => Bool.eq_false_iff.1 (hstop line (hmore line hline))
    rw [List.countP_cons_of_pos hopens, List.countP_append, hnone, Nat.zero_add,
      List.length_cons, ih]

end Synopsis.Layout
