import Synopsis.Proofs.Usage.Stability

/-!
# Brackets in a usage

The groups of a usage that can be read are properly nested, as far as its brackets are read as
brackets. They need not be where an option takes its value from the next token: a bracket in that
place is the value, and neither opens nor closes a group. If no option has a bracket as its value,
all brackets of the usage are nested.

Which tokens are values is told by the registry after the reading, in which each option is what it
has been taken for.
-/

namespace Synopsis.Usage

/-- Every bracket is closed by its like, the innermost first. Before the tokens come the brackets
that are open, the innermost first. -/
def closes : List Bracket → List String → Bool
  | opened, [] => opened.isEmpty
  | opened, token :: rest =>
    match Lexeme.ofToken token with
    | .opening b => closes (b :: opened) rest
    | .closing b => opened.head? == some b && closes opened.tail rest
    | _ => closes opened rest

def isBracket (token : String) : Bool :=
  match Lexeme.ofToken token with
  | .opening _ => true
  | .closing _ => true
  | _ => false

def takesNext (options : Registry) (token : String) : Bool :=
  match Lexeme.ofToken token with
  | .option =>
    match (OptionToken.read .language token).run options with
    | .ok reading _ => reading.waiting.isSome
    | .error _ _ => false
  | _ => false

/-- The tokens that are values of the options before them. `waiting` tells that the first one is. -/
def values (options : Registry) : Bool → List String → List String
  | _, [] => []
  | true, token :: rest => token :: values options false rest
  | false, token :: rest => values options (takesNext options token) rest

def withoutValues (options : Registry) : Bool → List String → List String
  | _, [] => []
  | true, _ :: rest => withoutValues options false rest
  | false, token :: rest => token :: withoutValues options (takesNext options token) rest

variable {r s : Registry} {reader next : Reader} {token : String} {rest ts : List String}
  {ps : List Pattern} {opened : List Bracket}

theorem closes_cons_of_not_isBracket (h : isBracket token = false) :
    closes opened (token :: ts) = closes opened ts := by
  unfold isBracket at h
  rw [closes]
  split
  · next heq => simp [heq] at h
  · next heq => simp [heq] at h
  · rfl

/-- Values that are no brackets can be left out. -/
theorem closes_withoutValues {waiting : Bool}
    (h : ∀ value ∈ values s waiting ts, isBracket value = false) :
    closes opened (withoutValues s waiting ts) = closes opened ts := by
  induction ts generalizing waiting opened with
  | nil => cases waiting <;> rfl
  | cons token ts ih =>
    cases waiting with
    | true =>
      obtain ⟨htoken, hts⟩ := List.forall_mem_cons.1 h
      rw [withoutValues, closes_cons_of_not_isBracket htoken, ih hts]
    | false =>
      have hrest (opened : List Bracket) :
          closes opened (withoutValues s (takesNext s token) ts) = closes opened ts := ih h
      simp only [withoutValues, closes, hrest]

namespace Reader

def brackets (reader : Reader) : List Bracket :=
  reader.outer.map Prod.fst

/-- What one token does: whether it takes the next one as its value, and what it opens or closes. -/
structure Nests (options : Registry) (reader : Reader) (token : String) (next : Reader) : Prop where
  waiting : next.waiting.isSome = takesNext options token
  closes : ∀ ts, closes next.brackets ts = true → closes reader.brackets (token :: ts) = true

theorem Nests.of_same (hbracket : isBracket token = false) (htakes : takesNext s token = false)
    (houter : next.outer = reader.outer) (hwaiting : next.waiting = none) :
    Nests s reader token next := by
  refine ⟨by rw [hwaiting, htakes]; rfl, fun ts hts => ?_⟩
  rw [closes_cons_of_not_isBracket hbracket, brackets, ← houter]
  exact hts

theorem Nests.of_word? {p : Pattern} (hword : reader.word? token = some p)
    (hwaiting : reader.waiting = none) : Nests s reader token (reader.add [p]) := by
  unfold word? at hword
  split at hword
  · next hlexeme =>
    exact .of_same (by rw [isBracket, hlexeme]) (by rw [takesNext, hlexeme]) rfl hwaiting
  · next hlexeme =>
    exact .of_same (by rw [isBracket, hlexeme]) (by rw [takesNext, hlexeme]) rfl hwaiting
  · next hlexeme =>
    exact .of_same (by rw [isBracket, hlexeme]) (by rw [takesNext, hlexeme]) rfl hwaiting
  · next hlexeme =>
    exact .of_same (by rw [isBracket, hlexeme]) (by rw [takesNext, hlexeme]) rfl hwaiting
  · cases hword

theorem Steps.nests (h : Steps r reader token s next) (hwaiting : reader.waiting = none)
    {t : Registry} (hgrows : s.Grows .language t) : Nests t reader token next := by
  cases h with
  | bar hlexeme =>
    exact .of_same (by rw [isBracket, hlexeme]) (by rw [takesNext, hlexeme]) rfl hwaiting
  | ellipsis hlexeme _ _ =>
    exact .of_same (by rw [isBracket, hlexeme]) (by rw [takesNext, hlexeme]) rfl hwaiting
  | word hword _ => exact .of_word? hword hwaiting
  | opening hlexeme _ =>
    refine ⟨by rw [takesNext, hlexeme]; rfl, fun ts hts => ?_⟩
    rw [Usage.closes, hlexeme]
    exact hts
  | closing hlexeme houter =>
    refine ⟨by rw [takesNext, hlexeme]; rfl, fun ts hts => ?_⟩
    rw [Usage.closes, hlexeme, brackets, houter]
    exact Bool.and_eq_true_iff.2 ⟨beq_self_eq_true _, hts⟩
  | option hlexeme _ hread =>
    obtain ⟨other, hother, hagrees⟩ := OptionToken.read_again hread hgrows
    refine ⟨?_, fun ts hts => ?_⟩
    · simp only [takesNext, hlexeme, hother, hagrees.waiting]
    · rw [closes_cons_of_not_isBracket (by rw [isBracket, hlexeme])]
      exact hts

theorem Reads.closes (h : Reads r reader ts ps s) :
    closes reader.brackets (withoutValues s reader.waiting.isSome ts) = true := by
  induction h with
  | done hwaiting houter =>
    rw [hwaiting, brackets, houter]
    rfl
  | value hwaiting _ _ ih =>
    rw [hwaiting]
    exact ih
  | step hwaiting hstep hrest ih =>
    have hnests := hstep.nests hwaiting hrest.grows
    rw [hwaiting]
    refine hnests.closes _ ?_
    rw [← hnests.waiting]
    exact ih

end Reader

/-- The brackets of a usage that is read are nested, those set aside that are values of options. So
all of them are nested if no value is a bracket. -/
theorem closes_of_readPattern {source : String} {p : Pattern}
    (h : (readPattern source).run r = .ok p s) :
    closes [] (withoutValues s false (tokens source)) = true ∧
      ((∀ value ∈ values s false (tokens source), isBracket value = false) →
        closes [] (tokens source) = true) := by
  obtain ⟨ps, hread, -⟩ := run_readPattern_eq_ok_iff.1 h
  have hcloses := hread.closes
  exact ⟨hcloses, fun hvalues => (closes_withoutValues hvalues).symm.trans hcloses⟩

/-- The option in the inner group has a word as its value. -/
theorem closes_of_readPattern_value :
    let options := Registry.ofDocumented [.ofNames (some "-o") none 1]
    let source := "( [ -o FILE ] )"
    let p := Pattern.required [.required [.optional [.option 0]]]
    (readPattern source).run options = .ok p options ∧
      (∀ value ∈ values options false (tokens source), isBracket value = false) ∧
      closes [] (tokens source) = true := by
  intro options source p
  have hread : (readPattern source).run options = .ok p options := by decide +kernel
  have hvalues : ∀ value ∈ values options false (tokens source), isBracket value = false := by
    have heq : values options false (tokens source) = ["FILE"] := by decide +kernel
    rw [heq]
    decide +kernel
  exact ⟨hread, hvalues, (closes_of_readPattern hread).2 hvalues⟩

/-- The first closing bracket is the value of the option, so the usage is read although it has one
closing bracket too many. -/
theorem not_closes_of_bracket_value :
    let options := Registry.ofDocumented [.ofNames (some "-o") none 1]
    let source := "( [ -o ] ] )"
    (readPattern source).run options =
        .ok (.required [.required [.optional [.option 0]]]) options ∧
      tokens source = ["(", "[", "-o", "]", "]", ")"] ∧ closes [] (tokens source) = false := by
  intro options source
  have htokens : tokens source = ["(", "[", "-o", "]", "]", ")"] := by decide +kernel
  refine ⟨by decide +kernel, htokens, ?_⟩
  rw [htokens]
  rfl

end Synopsis.Usage
