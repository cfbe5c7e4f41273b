import Synopsis.Report.Tree

/-!
# YAML reports

Block style with two spaces for each level; the elements of a list stand at the
level of its key. A text is plain where that can be read back as the same text.
Otherwise it is a literal block if it has several lines, and single or double
quoted if not; double quotes serve for what single quotes cannot hold. A key that
is long or has several lines stands behind a question mark, on lines of its own.
-/

namespace Synopsis.Report.Yaml

/-! ## Texts that read as something else -/

def nullWords : List String :=
  ["~", "null", "Null", "NULL"]

def boolWords : List String :=
  ["true", "True", "TRUE", "false", "False", "FALSE"]

def floatWords : List String :=
  [".inf", ".Inf", ".INF", "+.inf", "+.Inf", "+.INF", "-.inf", "-.Inf", "-.INF",
    ".nan", ".NaN", ".NAN"]

def digit? (base : Nat) (c : Char) : Option Nat :=
  let value :=
    if '0' ≤ c ∧ c ≤ '9' then c.toNat - '0'.toNat
    else if 'a' ≤ c ∧ c ≤ 'z' then c.toNat - 'a'.toNat + 10
    else if 'A' ≤ c ∧ c ≤ 'Z' then c.toNat - 'A'.toNat + 10
    else base
  if value < base then some value else none

def digits? (base : Nat) (cs : List Char) : Option Nat :=
  if cs.isEmpty then none
  else cs.foldlM (fun n c => (digit? base c).map (n * base + ·)) 0

def base? : Char → Option Nat
  | 'x' => some 16
  | 'o' => some 8
  | 'b' => some 2
  | _ => none

/-- An integer in another base that fits into 128 bits, the sign included. -/
def isBasedInteger (cs : List Char) : Bool :=
  let bound := if cs.head? == some '-' then Nat.pow 2 127 else Nat.pow 2 128 - 1
  match if cs.head? == some '-' || cs.head? == some '+' then cs.tail else cs with
  | '0' :: letter :: digits =>
    match (base? letter).bind (digits? · digits) with
    | some n => n ≤ bound
    | none => false
  | _ => false

def dropSign : List Char → List Char
  | '+' :: cs => cs
  | '-' :: cs => cs
  | cs => cs

/-- Digits that begin with a superfluous zero read as a text. -/
def isZeroLed (cs : List Char) : Bool :=
  match dropSign cs with
  | '0' :: c :: rest => (c :: rest).all Char.isDigit
  | _ => false

/-- `m * 10 ^ e` is below all that binary64 rounds to infinity. -/
def isFinite (m : Nat) (e : Int) : Bool :=
  let bound := Nat.pow 2 1024 - Nat.pow 2 970
  if m = 0 then true
  else if 400 < e then false
  else if 0 ≤ e then m * Nat.pow 10 e.toNat < bound
  else if (Nat.toDigits 10 m).length ≤ (-e).toNat then true
  else m < bound * Nat.pow 10 (-e).toNat

def exponent? (cs : List Char) : Option Int :=
  match cs with
  | '-' :: digits => (digits? 10 digits).map fun n => -(n : Int)
  | '+' :: digits => (digits? 10 digits).map Int.ofNat
  | digits => (digits? 10 digits).map Int.ofNat

def isDecimal (cs : List Char) : Bool :=
  let cs := dropSign cs
  let whole := cs.takeWhile Char.isDigit
  let afterWhole := cs.dropWhile Char.isDigit
  let afterPoint := if afterWhole.head? == some '.' then afterWhole.tail else []
  let fraction := afterPoint.takeWhile Char.isDigit
  let rest := if afterWhole.head? == some '.' then afterPoint.dropWhile Char.isDigit else afterWhole
  let exponent := match rest with
    | [] => some 0
    | c :: digits => if c == 'e' || c == 'E' then exponent? digits else none
  match digits? 10 (whole ++ fraction), exponent with
  | some m, some e => isFinite m (e - fraction.length)
  | _, _ => false

/-- A plain text like this would be read as null, a boolean or a number. -/
def isAmbiguous (s : String) : Bool :=
  s.isEmpty || nullWords.contains s || boolWords.contains s || floatWords.contains s ||
    isZeroLed s.toList || isBasedInteger s.toList || isDecimal s.toList

/-! ## Styles -/

def isBreak (c : Char) : Bool :=
  c == '\n' || c == '\r' || c == '\u0085' || c == '\u2028' || c == '\u2029'

def isBlankOrBreak (c : Char) : Bool :=
  c == ' ' || c == '\t' || c == '\x00' || isBreak c

/-- The characters that need no escape: what prints in ASCII, the newline, and all past
the C1 controls but the byte order mark and the noncharacters that end the basic plane. -/
def isPlainChar (c : Char) : Bool :=
  (' ' ≤ c && c ≤ '~') || c == '\n' ||
    ('\u00a0' ≤ c && c != '\ufeff' && c != '\ufffe' && c != '\uffff')

def isIndicator (c : Char) : Bool :=
  "#,[]\x7b\x7d&*!|>'\"%@`".toList.contains c

/-- No colon in front of a blank, no hash behind one. -/
def hasNoMark (afterBlank : Bool) : List Char → Bool
  | [] => true
  | c :: cs =>
    !(c == ':' && cs.head?.all isBlankOrBreak) && !(c == '#' && afterBlank) &&
      hasNoMark (isBlankOrBreak c) cs

def startsPlain : List Char → Bool
  | [] => false
  | c :: cs =>
    !isIndicator c && !((c == '?' || c == '-') && cs.head?.all isBlankOrBreak)

def isPlain (cs : List Char) : Bool :=
  cs.all (fun c => isPlainChar c && !isBreak c) && startsPlain cs && hasNoMark false cs &&
    cs.head? != some ' ' && cs.getLast? != some ' ' &&
    cs.take 3 != "---".toList && cs.take 3 != "...".toList

def upperHex (width n : Nat) : List Char :=
  let digits := (Nat.toDigits 16 n).map Char.toUpper
  List.replicate (width - digits.length) '0' ++ digits

/-- What needs an escape is in the basic plane, so four digits suffice. -/
def escape (c : Char) : List Char :=
  match c with
  | '\x00' => ['\\', '0']
  | '\x07' => ['\\', 'a']
  | '\x08' => ['\\', 'b']
  | '\t' => ['\\', 't']
  | '\n' => ['\\', 'n']
  | '\x0b' => ['\\', 'v']
  | '\x0c' => ['\\', 'f']
  | '\r' => ['\\', 'r']
  | '\x1b' => ['\\', 'e']
  | '"' => ['\\', '"']
  | '\\' => ['\\', '\\']
  | '\u0085' => ['\\', 'N']
  | '\u2028' => ['\\', 'L']
  | '\u2029' => ['\\', 'P']
  | c =>
    if isPlainChar c then [c]
    else if c.toNat ≤ 0xFF then ['\\', 'x'] ++ upperHex 2 c.toNat
    else ['\\', 'u'] ++ upperHex 4 c.toNat

def doubleQuoted (cs : List Char) : List Char :=
  '"' :: cs.flatMap escape ++ ['"']

def singleQuoted (cs : List Char) : List Char :=
  '\'' :: cs.flatMap (fun c => if c == '\'' then ['\'', '\''] else [c]) ++ ['\'']

def hasSpaceBeforeBreak (cs : List Char) : Bool :=
  (cs.zip cs.tail).any fun (c, d) => c == ' ' && isBreak d

/-- Some line of the text but the first begins with a space. -/
def hasSpaceAfterBreak (cs : List Char) : Bool :=
  (cs.zip cs.tail).any fun (c, d) => isBreak c && d == ' '

/-- Single quotes hold a text that needs no escape. A line or paragraph separator may
break it where no space is next to it, since such spaces would be lost. -/
def isSingleQuotable (cs : List Char) : Bool :=
  cs.all (fun c => isPlainChar c && c != '\n') &&
    !hasSpaceBeforeBreak cs && !hasSpaceAfterBreak cs

def inline (s : String) : List Char :=
  let cs := s.toList
  if !isSingleQuotable cs then doubleQuoted cs
  else if isAmbiguous s || !isPlain cs then singleQuoted cs
  else cs

/-- The text has several lines, needs no escape, and no line ends with a space. -/
def isLiteral (cs : List Char) : Bool :=
  cs.contains '\n' && cs.all isPlainChar && cs.getLast? != some ' ' && !hasSpaceBeforeBreak cs

/-- How the breaks that end a literal block are kept: none, one, or more than that. -/
def chomping (cs : List Char) : List Char :=
  match cs.reverse with
  | [] => ['-']
  | c :: before =>
    if !isBreak c then ['-'] else if before.head?.all isBreak then ['+'] else []

/-- A literal block, with its indentation in the head if its text begins with a blank. -/
def literal (cs : List Char) : List Char :=
  let indentation := if cs.head?.any fun c => c == ' ' || isBreak c then ['2'] else []
  '|' :: indentation ++ chomping cs ++ '\n' :: cs

/-! ## Lines -/

abbrev Line := List Char

def lines : List Char → List Line
  | [] => []
  | c :: cs =>
    if isBreak c then [c] :: lines cs
    else match lines cs with
      | [] => [[c]]
      | line :: rest => (c :: line) :: rest

/-- Ends the last line of a text with a newline if no break ends it. -/
def endLine (cs : List Char) : List Char :=
  if cs.getLast?.any isBreak then cs else cs ++ ['\n']

def indent (line : Line) : Line :=
  if line.head?.any isBreak then line else ' ' :: ' ' :: line

/-- The lines of a tree: what can stand behind a dash or a colon, and what follows. -/
structure Block where
  head : Option Line
  body : List Line

def Block.scalar (cs : List Char) : Block where
  head := (lines (endLine cs)).head?
  body := (lines (endLine cs)).tail.map indent

def Block.text (s : String) : Block :=
  .scalar (if isLiteral s.toList then literal s.toList else inline s)

def Block.behind (mark : String) (b : Block) : List Line :=
  match b.head, b.body with
  | some head, body => (mark.toList ++ head) :: body
  | none, first :: rest => (mark.toList ++ first) :: rest.map indent
  | none, [] => []

/-- A key can stand on one line with its colon if it has no break and at most 128 bytes,
quotes not counted. -/
def isSimpleKey (name : String) : Bool :=
  name.utf8ByteSize ≤ 128 && !name.toList.any isBreak

def field (name : String) (b : Block) (nested : Bool) : List Line :=
  if isSimpleKey name then
    match b.head with
    | some head => (inline name ++ ':' :: ' ' :: head) :: b.body
    | none => (inline name ++ [':', '\n']) :: if nested then b.body.map indent else b.body
  else (Block.text name).behind "? " ++ b.behind ": "

mutual

def block : Tree → Block
  | .null => .scalar "null".toList
  | .bool b => .scalar (if b then "true" else "false").toList
  | .number n => .scalar (toString n).toList
  | .text s => .text s
  | .list [] => .scalar "[]".toList
  | .list (t :: ts) => ⟨none, elements (t :: ts)⟩
  | .map [] => .scalar "\x7b\x7d".toList
  | .map (f :: fs) => ⟨none, fields (f :: fs)⟩

def elements : List Tree → List Line
  | [] => []
  | t :: ts => (block t).behind "- " ++ elements ts

def fields : List (String × Tree) → List Line
  | [] => []
  | (name, t) :: rest =>
    field name (block t) (match t with | .map _ => true | _ => false) ++ fields rest

end

def print (t : Tree) : String :=
  String.ofList ((block t).head.toList ++ (block t).body).flatten

end Synopsis.Report.Yaml
