import Synopsis.Text.CodePoint

/-!
# White space

A character is blank when it has the Unicode property White_Space: this holds
of the no-break space and of the line separators, but not of the zero-width
space or of the byte order mark. Texts are trimmed at both ends and cut into
words by this one class.
-/

namespace Synopsis.Text

def blankRanges : Ranges := [
    (0x9, 0xD), (0x20, 0x20), (0x85, 0x85), (0xA0, 0xA0), (0x1680, 0x1680), (0x2000, 0x200A),
    (0x2028, 0x2029), (0x202F, 0x202F), (0x205F, 0x205F), (0x3000, 0x3000)]

def isBlank (c : Char) : Bool :=
  blankRanges.holds c.toNat

def trimStart (cs : List Char) : List Char :=
  cs.dropWhile isBlank

def trimEnd (cs : List Char) : List Char :=
  (cs.reverse.dropWhile isBlank).reverse

def trim (cs : List Char) : List Char :=
  trimEnd (trimStart cs)

def pieces (separator : Char → Bool) (cs : List Char) : List (List Char) :=
  (cs.splitOnP separator).filter (!·.isEmpty)

def words (cs : List Char) : List (List Char) :=
  pieces isBlank cs

end Synopsis.Text
