import Synopsis.Text.Printable

/-!
# Quoted text

A text is shown between double quotes. Quotes, backslashes and the four common
controls have an escape of two characters; any other character that does not
print is given by its code point in lower case hexadecimal between braces, as
short as possible. A quoted text therefore stays on one line.
-/

namespace Synopsis.Text

def escape (c : Char) : List Char :=
  match c with
  | '"' => ['\\', '"']
  | '\\' => ['\\', '\\']
  | '\n' => ['\\', 'n']
  | '\r' => ['\\', 'r']
  | '\t' => ['\\', 't']
  | '\x00' => ['\\', '0']
  | c =>
    if isPrintable c then [c]
    else ['\\', 'u', '{'] ++ Nat.toDigits 16 c.toNat ++ ['}']

def quoteChars (cs : List Char) : List Char :=
  '"' :: cs.flatMap escape ++ ['"']

def quote (s : String) : String :=
  String.ofList (quoteChars s.toList)

end Synopsis.Text
