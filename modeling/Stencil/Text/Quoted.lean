import Stencil.Text.Printable

/-!
# Names in diagnostics

Messages show a name between double quotes, with everything that would be invisible or
ambiguous spelled out: five characters by name, the rest by code point in braces.
-/

namespace Stencil.Text

/-- A code point in lower-case hexadecimal digits, without leading zeros. -/
def hexDigits (n : Nat) : List Char :=
  Nat.toDigits 16 n

/-- How a diagnostic shows one character of a name. -/
def showChar (c : Char) : List Char :=
  match c with
  | '\x00' => ['\\', '0']
  | '\t' => ['\\', 't']
  | '\r' => ['\\', 'r']
  | '\n' => ['\\', 'n']
  | '\\' => ['\\', '\\']
  | '"' => ['\\', '"']
  | c =>
    if isPrintable c then [c]
    else ['\\', 'u', '{'] ++ hexDigits c.toNat ++ ['}']

/-- **A quoted name**, as diagnostics show it: characters that would not be seen, or would be taken
for the end of the name, are spelled out. -/
def quoted (name : String) : String :=
  String.ofList ('"' :: (name.toList.flatMap showChar ++ ['"']))

end Stencil.Text
