import DebugLink.Text.Unprinted

/-!
# Quoted text in messages

A text that a message repeats is written between double quotes. Quotes and
backslashes are escaped, the usual controls have short escapes, and any other
character without a plain printed form is shown by its number in hexadecimal
digits between braces.
-/

namespace DebugLink.Text.Quoted

/-- The form of one character inside the quotes. -/
def escape (c : Char) : List Char :=
  match c with
  | '"' => ['\\', '"']
  | '\\' => ['\\', '\\']
  | '\n' => ['\\', 'n']
  | '\r' => ['\\', 'r']
  | '\t' => ['\\', 't']
  | '\x00' => ['\\', '0']
  | c =>
    if Unprinted.contains c.toNat then
      ['\\', 'u', '\x7b'] ++ Nat.toDigits 16 c.toNat ++ ['\x7d']
    else [c]

/-- The text between double quotes. -/
def quote (s : String) : String :=
  String.ofList ('"' :: s.toList.flatMap escape ++ ['"'])

end DebugLink.Text.Quoted
