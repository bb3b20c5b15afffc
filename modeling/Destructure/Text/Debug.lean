import Destructure.Text.Printable

/-!
# Destructure.Text.Debug

Texts in double quotes, for output that people read: what would not show up is written as an escape.
This form is only written, never read.
-/

namespace Destructure.Text

/-- A character that does not show up, by its code point in lower-case hexadecimal. -/
def codePointEscape (c : Char) : List Char :=
  '\\' :: 'u' :: '\x7b' :: (Nat.toDigits 16 c.toNat ++ ['\x7d'])

/-- A character inside double quotes. -/
def debugChar (c : Char) : List Char :=
  if c = '"' then ['\\', '"']
  else if c = '\\' then ['\\', '\\']
  else if c = '\n' then ['\\', 'n']
  else if c = '\r' then ['\\', 'r']
  else if c = '\t' then ['\\', 't']
  else if c = '\x00' then ['\\', '0']
  else if isPrintable c then [c]
  else codePointEscape c

/-- A text in double quotes, with escapes for what would not show up. -/
def debugQuoted (s : String) : String :=
  String.ofList ('"' :: (s.toList.flatMap debugChar ++ ['"']))

end Destructure.Text
