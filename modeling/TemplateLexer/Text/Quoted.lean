import TemplateLexer.Text.Nonprinting

/-!
# Quoted texts

The quoted form of a text stands between double quotes.  Tab, line feed,
carriage return, the double quote, the backslash and the null character have
escapes of their own; any other character without a visible form is written
by its code point in hexadecimal digits between braces.
-/

namespace TemplateLexer

namespace Text

def escape (c : Char) : Text :=
  if c = '\t' then ['\\', 't']
  else if c = '\r' then ['\\', 'r']
  else if c = '\n' then ['\\', 'n']
  else if c = '"' then ['\\', '"']
  else if c = '\\' then ['\\', '\\']
  else if c.toNat = 0 then ['\\', '0']
  else if isNonprinting c then
    ['\\', 'u', '{'] ++ Nat.toDigits 16 c.toNat ++ ['}']
  else [c]

def quoted (text : Text) : Text :=
  '"' :: text.flatMap escape ++ ['"']

end Text

end TemplateLexer
