import TemplateLexer.Text

/-!
# Texts as JSON strings

Within a JSON string the double quote, the backslash and the control
characters below the space are escaped, five of them by a letter and the
others by four hexadecimal digits.  Every other character stands for itself.
-/

namespace TemplateLexer

namespace Json

def escape (c : Char) : Text :=
  if c = '"' then ['\\', '"']
  else if c = '\\' then ['\\', '\\']
  else if c = '\x08' then ['\\', 'b']
  else if c = '\x0c' then ['\\', 'f']
  else if c = '\n' then ['\\', 'n']
  else if c = '\r' then ['\\', 'r']
  else if c = '\t' then ['\\', 't']
  else if c.toNat < 0x20 then
    ['\\', 'u', '0', '0', Nat.digitChar (c.toNat / 16), Nat.digitChar (c.toNat % 16)]
  else [c]

def literal (text : Text) : Text :=
  '"' :: text.flatMap escape ++ ['"']

def object (members : List (Text × Text)) : Text :=
  let written := members.map fun (name, value) => literal name ++ [':'] ++ value
  ['{'] ++ [','].intercalate written ++ ['}']

end Json

end TemplateLexer
