import ChainGenesis.Text.Printable

/-!
# Text quoted in a message

An error message that repeats a text puts it between double quotes, on one line, so that
the reader can see where it begins and ends and what it holds: quotes and backslashes are
escaped, the common controls have their letter, and every other character that would not
show is written by its code point in lowercase hexadecimal.
-/

namespace ChainGenesis.Text

/-- A code point in lowercase hexadecimal, without leading zeros. -/
def hexDigits (n : Nat) : List Char := Nat.toDigits 16 n

/-- How one character is written between the quotes. -/
def quotedChar (c : Char) : List Char :=
  if c = '"' then ['\\', '"']
  else if c = '\\' then ['\\', '\\']
  else if c = '\n' then ['\\', 'n']
  else if c = '\r' then ['\\', 'r']
  else if c = '\t' then ['\\', 't']
  else if c = '\x00' then ['\\', '0']
  else if isPrintable c then [c]
  else ['\\', 'u', '\x7b'] ++ hexDigits c.toNat ++ ['\x7d']

/-- A text between double quotes, as messages show it. -/
def quoted (text : String) : String :=
  String.ofList ('"' :: text.toList.flatMap quotedChar ++ ['"'])

example : quoted "a\"b\\c" = "\"a\\\"b\\\\c\"" := by decide

end ChainGenesis.Text
