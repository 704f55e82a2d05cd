import ReleaseFlow.Text.Hidden

/-!
# Characters quoted in messages

A message that complains about one character shows it between single quotes, escaped where it
would be misread.

* `hex`: a number in base sixteen, lower case;
* `escaped`: the text that stands for the character;
* `quoted`: the same between single quotes.
-/

namespace ReleaseFlow.Text

/-- The number in base sixteen with lower-case digits. -/
def hex (n : Nat) : String :=
  String.ofList (Nat.toDigits 16 n)

/-- The character as a message shows it: the null character, tab, line ends, backslash and quote
by their short escapes, other hidden characters by number. -/
def escaped (c : Char) : String :=
  if c = '\x00' then "\\0"
  else if c = '\t' then "\\t"
  else if c = '\r' then "\\r"
  else if c = '\n' then "\\n"
  else if c = '\\' || c = '\'' then String.ofList ['\\', c]
  else if isHidden c then "\\u\x7b" ++ hex c.toNat ++ "\x7d"
  else String.singleton c

def quoted (c : Char) : String :=
  "'" ++ escaped c ++ "'"

end ReleaseFlow.Text
