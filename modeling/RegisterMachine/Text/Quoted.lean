import RegisterMachine.Text.Number
import RegisterMachine.Text.Unprintable

/-!
Text between double quotes.

The quote and the backslash are escaped by a backslash, characters that show nothing of their own
by their usual letters or by number; every other character stands for itself.
-/
set_option autoImplicit false

namespace RegisterMachine.Text

/-- A character inside quotes. -/
def escape (c : Char) : String :=
  if c = '"' then "\\\""
  else if c = '\\' then "\\\\"
  else if c = '\n' then "\\n"
  else if c = '\r' then "\\r"
  else if c = '\t' then "\\t"
  else if c.toNat = 0 then "\\0"
  else if isUnprintable c then "\\u\x7b" ++ hex c.toNat ++ "\x7d"
  else String.singleton c

/-- A text between double quotes. -/
def quoted (text : String) : String :=
  "\"" ++ String.join (text.toList.map escape) ++ "\""

end RegisterMachine.Text
