import DemandTransport.Decimal.Digits
import DemandTransport.Text.Visible

/-!
# Quoted text

A text inside a message is put between double quotes so that its ends and its blanks can be seen.
Quotes and backslashes are marked by a backslash, the common controls have letters, and every other
character that cannot be seen is written as its code point in braces.
-/

namespace DemandTransport.Text

/-- The written form of one character. -/
def quoteChar (c : Char) : String :=
  if c = '"' then "\\\""
  else if c = '\\' then "\\\\"
  else if c = '\n' then "\\n"
  else if c = '\r' then "\\r"
  else if c = '\t' then "\\t"
  else if c.toNat = 0 then "\\0"
  else if isVisible c then c.toString
  else "\\u\x7b" ++ Decimal.hexOfNat c.toNat ++ "\x7d"

/-- A text in double quotes. -/
def quoted (text : String) : String := "\"" ++ String.join (text.toList.map quoteChar) ++ "\""

end DemandTransport.Text
