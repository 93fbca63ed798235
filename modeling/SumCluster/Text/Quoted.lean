import SumCluster.Text.Hex
import SumCluster.Text.Unprintable

/-!
A text between double quotes, the way messages show what somebody typed. A quote and a backslash
get a backslash before them, and what does not show by itself is named by its code point.
-/

namespace SumCluster.Text

/-- How one character is written between quotes. -/
def quoteChar (c : Char) : List Char :=
  if c = '"' ∨ c = '\\' then ['\\', c]
  else if c = '\n' then ['\\', 'n']
  else if c = '\r' then ['\\', 'r']
  else if c = '\t' then ['\\', 't']
  else if c.toNat = 0 then ['\\', '0']
  else if isUnprintable c then '\\' :: 'u' :: '{' :: (hexDigits c.toNat ++ ['}'])
  else [c]

/-- A text between double quotes. -/
def quote (cs : List Char) : List Char := '"' :: (cs.flatMap quoteChar ++ ['"'])

end SumCluster.Text
