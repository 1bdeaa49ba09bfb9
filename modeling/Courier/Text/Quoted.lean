import Courier.Hex
import Courier.Text.Hidden

/-!
# Quoted text for people

Quotes, backslashes and line ends are escaped; what does not show by itself is written by its number.
-/

namespace Courier.Text

def hexDigits (n : Nat) : List Char :=
  if n < 16 then [Hex.digit n] else hexDigits (n / 16) ++ [Hex.digit (n % 16)]
termination_by n
decreasing_by omega

def escape (c : Char) : List Char :=
  if c = '\x00' then ['\\', '0']
  else if c = '\t' then ['\\', 't']
  else if c = '\r' then ['\\', 'r']
  else if c = '\n' then ['\\', 'n']
  else if c = '\'' ∨ c = '"' ∨ c = '\\' then ['\\', c]
  else if isHidden c then '\\' :: 'u' :: '{' :: (hexDigits c.toNat ++ ['}'])
  else [c]

def quoted (s : String) : String := String.ofList ('"' :: (s.toList.flatMap escape ++ ['"']))

end Courier.Text
