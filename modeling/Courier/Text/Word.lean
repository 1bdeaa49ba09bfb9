import Courier.Arithmetic

/-!
# Decimal words

Numbers of 64 bits in decimal digits of ASCII; a plus sign may come first.
-/

namespace Courier.Text

def valueOf (digits : List Char) : Nat := digits.foldl (fun n c => n * 10 + (c.toNat - 48)) 0

def word? (cs : List Char) : Option UInt64 :=
  let digits := if cs.head? = some '+' then cs.tail else cs
  if digits.isEmpty || !digits.all Char.isDigit then none
  else if valueOf digits < 2 ^ 64 then some (valueOf digits).toUInt64
  else none

end Courier.Text
