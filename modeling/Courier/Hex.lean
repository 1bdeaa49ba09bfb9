/-!
# Hexadecimal digits
-/

namespace Courier.Hex

def value? (c : Char) : Option Nat :=
  if c.isDigit then some (c.toNat - 48)
  else if 'a' ≤ c ∧ c ≤ 'f' then some (c.toNat - 87)
  else if 'A' ≤ c ∧ c ≤ 'F' then some (c.toNat - 55)
  else none

def digit (n : Nat) : Char := "0123456789abcdef".toList.getD n '0'

theorem value?_digit : ∀ n < 16, value? (digit n) = some n := by decide

def text (b : List UInt8) : String :=
  String.ofList (b.flatMap fun c => [digit (c.toNat / 16), digit (c.toNat % 16)])

def bytes : List Char → List UInt8
  | a :: b :: rest => ((value? a).getD 0 * 16 + (value? b).getD 0).toUInt8 :: bytes rest
  | _ => []

end Courier.Hex
