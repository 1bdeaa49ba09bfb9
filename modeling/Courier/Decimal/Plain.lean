import Courier.Decimal.Shortest

/-!
# Plain decimal text of a double

The shortest digits, never with an exponent and without a point where none is needed.
-/

namespace Courier.Decimal

def plain (x : Float) : String :=
  if x.isNaN then "NaN"
  else
    let sign := if x.toBits >>> 63 == 1 then "-" else ""
    if x.isInf then sign ++ "inf"
    else if x == 0 then sign ++ "0"
    else sign ++ (shortest x.abs).positional 0

end Courier.Decimal
