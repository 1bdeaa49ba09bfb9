import Courier.Arithmetic

/-!
# Shortest decimal digits of a double

A finite double stands for every real that rounds to it. Of the decimals in that interval the one with
the fewest digits is taken, then the one nearest to the double, then the one with an even last digit.
-/

namespace Courier.Decimal

/-- The reals `low / scale .. high / scale` that round to the double `value / scale`. -/
structure Interval where
  low : Nat
  value : Nat
  high : Nat
  closed : Bool
  scale : Nat

/-- `digits` times a power of ten. -/
structure Scaled where
  digits : Nat
  exponent : Int
  deriving DecidableEq, Repr

namespace Interval

/-- The interval of `m · 2^e`; `narrow` when the double below has the smaller exponent. -/
def ofBinary (m : Nat) (e : Int) (narrow : Bool) : Interval :=
  let low := if narrow then 4 * m - 1 else 4 * m - 2
  let up := 2 ^ (e - 2).toNat
  { low := low * up
    value := 4 * m * up
    high := (4 * m + 2) * up
    closed := m % 2 == 0
    scale := 2 ^ (2 - e).toNat }

def mem (i : Interval) (num den : Nat) : Bool :=
  if i.closed then i.low * den ≤ num * i.scale && num * i.scale ≤ i.high * den
  else i.low * den < num * i.scale && num * i.scale < i.high * den

/-- The better of the two multiples of `10^e` around the value, if one rounds to it. -/
def onGrid (i : Interval) (e : Int) : Option Nat :=
  let up := 10 ^ e.toNat
  let den := 10 ^ (-e).toNat
  let below := i.value * den / (i.scale * up)
  let above := below + 1
  match i.mem (below * up) den, i.mem (above * up) den with
  | true, true =>
    let gap := 2 * (i.value * den)
    let middle := (below + above) * up * i.scale
    some (if gap < middle || (gap == middle && below % 2 == 0) then below else above)
  | true, false => some below
  | false, true => some above
  | false, false => none

/-- The exponent `e` with `10^e ≤ value < 10^(e+1)`, searched upwards. -/
def magnitude (i : Interval) (e : Int) : Nat → Int
  | 0 => e
  | steps + 1 =>
    let next := e + 1
    if i.value * 10 ^ (-next).toNat < i.scale * 10 ^ next.toNat then e
    else magnitude i next steps

/-- The first grid with a hit, from coarse to fine. -/
def search (i : Interval) (e : Int) : Nat → Scaled
  | 0 => ⟨(i.onGrid e).getD 0, e⟩
  | finer + 1 =>
    match i.onGrid e with
    | some d => ⟨d, e⟩
    | none => search i (e - 1) finer

end Interval

def Scaled.trim (s : Scaled) : Nat → Scaled
  | 0 => s
  | n + 1 =>
    if s.digits % 10 == 0 && s.digits != 0 then trim ⟨s.digits / 10, s.exponent + 1⟩ n else s

/-- Mantissa and exponent of a double with these bits, and whether the gap below it is half the gap
above. -/
def binaryParts (bits : UInt64) : Nat × Int × Bool :=
  let field := (bits >>> 52).toNat % 2048
  let fraction := bits.toNat % 2 ^ 52
  if field = 0 then (fraction, -1074, false)
  else (2 ^ 52 + fraction, (field : Int) - 1075, fraction == 0 && field != 1)

/-- The shortest digits of a finite positive double. -/
def shortest (x : Float) : Scaled :=
  let (m, e, narrow) := binaryParts x.toBits
  let i := Interval.ofBinary m e narrow
  let floor := (e + 52) * 30103 / 100000 - 18
  let top := i.magnitude floor 40
  (i.search top 16).trim 17

/-- Digits with a point and no exponent; `places` is the least number of digits after the point. -/
def Scaled.positional (s : Scaled) (places : Nat) : String :=
  let digits := toString s.digits
  if 0 ≤ s.exponent then
    let whole := digits ++ "".pushn '0' s.exponent.toNat
    if places = 0 then whole else whole ++ "." ++ "".pushn '0' places
  else
    let after := (-s.exponent).toNat
    let padded := ("".pushn '0' (after + 1 - digits.length) ++ digits).toList
    let cut := padded.length - after
    String.ofList (padded.take cut) ++ "." ++ String.ofList (padded.drop cut)

/-- One digit before the point, and a signed exponent. -/
def Scaled.scientific (s : Scaled) : String :=
  let digits := (toString s.digits).toList
  let exponent := s.exponent + (digits.length - 1 : Nat)
  let fraction := if digits.length ≤ 1 then "" else "." ++ String.ofList (digits.drop 1)
  let sign := if exponent < 0 then "-" else "+"
  String.ofList (digits.take 1) ++ fraction ++ "e" ++ sign ++ toString exponent.natAbs

/-- The exponent of the first digit. -/
def Scaled.magnitude (s : Scaled) : Int := s.exponent + ((toString s.digits).length - 1 : Nat)

end Courier.Decimal
