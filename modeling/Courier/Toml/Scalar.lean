import Courier.Hex
import Courier.Json.Document

/-!
# Scalars of TOML

Numbers, truth values and dates. Integers are of 64 bits with a sign; a date is kept as text.
-/

namespace Courier.Toml

inductive Scalar
  | bool (b : Bool)
  | integer (n : Int)
  | float (x : Float)
  | date (cs : List Char)

/-! ## Numbers -/

/-- Digits with single underscores between them, in this base. -/
def digits? (base : Nat) (value? : Char → Option Nat) : List Char → Option (List Nat)
  | [] => none
  | c :: rest => go c rest
where
  digit? (c : Char) : Option Nat := (value? c).bind fun d => if d < base then some d else none
  go (c : Char) (rest : List Char) : Option (List Nat) :=
    match digit? c, rest with
    | none, _ => none
    | some d, [] => some [d]
    | some d, '_' :: b :: rest => (go b rest).map (d :: ·)
    | some d, b :: rest => (go b rest).map (d :: ·)

def number (base : Nat) (ds : List Nat) : Nat := ds.foldl (fun n d => n * base + d) 0

/-- Decimal digits without a leading zero. -/
def whole? (cs : List Char) : Option (List Nat) :=
  (digits? 10 Hex.value? cs).bind fun ds =>
    if ds.head? = some 0 ∧ ds.length ≠ 1 then none else some ds

def splitSign : List Char → Bool × List Char
  | '-' :: cs => (true, cs)
  | '+' :: cs => (false, cs)
  | cs => (false, cs)

def inRange? (n : Int) : Option Int := if -2 ^ 63 ≤ n ∧ n < 2 ^ 63 then some n else none

def integer? (cs : List Char) : Option Int :=
  match cs with
  | '0' :: 'x' :: ds => (digits? 16 Hex.value? ds).bind fun ds => inRange? (number 16 ds)
  | '0' :: 'o' :: ds => (digits? 8 Hex.value? ds).bind fun ds => inRange? (number 8 ds)
  | '0' :: 'b' :: ds => (digits? 2 Hex.value? ds).bind fun ds => inRange? (number 2 ds)
  | cs =>
    let (negative, ds) := splitSign cs
    (whole? ds).bind fun ds =>
      inRange? (if negative then -(number 10 ds : Int) else number 10 ds)

/-- The nearest double to `±digits · 10^exponent`; one beyond every double only with a minus. -/
def nearest? (negative : Bool) (ds : List Nat) (exponent : Int) : Option Float :=
  let m := number 10 ds
  let size : Int := exponent + ds.length
  let x : Float :=
    if m = 0 ∨ size < -400 then 0.0
    else if 400 < size ∧ m ≠ 0 then 1.0 / 0.0
    else if exponent < 0 then Float.ofScientific m true exponent.natAbs
    else Float.ofScientific m false exponent.natAbs
  if negative then some (-x) else if x.isInf then none else some x

def exponent? (cs : List Char) : Option Int :=
  let (negative, ds) := splitSign cs
  (digits? 10 Hex.value? ds).map fun ds =>
    if negative then -(number 10 ds : Int) else number 10 ds

/-- The part before the first `e`, and the part after it. -/
def splitExponent (cs : List Char) : List Char × Option (List Char) :=
  let before := cs.takeWhile fun c => c ≠ 'e' ∧ c ≠ 'E'
  match cs.dropWhile fun c => c ≠ 'e' ∧ c ≠ 'E' with
  | [] => (before, none)
  | _ :: after => (before, some after)

def splitPoint (cs : List Char) : List Char × Option (List Char) :=
  let before := cs.takeWhile (· ≠ '.')
  match cs.dropWhile (· ≠ '.') with
  | [] => (before, none)
  | _ :: after => (before, some after)

def decimal? (negative : Bool) (cs : List Char) : Option Float :=
  let (mantissa, exponent) := splitExponent cs
  let (whole, fraction) := splitPoint mantissa
  if exponent.isNone && fraction.isNone then none
  else do
    let whole ← whole? whole
    let fraction ← match fraction with
      | none => some []
      | some ds => digits? 10 Hex.value? ds
    let exponent ← match exponent with
      | none => some 0
      | some ds => exponent? ds
    nearest? negative (whole ++ fraction) (exponent - fraction.length)

def float? (cs : List Char) : Option Float :=
  let (negative, ds) := splitSign cs
  match ds with
  | ['i', 'n', 'f'] => some (if negative then -1.0 / 0.0 else 1.0 / 0.0)
  | ['n', 'a', 'n'] => some (0.0 / 0.0)
  | ds => decimal? negative ds

/-! ## Dates and times -/

/-- A number of exactly this many digits at the front, at most `most`. -/
def field? (width : Nat) (least most : Nat) (cs : List Char) : Option (Nat × List Char) :=
  let ds := cs.take width
  if ds.length = width ∧ ds.all Char.isDigit then
    let n := number 10 (ds.map fun c => c.toNat - 48)
    if least ≤ n ∧ n ≤ most then some (n, cs.drop width) else none
  else none

def mark? (c : Char) : List Char → Option (List Char)
  | d :: rest => if c = d then some rest else none
  | [] => none

def isLeap (year : Nat) : Bool := year % 4 = 0 ∧ (year % 100 ≠ 0 ∨ year % 400 = 0)

def daysIn (year month : Nat) : Nat :=
  if month = 2 then (if isLeap year then 29 else 28)
  else if month = 4 ∨ month = 6 ∨ month = 9 ∨ month = 11 then 30
  else 31

def afterDate? (cs : List Char) : Option (List Char) := do
  let (year, cs) ← field? 4 0 9999 cs
  let cs ← mark? '-' cs
  let (month, cs) ← field? 2 1 12 cs
  let cs ← mark? '-' cs
  let (_, cs) ← field? 2 1 (daysIn year month) cs
  return cs

def afterFraction? : List Char → Option (List Char)
  | '.' :: cs => if (cs.takeWhile Char.isDigit).isEmpty then none else some (cs.dropWhile Char.isDigit)
  | cs => some cs

def afterTime? (cs : List Char) : Option (List Char) := do
  let (_, cs) ← field? 2 0 23 cs
  let cs ← mark? ':' cs
  let (_, cs) ← field? 2 0 59 cs
  let cs ← mark? ':' cs
  let (_, cs) ← field? 2 0 60 cs
  afterFraction? cs

def isOffset : List Char → Bool
  | [] => true
  | ['Z'] => true
  | ['z'] => true
  | c :: cs =>
    if c = '+' ∨ c = '-' then
      match field? 2 0 23 cs with
      | some (_, ':' :: cs) =>
        match field? 2 0 59 cs with
        | some (_, []) => true
        | _ => false
      | _ => false
    else false

/-- A date, a time, or a date and a time with or without an offset. -/
def isDate (cs : List Char) : Bool :=
  match afterDate? cs with
  | some [] => true
  | some (c :: time) =>
    if c = 'T' ∨ c = 't' ∨ c = ' ' then
      match afterTime? time with
      | some rest => isOffset rest
      | none => false
    else false
  | none =>
    match afterTime? cs with
    | some [] => true
    | _ => false

/-! ## Scalars -/

def scalar? (cs : List Char) : Option Scalar :=
  if cs = ['t', 'r', 'u', 'e'] then some (.bool true)
  else if cs = ['f', 'a', 'l', 's', 'e'] then some (.bool false)
  else if isDate cs then some (.date cs)
  else
    match float? cs with
    | some x => some (.float x)
    | none => (integer? cs).map .integer

/-- A date is an object with one member of its own. -/
def Scalar.document : Scalar → Document
  | bool b => .bool b
  | integer n =>
    if 0 ≤ n then .num (some (.nat n.toNat.toUInt64))
    else .num (some (.negSucc (Fin.ofNat (2 ^ 63) (n.natAbs - 1))))
  | float x => .num (some (.float x))
  | date cs => .obj [(some "date", .str (some (String.ofList cs)))]

end Courier.Toml
