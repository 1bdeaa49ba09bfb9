import Courier.Json.Value

/-!
# Literals of JSON

A number literal is read as the leading digits that fit 64 bits, scaled by one power of ten. A string
literal is a list of characters and of `\u` escapes, which spell one UTF-16 unit each.
-/

namespace Courier

/-! ## Number literals -/

structure Exponent where
  negative : Bool
  digits : List Nat

/-- A literal such as `-12.5e+3`; the fraction is without digits where there is no point. -/
structure Numeral where
  negative : Bool
  whole : List Nat
  fraction : List Nat
  exponent : Option Exponent

namespace Numeral

/-- Leading digits that fit 64 bits, and the power of ten that they are scaled by. -/
structure Leading where
  significand : UInt64
  exponent : Int

def push? (m : UInt64) (d : Nat) : Option UInt64 :=
  let n := m.toNat * 10 + d
  if n < 2 ^ 64 then some n.toUInt64 else none

/-- Digits before the point: once one does not fit, the rest only scale. -/
def takeWhole (m : UInt64) : List Nat → Leading
  | [] => ⟨m, 0⟩
  | d :: rest =>
    match push? m d with
    | some n => takeWhole n rest
    | none => ⟨m, rest.length + 1⟩

/-- Digits after the point: once one does not fit, the rest is dropped. -/
def takeFraction (l : Leading) : List Nat → Leading
  | [] => l
  | d :: rest =>
    match push? l.significand d with
    | some n => takeFraction ⟨n, l.exponent - 1⟩ rest
    | none => l

def powerOfTen (n : Nat) : Float := Float.ofScientific 1 false n

/-- The largest power of ten that is a double. -/
def widest : Nat := 308

/-- Divides by powers of ten, the largest one first. -/
def scaleDown (x : Float) (places : Nat) : Float :=
  if places ≤ widest then x / powerOfTen places
  else if x == 0 then x
  else scaleDown (x / powerOfTen widest) (places - widest)
termination_by places
decreasing_by simp only [widest] at *; omega

/-- The significand as a double, scaled by one multiplication or by divisions. -/
def scaled? (significand : UInt64) (exponent : Int) : Option Float :=
  let x := significand.toFloat
  if exponent < 0 then some (scaleDown x exponent.natAbs)
  else if exponent ≤ widest then
    let y := x * powerOfTen exponent.natAbs
    if y.isInf then none else some y
  else if significand == 0 then some x
  else none

def float? (n : Numeral) : Option Float :=
  let whole := takeWhole 0 n.whole
  let lead := takeFraction whole n.fraction
  let magnitude :=
    match n.exponent with
    | none => scaled? lead.significand lead.exponent
    | some e =>
      -- an exponent of more than 31 bits is out of range at once
      let size : Nat := e.digits.foldl (fun a d => a * 10 + d) 0
      if size < 2 ^ 31 then
        let shift : Int := if e.negative then -size else size
        scaled? lead.significand (lead.exponent + shift)
      else if e.negative || lead.significand == 0 then some 0
      else none
  magnitude.map fun x => if n.negative then -x else x

/-- An integer that no 64-bit word holds, and `-0`, are doubles. -/
def value? (n : Numeral) : Option Number :=
  if n.fraction.isEmpty && n.exponent.isNone then
    let m := n.whole.foldl (fun a d => a * 10 + d) 0
    if n.negative then
      if h : 0 < m ∧ m ≤ 2 ^ 63 then some (.negSucc ⟨m - 1, by omega⟩)
      else n.float?.map .float
    else if m < 2 ^ 64 then some (.nat m.toUInt64)
    else n.float?.map .float
  else n.float?.map .float

end Numeral

/-! ## Strings as written -/

/-- A character, or a `\u` escape of one UTF-16 unit. -/
inductive Piece
  | char (c : Char)
  | unit (n : Nat)

namespace Piece

def isHigh (n : Nat) : Bool := 0xD800 ≤ n && n < 0xDC00

def isLow (n : Nat) : Bool := 0xDC00 ≤ n && n < 0xE000

/-- Pairs surrogates; one that stands alone spells nothing. -/
def chars? : List Piece → Option (List Char)
  | [] => some []
  | char c :: rest => (chars? rest).map (c :: ·)
  | unit n :: unit m :: rest =>
    if isHigh n then
      if isLow m then
        (chars? rest).map (Char.ofNat (0x10000 + (n - 0xD800) * 0x400 + (m - 0xDC00)) :: ·)
      else none
    else if isLow n then none
    else (chars? (unit m :: rest)).map (Char.ofNat n :: ·)
  | unit n :: rest =>
    if isHigh n || isLow n then none else (chars? rest).map (Char.ofNat n :: ·)

def text? (ps : List Piece) : Option String := (chars? ps).map String.ofList

end Piece

end Courier
