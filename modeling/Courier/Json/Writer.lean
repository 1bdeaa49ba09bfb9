import Courier.Decimal.Shortest
import Courier.Hex
import Courier.Json.Value

/-!
# Compact JSON text

No blanks and no line breaks. Text is written as it is, save quotes, backslashes and control
characters.
-/

namespace Courier

/-! ## Numbers -/

/-- The shortest digits that read back: plain with at least one digit after the point from `1e-5` up to
below `1e16`, scientific elsewhere, `null` for what is no number. -/
def Float.json (x : Float) : String :=
  if !x.isFinite then "null"
  else
    let sign := if x.toBits >>> 63 == 1 then "-" else ""
    if x == 0 then sign ++ "0.0"
    else
      let s := Decimal.shortest x.abs
      if -5 ≤ s.magnitude ∧ s.magnitude < 16 then sign ++ s.positional 1
      else sign ++ s.scientific

namespace Number

def render : Number → List Char
  | nat n => (toString n.toNat).toList
  | negSucc n => '-' :: (toString (n.val + 1)).toList
  | float x => (Float.json x).toList

end Number

/-! ## Text -/

namespace Json

def escape (c : Char) : List Char :=
  if c = '"' then ['\\', '"']
  else if c = '\\' then ['\\', '\\']
  else if c = '\x08' then ['\\', 'b']
  else if c = '\x0c' then ['\\', 'f']
  else if c = '\n' then ['\\', 'n']
  else if c = '\r' then ['\\', 'r']
  else if c = '\t' then ['\\', 't']
  else if c.toNat < 0x20 then
    ['\\', 'u', '0', '0', Hex.digit (c.toNat / 16), Hex.digit (c.toNat % 16)]
  else [c]

def quote (s : String) : List Char := '"' :: (s.toList.flatMap escape ++ ['"'])

/-! ## Values -/

mutual

def render : Json → List Char
  | null => ['n', 'u', 'l', 'l']
  | bool true => ['t', 'r', 'u', 'e']
  | bool false => ['f', 'a', 'l', 's', 'e']
  | num n => n.render
  | str s => quote s
  | arr [] => ['[', ']']
  | arr (v :: rest) => '[' :: (render v ++ (renderItems rest ++ [']']))
  | obj [] => ['{', '}']
  | obj ((k, v) :: rest) => '{' :: (quote k ++ ':' :: (render v ++ (renderMembers rest ++ ['}'])))

def renderItems : List Json → List Char
  | [] => []
  | v :: rest => ',' :: (render v ++ renderItems rest)

def renderMembers : List (String × Json) → List Char
  | [] => []
  | (k, v) :: rest => ',' :: (quote k ++ ':' :: (render v ++ renderMembers rest))

end

def text (v : Json) : String := String.ofList v.render

end Json

end Courier
