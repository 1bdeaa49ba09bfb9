import Courier.Hex
import Courier.Json.Literal

/-!
# JSON tokens

The scanner reads one character at a time; a number or a word ends before the first character that cannot
continue it.
-/

namespace Courier

namespace Numeral

def digits (cs : List Char) : List Nat := (cs.takeWhile Char.isDigit).map fun c => c.toNat - 48

def afterDigits (cs : List Char) : List Char := cs.dropWhile Char.isDigit

/-- Digits after a point, at least one; none where there is no point. -/
def fraction? : List Char → Option (List Nat × List Char)
  | '.' :: cs => if (digits cs).isEmpty then none else some (digits cs, afterDigits cs)
  | cs => some ([], cs)

def exponentDigits? (negative : Bool) (cs : List Char) : Option Exponent :=
  if (digits cs).isEmpty || !(afterDigits cs).isEmpty then none else some ⟨negative, digits cs⟩

/-- An exponent to the end, or nothing at all. -/
def exponent? : List Char → Option (Option Exponent)
  | [] => some none
  | e :: cs =>
    if e = 'e' ∨ e = 'E' then
      match cs with
      | '-' :: ds => (exponentDigits? true ds).map some
      | '+' :: ds => (exponentDigits? false ds).map some
      | ds => (exponentDigits? false ds).map some
    else none

def unsigned? (negative : Bool) (cs : List Char) : Option Numeral :=
  let whole := digits cs
  if whole.isEmpty || (whole.head? == some 0 && whole.length != 1) then none
  else
    match fraction? (afterDigits cs) with
    | none => none
    | some (fraction, rest) =>
      (exponent? rest).map fun e => ⟨negative, whole, fraction, e⟩

def ofChars? : List Char → Option Numeral
  | '-' :: cs => unsigned? true cs
  | cs => unsigned? false cs

end Numeral

inductive Token
  | braceL
  | braceR
  | bracketL
  | bracketR
  | colon
  | comma
  | null
  | bool (b : Bool)
  | num (n : Option Number)
  | str (s : Option String)

namespace Token

/-- What the scanner stands in; what it has read of a token is kept last character first. -/
inductive Mode
  | between
  | word (read : List Char)
  | number (read : List Char)
  | text (read : List Piece)
  | escape (read : List Piece)
  | unit (read : List Piece) (missing : Nat) (value : Nat)

def isBlank (c : Char) : Bool := c = ' ' ∨ c = '\t' ∨ c = '\n' ∨ c = '\r'

def inNumber (c : Char) : Bool :=
  c.isDigit || c = '-' || c = '+' || c = '.' || c = 'e' || c = 'E'

def inWord (c : Char) : Bool := c.isLower

def ofWord? : List Char → Option Token
  | ['n', 'u', 'l', 'l'] => some null
  | ['t', 'r', 'u', 'e'] => some (bool true)
  | ['f', 'a', 'l', 's', 'e'] => some (bool false)
  | _ => none

def escaped? : Char → Option Char
  | '"' => some '"'
  | '\\' => some '\\'
  | '/' => some '/'
  | 'b' => some '\x08'
  | 'f' => some '\x0c'
  | 'n' => some '\n'
  | 'r' => some '\r'
  | 't' => some '\t'
  | _ => none

/-- The tokens so far, last one first, and the mode after a character between tokens. -/
def start? (done : List Token) (c : Char) : Option (List Token × Mode) :=
  if isBlank c then some (done, .between)
  else if c = '{' then some (braceL :: done, .between)
  else if c = '}' then some (braceR :: done, .between)
  else if c = '[' then some (bracketL :: done, .between)
  else if c = ']' then some (bracketR :: done, .between)
  else if c = ':' then some (colon :: done, .between)
  else if c = ',' then some (comma :: done, .between)
  else if c = '"' then some (done, .text [])
  else if c.isDigit || c = '-' then some (done, .number [c])
  else if inWord c then some (done, .word [c])
  else none

def step? (done : List Token) : Mode → Char → Option (List Token × Mode)
  | .between, c => start? done c
  | .word read, c =>
    if inWord c then some (done, .word (c :: read))
    else (ofWord? read.reverse).bind fun t => start? (t :: done) c
  | .number read, c =>
    if inNumber c then some (done, .number (c :: read))
    else (Numeral.ofChars? read.reverse).bind fun n => start? (num n.value? :: done) c
  | .text read, c =>
    if c = '"' then some (str (Piece.text? read.reverse) :: done, .between)
    else if c = '\\' then some (done, .escape read)
    else if c.toNat < 0x20 then none
    else some (done, .text (.char c :: read))
  | .escape read, c =>
    if c = 'u' then some (done, .unit read 4 0)
    else (escaped? c).map fun d => (done, .text (.char d :: read))
  | .unit read missing value, c =>
    (Hex.value? c).map fun h =>
      let next := value * 16 + h
      if missing ≤ 1 then (done, .text (.unit next :: read))
      else (done, .unit read (missing - 1) next)

/-- A word or a number may be the end of the text; a string must be closed before it. -/
def finish? (done : List Token) : Mode → Option (List Token)
  | .between => some done.reverse
  | .word read => (ofWord? read.reverse).map fun t => (t :: done).reverse
  | .number read => (Numeral.ofChars? read.reverse).map fun n => (num n.value? :: done).reverse
  | _ => none

def scanFrom? (done : List Token) (mode : Mode) : List Char → Option (List Token)
  | [] => finish? done mode
  | c :: cs =>
    match step? done mode c with
    | none => none
    | some (done, mode) => scanFrom? done mode cs

def scan? (cs : List Char) : Option (List Token) := scanFrom? [] .between cs

end Token

end Courier
