import Courier.Hex

/-!
# Tokens of TOML

Strings are read here, with their escapes; words and points are left as they are, since `1.5` is a number as
a value and two names as a key. Each token knows the blanks before it.
-/

namespace Courier.Toml

inductive Token
  | newline
  | equals
  | dot
  | comma
  | bracketL
  | bracketR
  | braceL
  | braceR
  | word (cs : List Char)
  | text (s : String) (multiline : Bool)
  deriving DecidableEq, Repr

/-- A token after `gap`, the blanks since the one before it. -/
structure Lexeme where
  gap : List Char
  token : Token
  deriving DecidableEq, Repr

inductive Quote
  | basic
  | literal
  deriving DecidableEq, Repr

def Quote.char : Quote → Char
  | basic => '"'
  | literal => '\''

/-- What the scanner stands in; what it has read of a token is kept last character first. -/
inductive Mode
  | between
  | comment
  | word (read : List Char)
  /-- After one quote, or after two. -/
  | open1 (q : Quote)
  | open2 (q : Quote)
  | line (q : Quote) (read : List Char)
  /-- Inside triple quotes, after `quotes` of them in a row. -/
  | block (q : Quote) (read : List Char) (quotes : Nat)
  /-- After three quotes: a newline here is not part of the text. -/
  | blockStart (q : Quote)
  | escape (read : List Char) (multiline : Bool)
  | code (read : List Char) (multiline : Bool) (missing : Nat) (value : Nat)
  /-- After a backslash at the end of a line, or before blanks that lead to one. -/
  | joined (read : List Char) (ended : Bool)
  deriving Repr

structure Scan where
  done : List Lexeme
  gap : List Char
  mode : Mode

def isBlank (c : Char) : Bool := c = ' ' ∨ c = '\t'

/-- Characters that may stand in comments and strings: no controls save the tab. -/
def isVisible (c : Char) : Bool := c = '\t' ∨ (0x20 ≤ c.toNat ∧ c.toNat ≠ 0x7F)

def inWord (c : Char) : Bool :=
  c.isAlphanum || c = '_' || c = '-' || c = '+' || c = ':'

def Scan.emit (s : Scan) (t : Token) : Scan := ⟨⟨s.gap.reverse, t⟩ :: s.done, [], .between⟩

def Scan.goto (s : Scan) (m : Mode) : Scan := { s with mode := m }

def start? (s : Scan) (c : Char) : Option Scan :=
  if isBlank c then some { s with gap := c :: s.gap }
  else if c = '\n' then some (s.emit .newline)
  else if c = '#' then some (s.goto .comment)
  else if c = '=' then some (s.emit .equals)
  else if c = '.' then some (s.emit .dot)
  else if c = ',' then some (s.emit .comma)
  else if c = '[' then some (s.emit .bracketL)
  else if c = ']' then some (s.emit .bracketR)
  else if c = '{' then some (s.emit .braceL)
  else if c = '}' then some (s.emit .braceR)
  else if c = '"' then some (s.goto (.open1 .basic))
  else if c = '\'' then some (s.goto (.open1 .literal))
  else if inWord c then some (s.goto (.word [c]))
  else none

def escaped? : Char → Option Char
  | '"' => some '"'
  | '\\' => some '\\'
  | 'b' => some '\x08'
  | 'f' => some '\x0c'
  | 'n' => some '\n'
  | 'r' => some '\r'
  | 't' => some '\t'
  | _ => none

def character? (n : Nat) : Option Char := if h : n.isValidChar then some (Char.ofNatAux n h) else none

def Scan.resume (s : Scan) (read : List Char) (multiline : Bool) : Scan :=
  s.goto (if multiline then .block .basic read 0 else .line .basic read)

/-- One character inside triple quotes. -/
def block? (s : Scan) (q : Quote) (read : List Char) (c : Char) : Option Scan :=
  if c = q.char then some (s.goto (.block q read 1))
  else if c = '\\' ∧ q = .basic then some (s.goto (.escape read true))
  else if c = '\n' ∨ isVisible c then some (s.goto (.block q (c :: read) 0))
  else none

def line? (s : Scan) (q : Quote) (read : List Char) (c : Char) : Option Scan :=
  if c = q.char then some (s.emit (.text (String.ofList read.reverse) false))
  else if c = '\\' ∧ q = .basic then some (s.goto (.escape read false))
  else if isVisible c then some (s.goto (.line q (c :: read)))
  else none

def blockText (q : Quote) (read : List Char) (quotes : Nat) : Token :=
  .text (String.ofList (List.replicate quotes q.char ++ read).reverse) true

def step? (s : Scan) (c : Char) : Option Scan :=
  match s.mode with
  | .between => start? s c
  | .comment =>
    if c = '\n' then some (s.emit .newline) else if isVisible c then some s else none
  | .word read =>
    if inWord c then some (s.goto (.word (c :: read)))
    else start? (s.emit (.word read.reverse)) c
  | .open1 q => if c = q.char then some (s.goto (.open2 q)) else line? s q [] c
  | .open2 q =>
    if c = q.char then some (s.goto (.blockStart q)) else start? (s.emit (.text "" false)) c
  | .line q read => line? s q read c
  | .blockStart q =>
    if c = '\n' then some (s.goto (.block q [] 0)) else block? s q [] c
  | .block q read 0 => block? s q read c
  | .block q read (quotes + 1) =>
    if c = q.char then
      if quotes = 3 then some (s.emit (blockText q read 2))
      else some (s.goto (.block q read (quotes + 2)))
    else if 2 ≤ quotes then start? (s.emit (blockText q read (quotes - 2))) c
    else block? s q (List.replicate (quotes + 1) q.char ++ read) c
  | .escape read multiline =>
    if c = 'u' then some (s.goto (.code read multiline 4 0))
    else if c = 'U' then some (s.goto (.code read multiline 8 0))
    else if multiline ∧ (isBlank c ∨ c = '\n') then some (s.goto (.joined read (c = '\n')))
    else (escaped? c).map fun d => s.resume (d :: read) multiline
  | .code read multiline missing value =>
    match Hex.value? c with
    | none => none
    | some h =>
      if missing ≤ 1 then
        (character? (value * 16 + h)).map fun d => s.resume (d :: read) multiline
      else some (s.goto (.code read multiline (missing - 1) (value * 16 + h)))
  | .joined read ended =>
    if isBlank c then some s
    else if c = '\n' then some (s.goto (.joined read true))
    else if ended then block? s .basic read c
    else none

/-- A word, a comment and closed strings may be the end of the text. -/
def finish? (s : Scan) : Option (List Lexeme) :=
  match s.mode with
  | .between => some s.done.reverse
  | .comment => some s.done.reverse
  | .word read => some (s.emit (.word read.reverse)).done.reverse
  | .open2 _ => some (s.emit (.text "" false)).done.reverse
  | .block q read quotes =>
    if 3 ≤ quotes then some (s.emit (blockText q read (quotes - 3))).done.reverse else none
  | _ => none

def run? (s : Scan) : List Char → Option (List Lexeme)
  | [] => finish? s
  | c :: cs =>
    match step? s c with
    | none => none
    | some s => run? s cs

/-- A carriage return counts as part of the newline that follows it. -/
def joinReturns : List Char → List Char
  | [] => []
  | '\r' :: '\n' :: cs => '\n' :: joinReturns cs
  | c :: cs => c :: joinReturns cs

/-- A byte order mark may stand at the start. -/
def scan? (cs : List Char) : Option (List Lexeme) :=
  let cs :=
    match cs with
    | '\uFEFF' :: rest => rest
    | cs => cs
  run? ⟨[], [], .between⟩ (joinReturns cs)

end Courier.Toml
