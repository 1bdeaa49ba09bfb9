import Courier.Toml.Scalar
import Courier.Toml.Table
import Courier.Toml.Token

/-!
# Reading TOML

The tokens drive a stack of open arrays and inline tables, one token at a time, above the statement that
they belong to.
-/

namespace Courier.Toml

/-- Parts of a dotted key, last one first. -/
abbrev Path := List String

/-- Arrays and inline tables stand less deep than this, and keys are shorter. -/
def depthLimit : Nat := 80

inductive Frame
  | array (items : List Document)
  | inline (entries : Entries) (path : Path)

/-- What may come next. -/
inductive Next
  /-- A statement, or nothing on this line. -/
  | statement
  | endOfLine
  /-- A key part, and what may follow one. -/
  | key (path : Path)
  | afterKey (path : Path)
  | headerStart
  | header (inArray : Bool) (path : Path)
  | afterHeader (inArray : Bool) (path : Path)
  | headerEnd (path : Path)
  | value
  /-- In an array: a value or its end, and what may follow a value. -/
  | item
  | afterItem
  /-- In an inline table: a key or its end, a key, what follows its parts, what follows a value. -/
  | firstField
  | field (path : Path)
  | afterField (path : Path)
  | afterValue
  /-- In a number, a date or a truth value. -/
  | scalar (read : List Char)

/-- The table that assignments go to. -/
structure Current where
  /-- Where it belongs: the path and the key of its header, and whether it is in an array. -/
  place : Option (List String × String × Bool)
  table : Entries

structure State where
  root : Entries
  current : Current
  /-- The key that a value is assigned to. -/
  target : Path
  frames : List Frame
  next : Next

def State.goto (s : State) (n : Next) : State := { s with next := n }

def isBare (c : Char) : Bool := c.isAlphanum || c = '_' || c = '-'

def keyPart? : Token → Option String
  | .word cs => if cs.all isBare then some (String.ofList cs) else none
  | .text s false => some s
  | _ => none

def extend? (path : Path) (t : Token) : Option Path :=
  (keyPart? t).bind fun k => if path.length + 1 < depthLimit then some (k :: path) else none

/-- Puts the current table where it belongs. -/
def State.close? (s : State) : Option Entries :=
  match s.current.place with
  | none => some s.current.table
  | some (path, key, inArray) => closed? path key inArray s.current.table s.root

def State.open? (s : State) (inArray : Bool) (path : Path) : Option State := do
  let root ← s.close?
  match path with
  | [] => none
  | key :: before =>
    let before := before.reverse
    if inArray then
      let root ← openedArray? before key root
      return { s with root := root, current := ⟨some (before, key, true), []⟩, next := .endOfLine }
    else
      let (root, table) ← opened? before key root
      return { s with root := root, current := ⟨some (before, key, false), table⟩, next := .endOfLine }

/-- What a whole value is for: an item, a field, or an assignment. -/
def State.accept? (s : State) (d : Document) : Option State :=
  match s.frames with
  | [] =>
    match s.target with
    | [] => none
    | key :: before =>
      (assign? before.reverse key d ⟨.header, s.current.table⟩).map fun table =>
        { s with current := { s.current with table := table }, target := [], next := .endOfLine }
  | .array items :: rest =>
    some { s with frames := .array (d :: items) :: rest, next := .afterItem }
  | .inline entries path :: rest =>
    match path with
    | [] => none
    | key :: before =>
      (assign? before.reverse key d ⟨.header, entries⟩).map fun entries =>
        { s with frames := .inline entries [] :: rest, next := .afterValue }

def State.enter? (s : State) (f : Frame) (n : Next) : Option State :=
  if s.frames.length + 1 < depthLimit then some { s with frames := f :: s.frames, next := n }
  else none

def State.leave? (s : State) : Option State :=
  match s.frames with
  | .array items :: rest => State.accept? { s with frames := rest } (.arr items.reverse)
  | .inline entries _ :: rest => State.accept? { s with frames := rest } (.obj (membersOf entries))
  | [] => none

def startValue? (s : State) : Token → Option State
  | .text t _ => s.accept? (.str (some t))
  | .word cs => some (s.goto (.scalar cs))
  | .bracketL => s.enter? (.array []) .item
  | .braceL => s.enter? (.inline [] []) .firstField
  | _ => none

def statement? (s : State) : Token → Option State
  | .newline => some (s.goto .statement)
  | .bracketL => some (s.goto .headerStart)
  | t => (extend? [] t).map fun path => s.goto (.afterKey path)

/-- One token that is not part of a scalar. -/
def plain? (s : State) (x : Lexeme) : Option State :=
  match s.next, x.token with
  | .statement, t => statement? s t
  | .endOfLine, .newline => some (s.goto .statement)
  | .key path, t => (extend? path t).map fun path => s.goto (.afterKey path)
  | .afterKey path, .dot => some (s.goto (.key path))
  | .afterKey path, .equals => some { s with target := path, next := .value }
  | .headerStart, .bracketL => if x.gap.isEmpty then some (s.goto (.header true [])) else none
  | .headerStart, t => (extend? [] t).map fun path => s.goto (.afterHeader false path)
  | .header inArray path, t =>
    (extend? path t).map fun path => s.goto (.afterHeader inArray path)
  | .afterHeader inArray path, .dot => some (s.goto (.header inArray path))
  | .afterHeader false path, .bracketR => s.open? false path
  | .afterHeader true path, .bracketR => some (s.goto (.headerEnd path))
  | .headerEnd path, .bracketR => if x.gap.isEmpty then s.open? true path else none
  | .value, t => startValue? s t
  | .item, .newline => some s
  | .item, .bracketR => s.leave?
  | .item, t => startValue? s t
  | .afterItem, .newline => some s
  | .afterItem, .comma => some (s.goto .item)
  | .afterItem, .bracketR => s.leave?
  | .firstField, .braceR => s.leave?
  | .firstField, t => (extend? [] t).map fun path => s.goto (.afterField path)
  | .field path, t => (extend? path t).map fun path => s.goto (.afterField path)
  | .afterField path, .dot => some (s.goto (.field path))
  | .afterField path, .equals =>
    match s.frames with
    | .inline entries _ :: rest => some { s with frames := .inline entries path :: rest, next := .value }
    | _ => none
  | .afterValue, .comma => some (s.goto (.field []))
  | .afterValue, .braceR => s.leave?
  | _, _ => none

/-- Whether a token goes on with a scalar: without a blank, or as the time after a date. -/
def continued? (read : List Char) (x : Lexeme) : Option (List Char) :=
  match x.gap, x.token with
  | [], .word cs => some (read ++ cs)
  | [], .dot => some (read ++ ['.'])
  | [' '], .word cs => if afterDate? read = some [] then some (read ++ ' ' :: cs) else none
  | _, _ => none

def finishScalar? (s : State) (read : List Char) : Option State :=
  (scalar? read).bind fun v => s.accept? v.document

def feed? (s : State) (x : Lexeme) : Option State :=
  match s.next with
  | .scalar read =>
    match continued? read x with
    | some read => some (s.goto (.scalar read))
    | none => (finishScalar? s read).bind fun s => plain? s x
  | _ => plain? s x

def feedAll? (s : State) : List Lexeme → Option State
  | [] => some s
  | x :: xs =>
    match feed? s x with
    | none => none
    | some s => feedAll? s xs

/-- The end of the text is the end of a line. -/
def ofLexemes? (xs : List Lexeme) : Option Document := do
  let s ← feedAll? ⟨[], ⟨none, []⟩, [], [], .statement⟩ (xs ++ [⟨[], .newline⟩])
  match s.next with
  | .statement => (s.close?).map fun root => .obj (membersOf root)
  | _ => none

def ofString? (s : String) : Option Document := (scan? s.toList).bind ofLexemes?

end Courier.Toml
