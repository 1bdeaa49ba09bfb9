import Courier.Envelope.Basic

/-!
# Wire form of envelopes

The header on a line, then for each item its header on a line, its payload and a newline. An item header
that tells the `length` of its payload lets it hold newlines; without one the payload is a line. Blank
lines may stand before an item header.
-/

namespace Courier

inductive WireError
  | empty
  | header (line : Nat)
  | headerNotObject (line : Nat)
  | missingType (line : Nat)
  | truncated (expected actual : Nat)
  | invalidLength (length : String)
  /-- The header could not be written. -/
  | json
  | io (message : String)
  deriving DecidableEq, Repr, Inhabited

namespace WireError

/-- The text of an error that this library words. -/
def message? : WireError → Option String
  | empty => some "envelope is empty"
  | header _ => none
  | headerNotObject line => some ("header on line " ++ toString line ++ " is not a JSON object")
  | missingType line => some ("item header on line " ++ toString line ++ " has no type")
  | truncated expected actual =>
    some ("item payload truncated: expected " ++ toString expected ++ " bytes, found " ++
      toString actual)
  | invalidLength length => some ("invalid item length " ++ length)
  | json => none
  | io message => some ("envelope I/O error: " ++ message)

end WireError

namespace Envelope

/-! ## Writing -/

def headerLine (e : Envelope) : Bytes := Bytes.ofString (Json.obj e.header).text

def toBytes (e : Envelope) : Bytes :=
  e.headerLine ++ Bytes.newline :: e.items.flatMap Item.bytes

/-- A writer that takes so many bytes in all. -/
structure Sink where
  room : Nat
  held : Bytes := []

/-- Writes all of it, or what there is room for. -/
def Sink.write (failure : WireError) (b : Bytes) : EStateM WireError Sink Unit := do
  let s ← get
  set (⟨s.room - b.length, s.held ++ b.take s.room⟩ : Sink)
  if s.room < b.length then throw failure

def sinkFull : WireError := .io "sink full"

def writeItem (i : Item) : EStateM WireError Sink Unit := do
  Sink.write sinkFull i.headerLine
  Sink.write sinkFull [Bytes.newline]
  Sink.write sinkFull i.payload.bytes
  Sink.write sinkFull [Bytes.newline]

def writeItems : List Item → EStateM WireError Sink Unit
  | [] => pure ()
  | i :: items => do
    writeItem i
    writeItems items

/-- Writes the wire form piece by piece. What fails in the header is told as a failure of its text. -/
def write (e : Envelope) : EStateM WireError Sink Unit := do
  Sink.write .json e.headerLine
  Sink.write sinkFull [Bytes.newline]
  writeItems e.items

/-- Writes into a sink that takes `room` bytes: what it holds then, and how it went. -/
def writeTo (e : Envelope) (room : Nat) : Bytes × Except WireError Unit :=
  match e.write.run { room } with
  | .ok _ s => (s.held, .ok ())
  | .error failure s => (s.held, .error failure)

/-! ## Reading -/

def readHeader (line : Nat) (b : Bytes) : Except WireError Object :=
  match Json.ofBytes? b with
  | none => .error (.header line)
  | some (.obj o) => .ok o
  | some _ => .error (.headerNotObject line)

def readPayload (header : Object) (rest : Bytes) : Except WireError (Bytes × Bytes) :=
  match header.get? "length" with
  | none => .ok (rest.line, rest.afterLine)
  | some length =>
    match length.natural? with
    | none => .error (.invalidLength length.text)
    | some n =>
      if rest.length < n.toNat then .error (.truncated n.toNat rest.length)
      else .ok (rest.take n.toNat, Bytes.dropNewline (rest.drop n.toNat))

theorem length_of_readPayload {header : Object} {rest payload after : Bytes}
    (h : readPayload header rest = .ok (payload, after)) : after.length ≤ rest.length := by
  unfold readPayload at h
  split at h
  · cases h
    have := Bytes.length_dropWhile_le (· != Bytes.newline) rest
    simp only [Bytes.afterLine, List.length_drop]
    omega
  · split at h
    · cases h
    · split at h
      · cases h
      · cases h
        exact Nat.le_trans (Bytes.length_dropNewline_le _) (by simp)

/-- The item whose header is on the line `line`, before the bytes `rest`, and the bytes after it. -/
def readItem (line : Nat) (b rest : Bytes) : Except WireError (Item × Bytes) :=
  match readHeader line b with
  | .error e => .error e
  | .ok header =>
    if ((header.get? "type").bind Json.string?).isNone then .error (.missingType line)
    else
      match readPayload header rest with
      | .error e => .error e
      | .ok (payload, after) => .ok (⟨header, .raw payload⟩, after)

theorem length_of_readItem {line : Nat} {b rest after : Bytes} {i : Item}
    (h : readItem line b rest = .ok (i, after)) : after.length ≤ rest.length := by
  unfold readItem at h
  split at h
  · cases h
  · split at h
    · cases h
    · split at h
      · cases h
      · next hp => cases h; exact length_of_readPayload hp

/-- The items in `data`, where `line` lines have been read. A blank line counts as one, an item as two. -/
def readItems (line : Nat) (data : Bytes) : Except WireError (List Item) :=
  match data with
  | [] => .ok []
  | c :: r =>
    have := Bytes.length_afterLine_lt c r
    if (Bytes.line (c :: r)).isEmpty then readItems (line + 1) (Bytes.afterLine (c :: r))
    else
      match h : readItem (line + 1) (Bytes.line (c :: r)) (Bytes.afterLine (c :: r)) with
      | .error e => .error e
      | .ok (item, after) =>
        have := length_of_readItem h
        match readItems (line + 2) after with
        | .error e => .error e
        | .ok items => .ok (item :: items)
termination_by data.length
decreasing_by all_goals simp only [List.length_cons] at *; omega

def ofBytes (data : Bytes) : Except WireError Envelope :=
  if data.isEmpty then .error .empty
  else
    match readHeader 1 data.line with
    | .error e => .error e
    | .ok header =>
      match readItems 1 data.afterLine with
      | .error e => .error e
      | .ok items => .ok ⟨header, items⟩

end Envelope

end Courier
