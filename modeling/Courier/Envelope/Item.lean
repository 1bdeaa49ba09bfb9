import Courier.Bytes
import Courier.Json.Reader
import Courier.Json.Writer
import Courier.Loss.Basic

/-!
# Envelope items

An item is a header, an object with a `type`, and a payload.
-/

namespace Courier

inductive ItemKind
  | event
  | transaction
  | session
  | sessions
  | attachment
  | profile
  | span
  | log
  | clientReport
  | userReport
  | other (name : String)
  deriving DecidableEq, Repr, Inhabited

namespace ItemKind

def ofName : String → ItemKind
  | "event" => event
  | "transaction" => transaction
  | "session" => session
  | "sessions" => sessions
  | "attachment" => attachment
  | "profile" => profile
  | "span" => span
  | "log" => log
  | "client_report" => clientReport
  | "user_report" => userReport
  | name => other name

def name : ItemKind → String
  | event => "event"
  | transaction => "transaction"
  | session => "session"
  | sessions => "sessions"
  | attachment => "attachment"
  | profile => "profile"
  | span => "span"
  | log => "log"
  | clientReport => "client_report"
  | userReport => "user_report"
  | other name => name

def category : ItemKind → Category
  | event => .error
  | transaction => .transaction
  | session => .session
  | sessions => .session
  | attachment => .attachment
  | profile => .profile
  | span => .span
  | log => .logItem
  | clientReport => .default
  | userReport => .default
  | other _ => .default

end ItemKind

inductive Payload
  | json (v : Json)
  | raw (b : Bytes)
  deriving Inhabited

namespace Payload

def bytes : Payload → Bytes
  | json v => Bytes.ofString v.text
  | raw b => b

def json? : Payload → Option Json
  | json v => some v
  | raw b => Json.ofBytes? b

def same : Payload → Payload → Bool
  | json a, json b => a == b
  | raw a, raw b => a == b
  | _, _ => false

end Payload

structure Item where
  header : Object
  payload : Payload
  deriving Inhabited

namespace Item

def make (kind : ItemKind) (payload : Payload) : Item :=
  ⟨[("type", .str kind.name)], payload⟩

def withHeader (i : Item) (key : String) (value : Json) : Item :=
  { i with header := i.header.set key value }

/-- Marks the payload as a batch of `n` entries. -/
def withCount (i : Item) (n : UInt64) : Item := i.withHeader "item_count" (.ofNat n)

def kind (i : Item) : ItemKind :=
  match (i.header.get? "type").bind Json.string? with
  | some name => .ofName name
  | none => .other ""

def category (i : Item) : Category := i.kind.category

/-- The entries in the payload: one, unless it is a batch. -/
def count (i : Item) : UInt64 := ((i.header.get? "item_count").bind Json.natural?).getD 1

def isTelemetry (i : Item) : Bool := i.kind != .clientReport

/-- The header as it is sent, with the length of the payload in bytes. -/
def sentHeader (i : Item) : Object :=
  i.header.set "length" (.ofNat i.payload.bytes.length.toUInt64)

def headerLine (i : Item) : Bytes := Bytes.ofString (Json.obj i.sentHeader).text

def bytes (i : Item) : Bytes :=
  i.headerLine ++ Bytes.newline :: (i.payload.bytes ++ [Bytes.newline])

def same (a b : Item) : Bool := Json.obj a.header == Json.obj b.header && a.payload.same b.payload

end Item

end Courier
