import Courier.Batch.Log
import Courier.Envelope.Basic

/-!
# Turns of a batcher

A batcher works in turns. A turn ends with a reply, or with something to be given away before the work goes
on: whoever takes it may use the batcher meanwhile.
-/

namespace Courier

/-- What goes into batches. -/
class BatchItem (α : Type) where
  /-- The entry in the batch; `none` if the item cannot be written. -/
  json? : α → Option Json

instance : BatchItem LogEntry := ⟨fun e => some e.toJson⟩

/-- An item that is written already, or that cannot be. -/
instance : BatchItem (Option Json) := ⟨id⟩

inductive Emission
  | envelope (e : Envelope)
  | loss (l : Loss) (n : UInt64)
  deriving Inhabited

/-- A batch of these items; all of them are lost if one cannot be written. -/
def Emission.ofItems {α : Type} [BatchItem α] (kind : ItemKind) (contentType : Option String)
    (items : List α) : Emission :=
  let count := items.length.toUInt64
  match items.mapM BatchItem.json? with
  | some entries => .envelope (.ofBatch kind contentType (.obj [("items", .arr entries)]) count)
  | none => .loss ⟨.sendError, kind.category⟩ count

inductive BatchReply
  /-- Whether the item was taken. -/
  | taken (yes : Bool)
  | disposed
  /-- How many items went out, or wait. -/
  | count (n : Nat)
  | done
  deriving DecidableEq, Repr, Inhabited

/-- The end of a turn: a batcher and a reply, or an emission and what is left to do after it. -/
inductive Turn (σ π : Type)
  | reply (s : σ) (r : BatchReply)
  | emit (what : Emission) (s : σ) (next : π)

/-- Goes on to the end, at most `fuel` turns, with nobody using the batcher in between. -/
def Turn.settle {σ π : Type} (resume : σ → π → Turn σ π) :
    Nat → Turn σ π → List Emission × σ × BatchReply
  | _, .reply s r => ([], s, r)
  | 0, .emit what s _ => ([what], s, .done)
  | fuel + 1, .emit what s next =>
    let (out, s, r) := settle resume fuel (resume s next)
    (what :: out, s, r)

end Courier
