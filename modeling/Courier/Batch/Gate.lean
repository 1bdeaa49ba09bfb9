/-!
# Flush gates

One flush at a time: whoever enters holds the gate until it leaves.
-/

namespace Courier

structure FlushGate where
  held : Bool := false
  deriving DecidableEq, Repr, Inhabited

namespace FlushGate

def enter? (g : FlushGate) : Option FlushGate := if g.held then none else some ⟨true⟩

def leave (_ : FlushGate) : FlushGate := ⟨false⟩

/-- Whatever happens inside, a gate that was entered is left again. -/
def within (g : FlushGate) : FlushGate :=
  match g.enter? with
  | some g => g.leave
  | none => g

end FlushGate

end Courier
