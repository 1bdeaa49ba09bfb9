/-!
# Bytes and lines

Wire data is a list of bytes; text enters and leaves it as UTF-8.
-/

namespace Courier

abbrev Bytes := List UInt8

namespace Bytes

def ofString (s : String) : Bytes := s.toUTF8.data.toList

/-- The text that these bytes spell, if they are valid UTF-8. -/
def toString? (b : Bytes) : Option String := String.fromUTF8? b.toByteArray

def newline : UInt8 := 10

def line (b : Bytes) : Bytes := b.takeWhile (· != newline)

def afterLine (b : Bytes) : Bytes := (b.dropWhile (· != newline)).drop 1

def dropNewline : Bytes → Bytes
  | [] => []
  | c :: r => if c == newline then r else c :: r

theorem length_dropWhile_le (p : UInt8 → Bool) (b : Bytes) :
    (b.dropWhile p).length ≤ b.length := (b.dropWhile_suffix p).length_le

theorem length_afterLine_lt (c : UInt8) (r : Bytes) :
    (afterLine (c :: r)).length < (c :: r).length := by
  have h := length_dropWhile_le (· != newline) (c :: r)
  simp only [afterLine, List.length_drop, List.length_cons] at h ⊢
  omega

theorem length_dropNewline_le (b : Bytes) : (dropNewline b).length ≤ b.length := by
  cases b with
  | nil => simp [dropNewline]
  | cons c r => simp only [dropNewline]; split <;> simp

end Bytes

end Courier
