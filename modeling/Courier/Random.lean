import Courier.Arithmetic

/-!
# Random words

The ChaCha stream with eight rounds, keyed by a seed of 64 bits. Draws take its words in order.
-/

namespace Courier

/-! ## The block function -/

namespace ChaCha

abbrev Block := Vector UInt32 16

def rotate (x : UInt32) (n : UInt32) : UInt32 := (x <<< n) ||| (x >>> (32 - n))

def quarterRound (b : Block) (i j k l : Fin 16) : Block :=
  let b := b.set i (b[i] + b[j])
  let b := b.set l (rotate (b[l] ^^^ b[i]) 16)
  let b := b.set k (b[k] + b[l])
  let b := b.set j (rotate (b[j] ^^^ b[k]) 12)
  let b := b.set i (b[i] + b[j])
  let b := b.set l (rotate (b[l] ^^^ b[i]) 8)
  let b := b.set k (b[k] + b[l])
  b.set j (rotate (b[j] ^^^ b[k]) 7)

/-- The columns, then the diagonals. -/
def doubleRound (b : Block) : Block :=
  let b := quarterRound b 0 4 8 12
  let b := quarterRound b 1 5 9 13
  let b := quarterRound b 2 6 10 14
  let b := quarterRound b 3 7 11 15
  let b := quarterRound b 0 5 10 15
  let b := quarterRound b 1 6 11 12
  let b := quarterRound b 2 7 8 13
  quarterRound b 3 4 9 14

def rounds : Nat → Block → Block
  | 0, b => b
  | n + 1, b => rounds n (doubleRound b)

/-- Four constants, the key, a counter of 64 bits and the stream number zero. -/
def start (key : Vector UInt32 8) (counter : UInt64) : Block :=
  #v[0x61707865, 0x3320646e, 0x79622d32, 0x6b206574,
    key[0], key[1], key[2], key[3], key[4], key[5], key[6], key[7],
    counter.toUInt32, (counter >>> 32).toUInt32, 0, 0]

def block (key : Vector UInt32 8) (counter : UInt64) : List UInt32 :=
  let b := start key counter
  ((rounds 4 b).zipWith (· + ·) b).toList

end ChaCha

/-! ## The stream -/

structure RandomStream where
  key : Vector UInt32 8
  /-- The number of the next block. -/
  counter : UInt64 := 0
  /-- What is left of the last block. -/
  rest : List UInt32 := []
  deriving Inhabited

namespace RandomStream

/-- A linear congruential step, from which a key word is taken by a rotation. -/
def seedStep (s : UInt64) : UInt64 := s * 6364136223846793005 + 11634580027462260723

def seedWord (s : UInt64) : UInt32 :=
  let x := (((s >>> 18) ^^^ s) >>> 27).toUInt32
  let n := (s >>> 59).toUInt32
  (x >>> n) ||| (x <<< ((32 - n) % 32))

def ofSeed (seed : UInt64) : RandomStream :=
  let s1 := seedStep seed
  let s2 := seedStep s1
  let s3 := seedStep s2
  let s4 := seedStep s3
  let s5 := seedStep s4
  let s6 := seedStep s5
  let s7 := seedStep s6
  let s8 := seedStep s7
  { key := #v[seedWord s1, seedWord s2, seedWord s3, seedWord s4, seedWord s5, seedWord s6,
      seedWord s7, seedWord s8] }

/-! ## Draws -/

def word32 (r : RandomStream) : UInt32 × RandomStream :=
  match r.rest with
  | w :: rest => (w, { r with rest := rest })
  | [] =>
    let b := ChaCha.block r.key r.counter
    (b.headD 0, { r with counter := r.counter + 1, rest := b.tail })

/-- Two words, the low one first. -/
def word64 (r : RandomStream) : UInt64 × RandomStream :=
  let (low, r) := r.word32
  let (high, r) := r.word32
  ((high.toUInt64 <<< 32) ||| low.toUInt64, r)

/-- A multiple of `2^(-53)` below one. -/
def unit (r : RandomStream) : Float × RandomStream :=
  let (w, r) := r.word64
  ((w >>> 11).toFloat / 9007199254740992.0, r)

/-- True with this probability; nothing is drawn for what is certain. -/
def chance (r : RandomStream) (p : Float) : Bool × RandomStream :=
  if p == 1.0 then (true, r)
  else
    let (w, r) := r.word64
    (w < (p * 18446744073709551616.0).toUInt64, r)

/-- The largest low half that is taken for a range of `n` values: that of the greatest multiple
`n * 2^k` within `bits` bits. -/
def zone (bits n : Nat) : Nat := n * 2 ^ (bits - 1 - n.log2) - 1

/-- The high half of a product with `n`, drawn again while the low half is outside the zone. At least
half of the draws are taken; after so many refusals the last one is. -/
def scaled (bits n : Nat) (draw : RandomStream → Nat × RandomStream) :
    Nat → RandomStream → Nat × RandomStream
  | 0, r =>
    let (v, r) := draw r
    (v * n / 2 ^ bits, r)
  | fuel + 1, r =>
    let (v, r) := draw r
    if v * n % 2 ^ bits ≤ zone bits n then (v * n / 2 ^ bits, r)
    else scaled bits n draw fuel r

def patience : Nat := 1000

/-- A natural number below `n`, from words of 64 bits. -/
def below (r : RandomStream) (n : Nat) : Nat × RandomStream :=
  scaled 64 n (fun r => let (w, r) := r.word64; (w.toNat, r)) patience r

/-- A natural number below `n`, from words of 32 bits. -/
def below32 (r : RandomStream) (n : Nat) : Nat × RandomStream :=
  scaled 32 n (fun r => let (w, r) := r.word32; (w.toNat, r)) patience r

end RandomStream

end Courier
