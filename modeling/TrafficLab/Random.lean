import TrafficLab.LittleEndian

/-!
# Random words

A generator is a key, a block counter and the words of the current block that are still to come.
Blocks are twelve rounds of ChaCha over the constants, the key and the counter; a generator gives
the words of blocks 0, 1, 2, … in order.

`coin` and `upTo` are the draws that the simulator makes.
-/

namespace TrafficLab

/-! ## Blocks -/

namespace ChaCha

/-- Sixteen words in four rows. -/
structure Block where
  a0 : UInt32
  a1 : UInt32
  a2 : UInt32
  a3 : UInt32
  b0 : UInt32
  b1 : UInt32
  b2 : UInt32
  b3 : UInt32
  c0 : UInt32
  c1 : UInt32
  c2 : UInt32
  c3 : UInt32
  d0 : UInt32
  d1 : UInt32
  d2 : UInt32
  d3 : UInt32

@[inline] def turnLeft (x : UInt32) (n : UInt32) : UInt32 := (x <<< n) ||| (x >>> (32 - n))

/-- The step that mixes four words, handed on to `next`. -/
@[inline] def quarter {α : Type} (a b c d : UInt32) (next : UInt32 → UInt32 → UInt32 → UInt32 → α) :
    α :=
  let a := a + b
  let d := turnLeft (d ^^^ a) 16
  let c := c + d
  let b := turnLeft (b ^^^ c) 12
  let a := a + b
  let d := turnLeft (d ^^^ a) 8
  let c := c + d
  let b := turnLeft (b ^^^ c) 7
  next a b c d

/-- Mixes the four columns. -/
def columns (s : Block) : Block :=
  quarter s.a0 s.b0 s.c0 s.d0 fun a0 b0 c0 d0 =>
  quarter s.a1 s.b1 s.c1 s.d1 fun a1 b1 c1 d1 =>
  quarter s.a2 s.b2 s.c2 s.d2 fun a2 b2 c2 d2 =>
  quarter s.a3 s.b3 s.c3 s.d3 fun a3 b3 c3 d3 =>
  ⟨a0, a1, a2, a3, b0, b1, b2, b3, c0, c1, c2, c3, d0, d1, d2, d3⟩

/-- Mixes the four diagonals. -/
def diagonals (s : Block) : Block :=
  quarter s.a0 s.b1 s.c2 s.d3 fun a0 b1 c2 d3 =>
  quarter s.a1 s.b2 s.c3 s.d0 fun a1 b2 c3 d0 =>
  quarter s.a2 s.b3 s.c0 s.d1 fun a2 b3 c0 d1 =>
  quarter s.a3 s.b0 s.c1 s.d2 fun a3 b0 c1 d2 =>
  ⟨a0, a1, a2, a3, b0, b1, b2, b3, c0, c1, c2, c3, d0, d1, d2, d3⟩

/-- Mixes `n` times columns and diagonals. -/
def rounds : Nat → Block → Block
  | 0, s => s
  | n + 1, s => rounds n (diagonals (columns s))

/-- The words of the mixed block added to those it began with. -/
def output (s : Block) : List UInt32 :=
  let t := rounds 6 s
  [t.a0 + s.a0, t.a1 + s.a1, t.a2 + s.a2, t.a3 + s.a3, t.b0 + s.b0, t.b1 + s.b1, t.b2 + s.b2,
    t.b3 + s.b3, t.c0 + s.c0, t.c1 + s.c1, t.c2 + s.c2, t.c3 + s.c3, t.d0 + s.d0, t.d1 + s.d1,
    t.d2 + s.d2, t.d3 + s.d3]

end ChaCha

/-! ## Generators -/

/-- A 256-bit key. -/
structure RandomKey where
  k0 : UInt32
  k1 : UInt32
  k2 : UInt32
  k3 : UInt32
  k4 : UInt32
  k5 : UInt32
  k6 : UInt32
  k7 : UInt32

/-- The place in a stream of random words. -/
structure Random where
  key : RandomKey
  /-- The number of the next block. -/
  counter : UInt64
  /-- The words of the last block that have not been given out. -/
  pending : List UInt32

namespace Random

/-- The block with the given number: constants, key, counter, and a zero stream number. -/
def block (key : RandomKey) (n : UInt64) : List UInt32 :=
  ChaCha.output ⟨0x61707865, 0x3320646e, 0x79622d32, 0x6b206574, key.k0, key.k1, key.k2, key.k3,
    key.k4, key.k5, key.k6, key.k7, n.toUInt32, (n >>> 32).toUInt32, 0, 0⟩

/-- The next state of the generator that seeds are stretched with. -/
def stretch (s : UInt64) : UInt64 := s * 6364136223846793005 + 11634580027462260723

/-- The word that a state of that generator gives: its high bits, turned right by its highest five.
-/
def squeeze (s : UInt64) : UInt32 :=
  let x := (((s >>> 18) ^^^ s) >>> 27).toUInt32
  let n := (s >>> 59).toUInt32
  (x >>> n) ||| (x <<< ((32 - n) &&& 31))

/-- The generator of a seed: its key is eight words stretched from the seed. -/
def ofSeed (seed : UInt64) : Random :=
  let s0 := stretch seed
  let s1 := stretch s0
  let s2 := stretch s1
  let s3 := stretch s2
  let s4 := stretch s3
  let s5 := stretch s4
  let s6 := stretch s5
  let s7 := stretch s6
  ⟨⟨squeeze s0, squeeze s1, squeeze s2, squeeze s3, squeeze s4, squeeze s5, squeeze s6, squeeze s7⟩,
    0, []⟩

/-- The next word. -/
def next (r : Random) : UInt32 × Random :=
  match r.pending with
  | w :: rest => (w, { r with pending := rest })
  | [] =>
    match block r.key r.counter with
    | w :: rest => (w, { r with counter := r.counter + 1, pending := rest })
    | [] => (0, r)

/-- The next two words, the low half first. -/
def next64 (r : Random) : UInt64 × Random :=
  let (low, r) := r.next
  let (high, r) := r.next
  (low.toUInt64 ||| (high.toUInt64 <<< 32), r)

/-! ## Draws -/

/-- A coin that comes up in `limit` of 2^64 throws. -/
def coin (limit : UInt64) (r : Random) : Bool × Random :=
  let (w, r) := r.next64
  (w < limit, r)

/-- The number of leading zeros of a 32-bit number. -/
def leadingZeros (n : Nat) : Nat := if n = 0 then 32 else 31 - n.log2

/-- Draws a word until its product with `range` has a low half of at most `zone`, at most `tries`
times; the answer is the high half. -/
def scaled (range zone : Nat) : Nat → Random → Nat × Random
  | 0, r => (0, r)
  | tries + 1, r =>
    let (w, r) := r.next
    let m := w.toNat * range
    if m % 2 ^ 32 ≤ zone then (m / 2 ^ 32, r) else scaled range zone tries r

/-- A number from 0 to `top`, each as likely as the others.  More than half of all words are
accepted, so no run of words that is rejected a thousand times will ever be met. -/
def upTo (top : UInt32) (r : Random) : Nat × Random :=
  let range := (top.toNat + 1) % 2 ^ 32
  if range = 0 then
    let (w, r) := r.next
    (w.toNat, r)
  else scaled range (range * 2 ^ leadingZeros range - 1) 1000 r

end Random

end TrafficLab
