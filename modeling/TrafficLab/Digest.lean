import TrafficLab.LittleEndian

/-!
# Digests

A 64-bit digest that takes in one word at a time: rotate, exclusive or, multiply by an odd
constant.  Programs are told apart by the low half of the digest of their bytes, and each core's
seed is the low half of the digest of the experiment's seed and the core's number.
-/

namespace TrafficLab.Digest

/-- The odd constant that spreads each word over the digest. -/
def multiplier : UInt64 := 0x517cc1b727220a95

/-- A word turned left by five bits. -/
def turn (h : UInt64) : UInt64 := (h <<< 5) ||| (h >>> 59)

/-- The digest after one more word. -/
def add (h word : UInt64) : UInt64 := (turn h ^^^ word) * multiplier

open LittleEndian (value)

/-- The bytes of a list too short for a 64-bit word: four, then two, then one. -/
def addTail (h : UInt64) (bytes : List UInt8) : UInt64 :=
  let after4 := if bytes.length < 4 then (h, bytes)
    else (add h (UInt64.ofNat (value (bytes.take 4))), bytes.drop 4)
  let after2 := if after4.2.length < 2 then after4
    else (add after4.1 (UInt64.ofNat (value (after4.2.take 2))), after4.2.drop 2)
  match after2.2 with
  | [] => after2.1
  | b :: _ => add after2.1 b.toUInt64

/-- Takes in bytes, eight at a time. -/
def addBytes (h : UInt64) : List UInt8 → UInt64
  | a :: b :: c :: d :: e :: f :: g :: i :: rest =>
    addBytes (add h (LittleEndian.word64 [a, b, c, d, e, f, g, i])) rest
  | bytes => addTail h bytes

/-- The mark of a list of bytes. -/
def tag (bytes : List UInt8) : UInt32 := (addBytes 0 bytes).toUInt32

/-- Two words mixed into one. -/
def mix (a b : UInt32) : UInt32 := (add (add 0 a.toUInt64) b.toUInt64).toUInt32

end TrafficLab.Digest
