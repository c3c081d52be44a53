import TrafficLab.Datum
import TrafficLab.LittleEndian

/-!
# Writing MessagePack

`MessagePack.write d` spells a datum in bytes: a marker byte, lengths and numbers with the high byte
first, each in the shortest form that holds it.
-/

namespace TrafficLab.MessagePack

/-- The `n` low bytes of `v`, the high one first. -/
def bigEndian (n v : Nat) : List UInt8 := (LittleEndian.digits n v).reverse

/-! ## Numbers -/

def writeNat (n : Nat) : List UInt8 :=
  if n < 128 then [UInt8.ofNat n]
  else if n < 2 ^ 8 then 0xcc :: bigEndian 1 n
  else if n < 2 ^ 16 then 0xcd :: bigEndian 2 n
  else if n < 2 ^ 32 then 0xce :: bigEndian 4 n
  else 0xcf :: bigEndian 8 n

/-- The number `-n`, as the complement to a power of two. -/
def writeNegative (n : Nat) : List UInt8 :=
  if n ≤ 32 then [UInt8.ofNat (256 - n)]
  else if n ≤ 2 ^ 7 then 0xd0 :: bigEndian 1 (2 ^ 8 - n)
  else if n ≤ 2 ^ 15 then 0xd1 :: bigEndian 2 (2 ^ 16 - n)
  else if n ≤ 2 ^ 31 then 0xd2 :: bigEndian 4 (2 ^ 32 - n)
  else 0xd3 :: bigEndian 8 (2 ^ 64 - n)

def writeInt (n : Int) : List UInt8 :=
  if 0 ≤ n then writeNat n.toNat else writeNegative (-n).toNat

/-! ## Lengths -/

def textHead (n : Nat) : List UInt8 :=
  if n < 32 then [UInt8.ofNat (0xa0 + n)]
  else if n < 2 ^ 8 then 0xd9 :: bigEndian 1 n
  else if n < 2 ^ 16 then 0xda :: bigEndian 2 n
  else 0xdb :: bigEndian 4 n

def octetsHead (n : Nat) : List UInt8 :=
  if n < 2 ^ 8 then 0xc4 :: bigEndian 1 n
  else if n < 2 ^ 16 then 0xc5 :: bigEndian 2 n
  else 0xc6 :: bigEndian 4 n

def listHead (n : Nat) : List UInt8 :=
  if n < 16 then [UInt8.ofNat (0x90 + n)]
  else if n < 2 ^ 16 then 0xdc :: bigEndian 2 n
  else 0xdd :: bigEndian 4 n

def mapHead (n : Nat) : List UInt8 :=
  if n < 16 then [UInt8.ofNat (0x80 + n)]
  else if n < 2 ^ 16 then 0xde :: bigEndian 2 n
  else 0xdf :: bigEndian 4 n

/-! ## Values -/

def writeText (s : String) : List UInt8 :=
  let bytes := s.toUTF8.toList
  textHead bytes.length ++ bytes

mutual

def write : Datum → List UInt8
  | .null => [0xc0]
  | .bool b => [if b then 0xc3 else 0xc2]
  | .int n => writeInt n
  | .real x => 0xcb :: bigEndian 8 x.toBits.toNat
  | .text s => writeText s
  | .octets bytes => octetsHead bytes.length ++ bytes
  | .list items => listHead items.length ++ writeItems items
  | .map entries => mapHead entries.length ++ writeEntries entries
  | .unreadable => [0xc0]

def writeItems : List Datum → List UInt8
  | [] => []
  | d :: rest => write d ++ writeItems rest

def writeEntries : List (Datum × Datum) → List UInt8
  | [] => []
  | (k, d) :: rest => write k ++ write d ++ writeEntries rest

end

end TrafficLab.MessagePack
