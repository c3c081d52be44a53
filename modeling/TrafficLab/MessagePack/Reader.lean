import TrafficLab.Datum
import TrafficLab.LittleEndian

/-!
# Reading MessagePack

`MessagePack.read? bytes` is the datum at the front of a byte string; bytes after it are ignored.
All widths of numbers and lengths are accepted, and lists and maps may be nested a thousand deep.
-/

namespace TrafficLab.MessagePack

/-! ## Numbers and lengths -/

/-- The first `n` bytes and the rest. -/
def take? (n : Nat) (bytes : List UInt8) : Option (List UInt8 × List UInt8) :=
  let front := bytes.take n
  if front.length = n then some (front, bytes.drop n) else none

/-- A number of `n` bytes, the high one first. -/
def takeNat? (n : Nat) (bytes : List UInt8) : Option (Nat × List UInt8) :=
  (take? n bytes).map fun (front, rest) => (LittleEndian.value front.reverse, rest)

/-- A number of `n` bytes, negative if its highest bit is set. -/
def takeInt? (n : Nat) (bytes : List UInt8) : Option (Int × List UInt8) :=
  (takeNat? n bytes).map fun (v, rest) =>
    (if v < 2 ^ (8 * n - 1) then Int.ofNat v else Int.ofNat v - Int.ofNat (2 ^ (8 * n)), rest)

/-- A text of `n` bytes. -/
def takeText? (n : Nat) (bytes : List UInt8) : Option (Datum × List UInt8) :=
  (take? n bytes).map fun (front, rest) =>
    match String.fromUTF8? ⟨front.toArray⟩ with
    | some s => (.text s, rest)
    | none => (.unreadable, rest)

def takeOctets? (n : Nat) (bytes : List UInt8) : Option (Datum × List UInt8) :=
  (take? n bytes).map fun (front, rest) => (.octets front, rest)

/-- An extension: its kind and `n` bytes that mean nothing here. -/
def skipExtension? (n : Nat) (bytes : List UInt8) : Option (Datum × List UInt8) :=
  (take? (n + 1) bytes).map fun (_, rest) => (.unreadable, rest)

/-! ## Values -/

/-- `n` values in a row. -/
def takeItems? (value? : List UInt8 → Option (Datum × List UInt8)) :
    Nat → List UInt8 → Option (List Datum × List UInt8)
  | 0, bytes => some ([], bytes)
  | n + 1, bytes => do
    let (d, rest) ← value? bytes
    let (items, rest) ← takeItems? value? n rest
    some (d :: items, rest)

/-- `n` keys in a row, each with its value. -/
def takeEntries? (value? : List UInt8 → Option (Datum × List UInt8)) :
    Nat → List UInt8 → Option (List (Datum × Datum) × List UInt8)
  | 0, bytes => some ([], bytes)
  | n + 1, bytes => do
    let (k, rest) ← value? bytes
    let (d, rest) ← value? rest
    let (entries, rest) ← takeEntries? value? n rest
    some ((k, d) :: entries, rest)

/-- The datum at the front, nested less than the given depth. -/
def value? : Nat → List UInt8 → Option (Datum × List UInt8)
  | 0, _ => none
  | _ + 1, [] => none
  | depth + 1, marker :: rest =>
    let m := marker.toNat
    let items (n : Nat) (rest : List UInt8) :=
      (takeItems? (value? depth) n rest).map fun (items, rest) => (Datum.list items, rest)
    let entries (n : Nat) (rest : List UInt8) :=
      (takeEntries? (value? depth) n rest).map fun (entries, rest) => (Datum.map entries, rest)
    let nat (n : Nat) := (takeNat? n rest).map fun (v, rest) => (Datum.int (Int.ofNat v), rest)
    let int (n : Nat) := (takeInt? n rest).map fun (v, rest) => (Datum.int v, rest)
    let sized (n : Nat) (body : Nat → List UInt8 → Option (Datum × List UInt8)) :=
      (takeNat? n rest).bind fun (v, rest) => body v rest
    if m < 0x80 then some (.int (Int.ofNat m), rest)
    else if m < 0x90 then entries (m - 0x80) rest
    else if m < 0xa0 then items (m - 0x90) rest
    else if m < 0xc0 then takeText? (m - 0xa0) rest
    else if 0xe0 ≤ m then some (.int (Int.ofNat m - 256), rest)
    else match m with
      | 0xc0 => some (.null, rest)
      | 0xc2 => some (.bool false, rest)
      | 0xc3 => some (.bool true, rest)
      | 0xc4 => sized 1 takeOctets?
      | 0xc5 => sized 2 takeOctets?
      | 0xc6 => sized 4 takeOctets?
      | 0xc7 => sized 1 skipExtension?
      | 0xc8 => sized 2 skipExtension?
      | 0xc9 => sized 4 skipExtension?
      | 0xca => (takeNat? 4 rest).map fun (v, rest) =>
          (.real (Float32.ofBits (UInt32.ofNat v)).toFloat, rest)
      | 0xcb => (takeNat? 8 rest).map fun (v, rest) => (.real (Float.ofBits (UInt64.ofNat v)), rest)
      | 0xcc => nat 1
      | 0xcd => nat 2
      | 0xce => nat 4
      | 0xcf => nat 8
      | 0xd0 => int 1
      | 0xd1 => int 2
      | 0xd2 => int 4
      | 0xd3 => int 8
      | 0xd4 => skipExtension? 1 rest
      | 0xd5 => skipExtension? 2 rest
      | 0xd6 => skipExtension? 4 rest
      | 0xd7 => skipExtension? 8 rest
      | 0xd8 => skipExtension? 16 rest
      | 0xd9 => sized 1 takeText?
      | 0xda => sized 2 takeText?
      | 0xdb => sized 4 takeText?
      | 0xdc => sized 2 items
      | 0xdd => sized 4 items
      | 0xde => sized 2 entries
      | 0xdf => sized 4 entries
      | _ => none

/-- The datum at the front of a byte string. -/
def read? (bytes : List UInt8) : Option Datum := (value? 1024 bytes).map (·.1)

end TrafficLab.MessagePack
