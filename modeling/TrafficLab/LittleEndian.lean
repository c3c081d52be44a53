import TrafficLab.Power

/-!
# Little-endian words

Everything that is written to a core or read back from it is a list of bytes, with the low byte of
each word first.

    value (digits n v) = v % 256 ^ n                 (value_digits)
    digits l.length (value l) = l                    (digits_value)

`words32` and `words64` cut a list of bytes into whole words; bytes that do not fill a word are
left out.
-/

namespace TrafficLab.LittleEndian

/-! ## Algorithm -/

/-- The `n` low bytes of `v`. -/
def digits : Nat → Nat → List UInt8
  | 0, _ => []
  | n + 1, v => UInt8.ofNat v :: digits n (v / 256)

/-- The number that the bytes spell. -/
def value : List UInt8 → Nat
  | [] => 0
  | b :: rest => b.toNat + 256 * value rest

def bytes32 (w : UInt32) : List UInt8 := digits 4 w.toNat

def bytes64 (w : UInt64) : List UInt8 := digits 8 w.toNat

def word32 (bytes : List UInt8) : UInt32 := UInt32.ofNat (value bytes)

def word64 (bytes : List UInt8) : UInt64 := UInt64.ofNat (value bytes)

def words32 : List UInt8 → List UInt32
  | a :: b :: c :: d :: rest => word32 [a, b, c, d] :: words32 rest
  | _ => []

def words64 : List UInt8 → List UInt64
  | a :: b :: c :: d :: e :: f :: g :: h :: rest => word64 [a, b, c, d, e, f, g, h] :: words64 rest
  | _ => []

/-! ## Lemmas -/

@[simp] theorem length_digits (n v : Nat) : (digits n v).length = n := by
  induction n generalizing v with
  | zero => rfl
  | succ n ih => simp [digits, ih]

@[simp] theorem length_bytes32 (w : UInt32) : (bytes32 w).length = 4 := length_digits 4 _

@[simp] theorem length_bytes64 (w : UInt64) : (bytes64 w).length = 8 := length_digits 8 _

theorem value_digits (n v : Nat) : value (digits n v) = v % 256 ^ n := by
  induction n generalizing v with
  | zero => simp [digits, value, Nat.mod_one]
  | succ n ih =>
    rw [digits, value, ih, Nat.pow_succ, Nat.mul_comm (256 ^ n), Nat.mod_mul]
    simp

theorem digits_value (l : List UInt8) : digits l.length (value l) = l := by
  induction l with
  | nil => rfl
  | cons b rest ih =>
    have hb : b.toNat < 256 := b.toNat_lt
    have h : (b.toNat + 256 * value rest) / 256 = value rest := by omega
    simp [digits, value, h, ih]

@[simp] theorem word32_bytes32 (w : UInt32) : word32 (bytes32 w) = w := by
  apply UInt32.toNat_inj.1
  have := w.toNat_lt
  simp [word32, bytes32, value_digits]

@[simp] theorem word64_bytes64 (w : UInt64) : word64 (bytes64 w) = w := by
  apply UInt64.toNat_inj.1
  have := w.toNat_lt
  simp [word64, bytes64, value_digits]

theorem words32_bytes32_append (w : UInt32) (rest : List UInt8) :
    words32 (bytes32 w ++ rest) = w :: words32 rest := by
  have h : bytes32 w = [UInt8.ofNat w.toNat, UInt8.ofNat (w.toNat / 256),
      UInt8.ofNat (w.toNat / 256 / 256), UInt8.ofNat (w.toNat / 256 / 256 / 256)] := rfl
  have hw := word32_bytes32 w
  rw [h] at hw ⊢
  simp only [List.cons_append, List.nil_append, words32, hw]

theorem words64_bytes64_append (w : UInt64) (rest : List UInt8) :
    words64 (bytes64 w ++ rest) = w :: words64 rest := by
  have h : bytes64 w = [UInt8.ofNat w.toNat, UInt8.ofNat (w.toNat / 256),
      UInt8.ofNat (w.toNat / 256 / 256), UInt8.ofNat (w.toNat / 256 / 256 / 256),
      UInt8.ofNat (w.toNat / 256 / 256 / 256 / 256),
      UInt8.ofNat (w.toNat / 256 / 256 / 256 / 256 / 256),
      UInt8.ofNat (w.toNat / 256 / 256 / 256 / 256 / 256 / 256),
      UInt8.ofNat (w.toNat / 256 / 256 / 256 / 256 / 256 / 256 / 256)] := rfl
  have hw := word64_bytes64 w
  rw [h] at hw ⊢
  simp only [List.cons_append, List.nil_append, words64, hw]

end TrafficLab.LittleEndian
