import TrafficLab.MessagePack.Reader
import TrafficLab.MessagePack.Writer
import TrafficLab.Proofs.Checked

/-!
# MessagePack: what is written is read back

A number, a text or a list is written in the shortest of several forms.  Whichever it is, the reader
takes exactly the bytes that were written and leaves what follows them.

    d.Fits depth → value? depth (write d ++ rest) = some (d, rest)      (value?_write)
    d.Fits 1024 → read? (write d ++ rest) = some d                      (read?_write)

`Datum.Fits` says what the format has room for: numbers of 64 bits, lengths of 32 bits, and a
nesting that the reader follows.
-/

namespace TrafficLab

/-! ## What the format has room for -/

/-- The number of lengths that can be written. -/
def MessagePack.lengths : Nat := 2 ^ 32

/-- Whether a datum can be written, and read by a reader that follows `depth` levels.
Floating-point numbers are left out: nothing is known here of their bits. -/
inductive Datum.Fits : Nat → Datum → Prop
  | null {depth : Nat} : Fits (depth + 1) .null
  | bool {depth : Nat} (b : Bool) : Fits (depth + 1) (.bool b)
  | int {depth : Nat} {n : Int} (lower : -(2 ^ 63 : Nat) ≤ n) (upper : n < (2 ^ 64 : Nat)) :
    Fits (depth + 1) (.int n)
  | text {depth : Nat} {s : String} (short : s.utf8ByteSize < MessagePack.lengths) :
    Fits (depth + 1) (.text s)
  | octets {depth : Nat} {bytes : List UInt8} (short : bytes.length < MessagePack.lengths) :
    Fits (depth + 1) (.octets bytes)
  | list {depth : Nat} {items : List Datum} (short : items.length < MessagePack.lengths)
    (parts : ∀ d ∈ items, Fits depth d) : Fits (depth + 1) (.list items)
  | map {depth : Nat} {entries : List (Datum × Datum)}
    (short : entries.length < MessagePack.lengths) (keys : ∀ e ∈ entries, Fits depth e.1)
    (values : ∀ e ∈ entries, Fits depth e.2) : Fits (depth + 1) (.map entries)

/-! ## Bytes of a text -/

theorem toList_loop_eq (bytes : ByteArray) (i : Nat) (acc : List UInt8) :
    ByteArray.toList.loop bytes i acc = acc.reverse ++ bytes.data.toList.drop i := by
  induction i, acc using ByteArray.toList.loop.induct bytes with
  | case1 i acc hlt ih =>
    have hi : i < bytes.data.toList.length := by simpa using hlt
    have hget : bytes.get! i = bytes.data.toList[i] := getElem!_pos bytes.data i hi
    rw [ByteArray.toList.loop, if_pos hlt, ih, List.drop_eq_getElem_cons hi, hget]
    simp
  | case2 i acc hge =>
    have hi : bytes.data.toList.length ≤ i := by simpa using hge
    rw [ByteArray.toList.loop, if_neg hge, List.drop_eq_nil_of_le hi, List.append_nil]

theorem toList_eq (bytes : ByteArray) : bytes.toList = bytes.data.toList := by
  rw [ByteArray.toList, toList_loop_eq, List.reverse_nil, List.nil_append, List.drop_zero]

/-- The bytes that a text is written in are those that it is read from. -/
theorem toByteArray_toList (bytes : ByteArray) : ByteArray.mk bytes.toList.toArray = bytes := by
  rw [toList_eq, Array.toArray_toList]

theorem length_toUTF8 (s : String) : s.toUTF8.toList.length = s.utf8ByteSize := by
  rw [toList_eq, Array.length_toList]
  rfl

theorem fromUTF8?_toUTF8 (s : String) : String.fromUTF8? s.toUTF8 = some s :=
  dif_pos s.isValidUTF8

namespace MessagePack

/-! ## Numbers and lengths -/

theorem take?_append {front : List UInt8} {n : Nat} (h : front.length = n) (rest : List UInt8) :
    take? n (front ++ rest) = some (front, rest) := by
  unfold take?
  rw [List.take_left' h, List.drop_left' h]
  exact if_pos h

theorem takeNat?_bigEndian {n v : Nat} (h : v < 256 ^ n) (rest : List UInt8) :
    takeNat? n (bigEndian n v ++ rest) = some (v, rest) := by
  have hlen : (bigEndian n v).length = n := by
    rw [bigEndian, List.length_reverse, LittleEndian.length_digits]
  have hvalue : LittleEndian.value (bigEndian n v).reverse = v := by
    rw [bigEndian, List.reverse_reverse, LittleEndian.value_digits, Nat.mod_eq_of_lt h]
  unfold takeNat?
  rw [take?_append hlen, Option.map_some]
  exact congrArg (fun value => some (value, rest)) hvalue

/-- A number that is written as its complement is read as a negative number. -/
theorem takeInt?_bigEndian {width n : Nat} (hpos : 0 < width) (hn : 0 < n)
    (h : n ≤ 2 ^ (8 * width - 1)) (rest : List UInt8) :
    takeInt? width (bigEndian width (2 ^ (8 * width) - n) ++ rest) = some (-(n : Int), rest) := by
  have htwice : 2 ^ (8 * width) = 2 * 2 ^ (8 * width - 1) := by
    rw [← Nat.pow_succ']
    congr 1
    omega
  have hsize : 256 ^ width = 2 ^ (8 * width) := by rw [Nat.pow_mul]
  have hv : 2 ^ (8 * width) - n < 256 ^ width := by omega
  unfold takeInt?
  rw [takeNat?_bigEndian hv, Option.map_some]
  simp only [Option.some.injEq, Prod.mk.injEq, and_true]
  rw [if_neg (by omega)]
  simp only [Int.ofNat_eq_natCast]
  omega

section
variable (depth : Nat) (bytes : List UInt8)

/-- A marker with a number behind it: the number is read, then what the marker announces. -/
theorem value?_sized {marker : UInt8} {width n : Nat} (hn : n < 256 ^ width)
    (body : Nat → List UInt8 → Option (Datum × List UInt8))
    (hm : ∀ rest, value? (depth + 1) (marker :: rest) =
      (takeNat? width rest).bind fun (v, rest) => body v rest) :
    value? (depth + 1) (marker :: bigEndian width n ++ bytes) = body n bytes := by
  rw [List.cons_append, hm, takeNat?_bigEndian hn, Option.bind_some]

theorem value?_writeNat {n : Nat} (h : n < 2 ^ 64) :
    value? (depth + 1) (writeNat n ++ bytes) = some (.int n, bytes) := by
  let body (v : Nat) (rest : List UInt8) : Option (Datum × List UInt8) := some (.int v, rest)
  unfold writeNat
  split_ifs with h7 h8 h16 h32
  · have hn : (UInt8.ofNat n).toNat = n := UInt8.toNat_ofNat_of_lt' (by simp [UInt8.size]; omega)
    simp [value?, hn, h7]
  · exact value?_sized depth bytes h8 body fun rest => Option.map_eq_bind
  · exact value?_sized depth bytes h16 body fun rest => Option.map_eq_bind
  · exact value?_sized depth bytes h32 body fun rest => Option.map_eq_bind
  · exact value?_sized depth bytes h body fun rest => Option.map_eq_bind

theorem value?_writeNegative {n : Nat} (hn : 0 < n) (h : n ≤ 2 ^ 63) :
    value? (depth + 1) (writeNegative n ++ bytes) = some (.int (-n), bytes) := by
  have wide {marker : UInt8} (width : Nat) (hpos : 0 < width) (hle : n ≤ 2 ^ (8 * width - 1))
      (hm : ∀ rest, value? (depth + 1) (marker :: rest) =
        (takeInt? width rest).map fun r => (Datum.int r.1, r.2)) :
      value? (depth + 1) (marker :: bigEndian width (2 ^ (8 * width) - n) ++ bytes) =
        some (.int (-n), bytes) := by
    rw [List.cons_append, hm, takeInt?_bigEndian hpos hn hle]
    rfl
  unfold writeNegative
  split_ifs with h5 h7 h15 h31
  · have hm : (UInt8.ofNat (256 - n)).toNat = 256 - n :=
      UInt8.toNat_ofNat_of_lt' (by simp [UInt8.size]; omega)
    simp only [List.cons_append, List.nil_append, value?, hm]
    rw [if_neg (by omega), if_neg (by omega), if_neg (by omega), if_neg (by omega),
      if_pos (by omega)]
    simp only [Option.some.injEq, Prod.mk.injEq, Datum.int.injEq, and_true, Int.ofNat_eq_natCast]
    omega
  · exact wide 1 (by decide) h7 fun rest => rfl
  · exact wide 2 (by decide) h15 fun rest => rfl
  · exact wide 4 (by decide) h31 fun rest => rfl
  · exact wide 8 (by decide) h fun rest => rfl

theorem value?_writeInt {n : Int} (lower : -(2 ^ 63 : Nat) ≤ n) (upper : n < (2 ^ 64 : Nat)) :
    value? (depth + 1) (writeInt n ++ bytes) = some (.int n, bytes) := by
  unfold writeInt
  split_ifs with hn
  · rw [value?_writeNat depth bytes (by omega), Int.toNat_of_nonneg hn]
  · rw [value?_writeNegative depth bytes (by omega) (by omega), Int.toNat_of_nonneg (by omega),
      Int.neg_neg]

/-! ## Heads -/

theorem value?_textHead {n : Nat} (h : n < lengths) :
    value? (depth + 1) (textHead n ++ bytes) = takeText? n bytes := by
  unfold textHead
  split_ifs with h5 h8 h16
  · have hm : (UInt8.ofNat (0xa0 + n)).toNat = 0xa0 + n :=
      UInt8.toNat_ofNat_of_lt' (by simp [UInt8.size]; omega)
    simp only [List.cons_append, List.nil_append, value?, hm]
    rw [if_neg (by omega), if_neg (by omega), if_neg (by omega), if_pos (by omega),
      Nat.add_sub_cancel_left]
  · exact value?_sized depth bytes h8 takeText? fun rest => rfl
  · exact value?_sized depth bytes h16 takeText? fun rest => rfl
  · exact value?_sized depth bytes h takeText? fun rest => rfl

theorem value?_octetsHead {n : Nat} (h : n < lengths) :
    value? (depth + 1) (octetsHead n ++ bytes) = takeOctets? n bytes := by
  unfold octetsHead
  split_ifs with h8 h16
  · exact value?_sized depth bytes h8 takeOctets? fun rest => rfl
  · exact value?_sized depth bytes h16 takeOctets? fun rest => rfl
  · exact value?_sized depth bytes h takeOctets? fun rest => rfl

/-- A list of so many items. -/
def takeList? (n : Nat) (bytes : List UInt8) : Option (Datum × List UInt8) :=
  (takeItems? (value? depth) n bytes).map fun (items, rest) => (.list items, rest)

/-- A map of so many entries. -/
def takeMap? (n : Nat) (bytes : List UInt8) : Option (Datum × List UInt8) :=
  (takeEntries? (value? depth) n bytes).map fun (entries, rest) => (.map entries, rest)

theorem value?_listHead {n : Nat} (h : n < lengths) :
    value? (depth + 1) (listHead n ++ bytes) = takeList? depth n bytes := by
  unfold listHead
  split_ifs with h4 h16
  · have hm : (UInt8.ofNat (0x90 + n)).toNat = 0x90 + n :=
      UInt8.toNat_ofNat_of_lt' (by simp [UInt8.size]; omega)
    simp only [List.cons_append, List.nil_append, value?, hm]
    rw [if_neg (by omega), if_neg (by omega), if_pos (by omega), Nat.add_sub_cancel_left]
    rfl
  · exact value?_sized depth bytes h16 (takeList? depth) fun rest => rfl
  · exact value?_sized depth bytes h (takeList? depth) fun rest => rfl

theorem value?_mapHead {n : Nat} (h : n < lengths) :
    value? (depth + 1) (mapHead n ++ bytes) = takeMap? depth n bytes := by
  unfold mapHead
  split_ifs with h4 h16
  · have hm : (UInt8.ofNat (0x80 + n)).toNat = 0x80 + n :=
      UInt8.toNat_ofNat_of_lt' (by simp [UInt8.size]; omega)
    simp only [List.cons_append, List.nil_append, value?, hm]
    rw [if_neg (by omega), if_pos (by omega), Nat.add_sub_cancel_left]
    rfl
  · exact value?_sized depth bytes h16 (takeMap? depth) fun rest => rfl
  · exact value?_sized depth bytes h (takeMap? depth) fun rest => rfl

end

/-! ## Values -/

theorem takeText?_append {s : String} (rest : List UInt8) :
    takeText? s.toUTF8.toList.length (s.toUTF8.toList ++ rest) = some (.text s, rest) := by
  have hs : String.fromUTF8? ⟨s.toUTF8.toList.toArray⟩ = some s := by
    rw [toByteArray_toList, fromUTF8?_toUTF8]
  unfold takeText?
  rw [take?_append rfl, Option.map_some]
  simp only [hs]

theorem takeItems?_writeItems {read : List UInt8 → Option (Datum × List UInt8)}
    {items : List Datum} (h : ∀ d ∈ items, ∀ rest, read (write d ++ rest) = some (d, rest))
    (rest : List UInt8) :
    takeItems? read items.length (writeItems items ++ rest) = some (items, rest) := by
  induction items with
  | nil => rfl
  | cons d items ih =>
    have hd := h d (by simp) (writeItems items ++ rest)
    have hitems := ih fun e he => h e (by simp [he])
    rw [List.length_cons, takeItems?, writeItems, List.append_assoc]
    simp only [hd, hitems, Option.bind_eq_bind, Option.bind_some]

theorem takeEntries?_writeEntries {read : List UInt8 → Option (Datum × List UInt8)}
    {entries : List (Datum × Datum)}
    (hkeys : ∀ e ∈ entries, ∀ rest, read (write e.1 ++ rest) = some (e.1, rest))
    (hvalues : ∀ e ∈ entries, ∀ rest, read (write e.2 ++ rest) = some (e.2, rest))
    (rest : List UInt8) :
    takeEntries? read entries.length (writeEntries entries ++ rest) = some (entries, rest) := by
  induction entries with
  | nil => rfl
  | cons e entries ih =>
    obtain ⟨k, d⟩ := e
    have hk := hkeys (k, d) (by simp) (write d ++ (writeEntries entries ++ rest))
    have hd := hvalues (k, d) (by simp) (writeEntries entries ++ rest)
    have hentries := ih (fun e he => hkeys e (by simp [he])) fun e he => hvalues e (by simp [he])
    rw [List.length_cons, takeEntries?, writeEntries, List.append_assoc, List.append_assoc]
    simp only [hk, hd, hentries, Option.bind_eq_bind, Option.bind_some]

/-- A datum that was written is read back from the front of its bytes. -/
theorem value?_write {depth : Nat} {d : Datum} (h : d.Fits depth) (rest : List UInt8) :
    value? depth (write d ++ rest) = some (d, rest) := by
  induction h generalizing rest with
  | null => rfl
  | bool b => cases b <;> rfl
  | int lower upper => exact value?_writeInt _ rest lower upper
  | text short =>
    rw [← length_toUTF8] at short
    rw [write, writeText, List.append_assoc, value?_textHead _ _ short, takeText?_append]
  | octets short =>
    rw [write, List.append_assoc, value?_octetsHead _ _ short, takeOctets?, take?_append rfl,
      Option.map_some]
  | list short _ ih =>
    rw [write, List.append_assoc, value?_listHead _ _ short, takeList?, takeItems?_writeItems ih,
      Option.map_some]
  | map short _ _ ihkeys ihvalues =>
    rw [write, List.append_assoc, value?_mapHead _ _ short, takeMap?,
      takeEntries?_writeEntries ihkeys ihvalues, Option.map_some]

/-- What follows a datum does not matter to its reader. -/
theorem read?_write {d : Datum} (h : d.Fits 1024) (rest : List UInt8) :
    read? (write d ++ rest) = some d := by
  rw [read?, value?_write h, Option.map_some]

end MessagePack

end TrafficLab
