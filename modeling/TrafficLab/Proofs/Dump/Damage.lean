import TrafficLab.Proofs.Dump

/-!
# Reading damaged dumps

A dump may be cut short, go on after its end or have another header than the program's.  What is
read of it are the values whose bytes are all there, at the places where they were written; what
follows the last value does not matter, and a dump with another header says nothing.

    (words64 bytes).length = bytes.length / 8                                   (length_words64)
    Matches → cell? k i = valueAt? bytes (k * slots + i)                        (cell?_read)
    ¬Matches → no cell has a value and the status is unknown                    (read_says_nothing)
    valueAt? (bytes.take n) k = valueAt? bytes k, if n reaches that far         (valueAt?_take)
-/

namespace TrafficLab

theorem LittleEndian.length_words64 (l : List UInt8) : (words64 l).length = l.length / 8 := by
  apply Nat.le_antisymm
  · apply List.getElem?_eq_none_iff.1
    rw [getElem?_words64, if_neg (by omega)]
  · apply Nat.le_of_not_lt
    intro hlt
    have hnone := List.getElem?_eq_none (Nat.le_refl (words64 l).length)
    rw [getElem?_words64, if_pos (by omega)] at hnone
    cases hnone

namespace Contribution

/-- The value of a slot in a record. -/
def cell? (c : Contribution) (record slot : Nat) : Option UInt64 :=
  c.rows[record]?.bind fun row => (row[slot]?).join

/-- A contribution without values, of a dump that is not one of the program's. -/
structure SaysNothing (c : Contribution) : Prop where
  status : ∃ fault, c.status = .unknown fault
  cell : ∀ record slot, c.cell? record slot = none
  value : ∀ slot, c.value? slot = none

/-- A contribution that has the first `words` of some values, each at its place, and no others. -/
structure HasFirst (c : Contribution) (p : Program) (values : List UInt64) (words : Nat) :
    Prop where
  core : c.core = p.core
  status : c.status =
    if p.slots.length * p.samples ≤ words then .decoded else .truncated words
  length_rows : c.rows.length = p.samples
  length_row : ∀ row ∈ c.rows, row.length = p.slots.length
  cell : ∀ record slot, record < p.samples → slot < p.slots.length →
    c.cell? record slot =
      if record * p.slots.length + slot < words then values[record * p.slots.length + slot]?
      else none
  value : ∀ slot, c.value? slot = c.cell? (p.samples - 1) slot

end Contribution

namespace Dump

/-! ## Places and rows -/

theorem length_of_mem_cut {α : Type} {rows n : Nat} {values row : List α}
    (hlen : values.length = n * rows) (hrow : row ∈ cut rows n values) : row.length = n := by
  induction rows generalizing values with
  | zero => simp [cut] at hrow
  | succ rows ih =>
    rw [Nat.mul_succ] at hlen
    unfold cut at hrow
    rcases List.mem_cons.1 hrow with rfl | hrow
    · rw [List.length_take]
      omega
    · refine ih ?_ hrow
      rw [List.length_drop]
      omega

/-- A value that is cut off in part is cut off. -/
theorem valueAt?_take (bytes : List UInt8) (n k : Nat) :
    valueAt? (bytes.take n) k =
      if k < (n - headerSize) / 8 then valueAt? bytes k else none := by
  unfold valueAt?
  rw [List.length_take]
  by_cases hk : k < (n - headerSize) / 8
  · have hend : headerSize + 8 * k + 8 ≤ n := by
      unfold headerSize at hk ⊢
      omega
    rw [if_pos hk]
    by_cases hlen : headerSize + 8 * k + 8 ≤ bytes.length
    · have hbytes : (List.drop (headerSize + 8 * k) (bytes.take n)).take 8 =
          (bytes.drop (headerSize + 8 * k)).take 8 := by
        rw [List.drop_take, List.take_take, Nat.min_eq_left (by omega)]
      rw [if_pos (by omega), if_pos hlen, hbytes]
    · rw [if_neg (by omega), if_neg hlen]
  · rw [if_neg hk, if_neg (by unfold headerSize at hk ⊢; omega)]

section
variable {p : Program} {dump : CounterDump}

/-! ## Dumps with the program's header -/

theorem status_read (h : Matches p dump.bytes) :
    (read p dump).status =
      if p.slots.length * p.samples ≤ (dump.bytes.length - headerSize) / 8 then .decoded
      else .truncated ((dump.bytes.length - headerSize) / 8) := by
  unfold read
  rw [headerFault?_eq_none.2 h]
  simp only
  rw [List.length_take, LittleEndian.length_words64, List.length_drop]
  by_cases hle : p.slots.length * p.samples ≤ (dump.bytes.length - headerSize) / 8
  · rw [Nat.min_eq_left hle, if_pos rfl, if_pos hle]
  · rw [Nat.min_eq_right (by omega), if_neg (by omega), if_neg hle]

theorem length_row_read {row : List (Option UInt64)} (hrow : row ∈ (read p dump).rows) :
    row.length = p.slots.length := by
  unfold read at hrow
  split at hrow
  · exact length_of_mem_cut List.length_replicate hrow
  · refine length_of_mem_cut ?_ hrow
    rw [List.length_append, List.length_map, List.length_replicate, List.length_take]
    omega

theorem cell?_read (h : Matches p dump.bytes) {record slot : Nat} (hr : record < p.samples)
    (hs : slot < p.slots.length) :
    (read p dump).cell? record slot =
      valueAt? dump.bytes (record * p.slots.length + slot) := by
  obtain ⟨row, hrow, hvalue⟩ := rows_read h hr hs
  unfold Contribution.cell?
  rw [hrow]
  exact hvalue

/-- The values at the end of the run are those of the last record. -/
theorem value?_eq_cell? (slot : Nat) :
    (read p dump).value? slot = (read p dump).cell? (p.samples - 1) slot := by
  unfold Contribution.value? Contribution.cell?
  rw [List.getLast?_eq_getElem?, length_rows_read]

/-! ## Dumps with another header -/

theorem read_says_nothing (h : ¬Matches p dump.bytes) : (read p dump).SaysNothing := by
  have hcell : ∀ record slot, (read p dump).cell? record slot = none := by
    intro record slot
    unfold Contribution.cell?
    cases hrow : (read p dump).rows[record]? with
    | none => rfl
    | some row =>
      show (row[slot]?).join = none
      cases hx : row[slot]? with
      | none => rfl
      | some x =>
        exact rows_read_of_not_matches h row (List.mem_of_getElem? hrow) x
          (List.mem_of_getElem? hx)
  refine ⟨?_, hcell, fun slot => by rw [value?_eq_cell?, hcell]⟩
  unfold read
  split
  · next fault _ => exact ⟨fault, rfl⟩
  · next hnone => exact absurd (headerFault?_eq_none.1 hnone) h

theorem headerFault?_of_short {bytes : List UInt8} (h : bytes.length < headerSize) :
    headerFault? p bytes = some .noHeader := by
  have hwords : (LittleEndian.words32 (bytes.take headerSize)).length < 3 := by
    unfold headerSize at h ⊢
    rw [LittleEndian.length_words32, List.length_take]
    omega
  unfold headerFault?
  simp only
  split
  · next found tag count heq =>
    rw [heq] at hwords
    exact absurd hwords (Nat.lt_irrefl 3)
  · rfl

theorem status_read_of_short (h : dump.bytes.length < headerSize) :
    (read p dump).status = .unknown .noHeader := by
  unfold read
  rw [headerFault?_of_short h]

/-! ## Cut dumps -/

variable {values : List UInt64}

theorem matches_take {bytes : List UInt8} (h : Matches p bytes) {n : Nat} (hn : headerSize ≤ n) :
    Matches p (bytes.take n) := by
  unfold Matches
  rw [List.take_take, Nat.min_eq_left hn]
  exact h

/-- A written dump that is cut after its header has the values that are left. -/
theorem read_take_hasFirst (hlen : values.length = p.slots.length * p.samples) {n : Nat}
    (hn : headerSize ≤ n) (core : CoreId) :
    (read p ⟨core, (p.dump values).bytes.take n⟩).HasFirst p values ((n - headerSize) / 8) := by
  have hmatches : Matches p ((p.dump values).bytes.take n) :=
    matches_take (matches_layout p values) hn
  have hlength : (p.dump values).bytes.length = headerSize + 8 * values.length :=
    length_layout _ _ _
  refine ⟨?_, ?_, length_rows_read, fun row => length_row_read, fun record slot hr hs => ?_,
    value?_eq_cell?⟩
  · unfold read
    split <;> rfl
  · rw [status_read hmatches, List.length_take, hlength, hlen]
    by_cases hle : p.slots.length * p.samples ≤ (n - headerSize) / 8
    · rw [if_pos hle, if_pos (by omega)]
    · rw [if_neg hle, if_neg (by omega), Nat.min_eq_left (by omega)]
  · rw [cell?_read hmatches hr hs]
    show valueAt? ((p.dump values).bytes.take n) _ = _
    rw [valueAt?_take]
    show (if _ then valueAt? (layout p.tag (UInt32.ofNat p.slots.length) values) _ else none) = _
    rw [valueAt?_layout]

end

/-! ## Main result -/

/-- What is read of a written dump that is damaged: of a part, the values that are whole; of a
continuation, what is read of the dump; with another header, nothing. -/
theorem damage_only_loses_values {p : Program} {values : List UInt64}
    (hlen : values.length = p.slots.length * p.samples) (core : CoreId) :
    let written := (p.dump values).bytes
    (∀ n < headerSize, (read p ⟨core, written.take n⟩).status = .unknown .noHeader ∧
        (read p ⟨core, written.take n⟩).SaysNothing) ∧
      (∀ n, headerSize ≤ n →
        (read p ⟨core, written.take n⟩).HasFirst p values ((n - headerSize) / 8)) ∧
      (∀ more, read p ⟨core, written ++ more⟩ = read p ⟨core, written⟩) ∧
      ∀ header rest, header.length = headerSize → header ≠ written.take headerSize →
        (read p ⟨core, header ++ rest⟩).SaysNothing := by
  intro written
  have hwritten : Matches p written := matches_layout p values
  refine ⟨fun n hn => ?_, fun n hn => read_take_hasFirst hlen hn core, fun more => ?_,
    fun header rest hheader hne => ?_⟩
  · have hshort : (written.take n).length < headerSize :=
      Nat.lt_of_le_of_lt (List.length_take_le n written) hn
    refine ⟨status_read_of_short hshort, read_says_nothing fun hmatches => ?_⟩
    have hfault := headerFault?_of_short (p := p) hshort
    rw [headerFault?_eq_none.2 hmatches] at hfault
    cases hfault
  · rw [read_layout_append hlen rfl, read_layout hlen rfl]
  · refine read_says_nothing fun hmatches => hne ?_
    unfold Matches at hmatches hwritten
    rw [hwritten, ← hmatches]
    exact (List.take_left' hheader).symm

/-- A core that receives one flow and records its two counters twice. -/
def recordsTwice : CorePlan where
  core := ⟨3⟩
  seed := 0
  timestep := ⟨1000⟩
  runTicks := ⟨10⟩
  record := .empty
  recordInterval := ⟨5⟩
  consume := true
  sources := []
  sinks := [⟨⟨0⟩, .ofIndex 1, ⟨1⟩, true⟩]
  slots := [⟨some ⟨0⟩, .received, 0⟩, ⟨some ⟨0⟩, .latencySum, 0⟩]

/-- A cut within the second record leaves the first. -/
theorem damage_only_loses_values_recordsTwice :
    let p := recordsTwice.assemble
    let values : List UInt64 := [4, 8, 10, 20]
    let c := read p ⟨⟨3⟩, (p.dump values).bytes.take 35⟩
    values.length = p.slots.length * p.samples ∧
      c.status = .truncated 2 ∧ c.cell? 0 0 = some 4 ∧ c.cell? 0 1 = some 8 ∧
      c.cell? 1 0 = none ∧ c.value? 0 = none ∧
      ∀ header rest, header.length = headerSize →
        header ≠ (p.dump values).bytes.take headerSize →
        (read p ⟨⟨3⟩, header ++ rest⟩).SaysNothing := by
  intro p values c
  have hlen : values.length = p.slots.length * p.samples := by decide
  obtain ⟨-, hcut, -, haltered⟩ := damage_only_loses_values hlen ⟨3⟩
  have hc : c.HasFirst p values 2 := hcut 35 (by decide)
  have hlost : ∀ slot < 2, c.cell? 1 slot = none := fun slot hslot =>
    (hc.cell 1 slot (by decide) hslot).trans (if_neg (by show ¬1 * 2 + slot < 2; omega))
  have hsamples : p.samples - 1 = 1 := by decide
  refine ⟨hlen, hc.status.trans (if_neg (by decide)), hc.cell 0 0 (by decide) (by decide),
    hc.cell 0 1 (by decide) (by decide), hlost 0 (by decide), ?_, haltered⟩
  rw [hc.value, hsamples]
  exact hlost 0 (by decide)

end Dump

end TrafficLab
