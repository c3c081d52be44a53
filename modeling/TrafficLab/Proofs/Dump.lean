import TrafficLab.Dump
import TrafficLab.Proofs.Checked
import TrafficLab.Proofs.Compilation.Layout

/-!
# Reading dumps: what a contribution holds

The bytes of a dump decide by their places what it contributes.  Its header has to be that of the
program, byte for byte; then the value of a slot in a record is the word at the slot's place, if the
dump is long enough to hold it.

    a written dump has the values that were written, by place           (valueAt?_layout)
    a value that is there → those before it are there                   (valueAt?_isSome_of_le)
    a dump with a value for each place reads as those values, row by row   (read_layout)
    headerFault? p bytes = none ↔ Matches p bytes                       (headerFault?_eq_none)
    Matches → (read p d).value? i = finalValue? p d.bytes i             (value?_read)
    (read p d).flowMetric? p flow m = the final value of its slot, if HoldsFlow  (flowMetric?_read)
-/

namespace TrafficLab

/-! ## Words of bytes -/

namespace LittleEndian

theorem value_lt (l : List UInt8) : value l < 256 ^ l.length := by
  induction l with
  | nil => exact Nat.one_pos
  | cons b rest ih =>
    have hb := b.toNat_lt
    rw [value, List.length_cons, Nat.pow_succ]
    omega

theorem bytes32_word32 {l : List UInt8} (h : l.length = 4) : bytes32 (word32 l) = l := by
  have hlt := value_lt l
  rw [h] at hlt
  have hword : (word32 l).toNat = value l := UInt32.toNat_ofNat_of_lt' hlt
  unfold bytes32
  rw [hword, ← h, digits_value]

theorem length_words32 (l : List UInt8) : (words32 l).length = l.length / 4 := by
  fun_induction words32 l with
  | case1 a b c d rest ih =>
    simp only [List.length_cons, ih]
    omega
  | case2 l h =>
    have hlen : l.length < 4 := by
      match l, h with
      | [], _ | [_], _ | [_, _], _ | [_, _, _], _ => simp
      | a :: b :: c :: d :: rest, h => exact absurd rfl (h a b c d rest)
    rw [List.length_nil]
    omega

/-- Whole words hold all bytes. -/
theorem flatMap_bytes32_words32 {l : List UInt8} (h : l.length % 4 = 0) :
    (words32 l).flatMap bytes32 = l := by
  fun_induction words32 l with
  | case1 a b c d rest ih =>
    have hrest := ih (by simp only [List.length_cons] at h; omega)
    rw [List.flatMap_cons, hrest, bytes32_word32 rfl]
    rfl
  | case2 l hl =>
    match l, hl with
    | [], _ => rfl
    | [_], _ => simp at h
    | [_, _], _ => simp at h
    | [_, _, _], _ => simp at h
    | a :: b :: c :: d :: rest, hl => exact absurd rfl (hl a b c d rest)

theorem words64_flatMap_bytes64_append (l : List UInt64) (rest : List UInt8) :
    words64 (l.flatMap bytes64 ++ rest) = l ++ words64 rest := by
  induction l with
  | nil => rfl
  | cons w l ih => rw [List.flatMap_cons, List.append_assoc, words64_bytes64_append, ih]; rfl

theorem words64_flatMap_bytes64 (l : List UInt64) : words64 (l.flatMap bytes64) = l := by
  have h := words64_flatMap_bytes64_append l []
  rwa [List.append_nil, show words64 [] = [] from rfl, List.append_nil] at h

/-- The word at a place, if all of its bytes are there. -/
theorem getElem?_words64 (l : List UInt8) (k : Nat) :
    (words64 l)[k]? =
      if 8 * k + 8 ≤ l.length then some (word64 ((l.drop (8 * k)).take 8)) else none := by
  fun_induction words64 l generalizing k with
  | case1 a b c d e f g h rest ih =>
    cases k with
    | zero => simp
    | succ k =>
      have hdrop : (a :: b :: c :: d :: e :: f :: g :: h :: rest).drop (8 * (k + 1))
          = rest.drop (8 * k) := by
        rw [Nat.mul_add]
        rfl
      rw [List.getElem?_cons_succ, ih k, hdrop]
      simp only [List.length_cons]
      by_cases hk : 8 * k + 8 ≤ rest.length
      · rw [if_pos hk, if_pos (by omega)]
      · rw [if_neg hk, if_neg (by omega)]
  | case2 l h =>
    have hlen : l.length < 8 := by
      match l, h with
      | [], _ | [_], _ | [_, _], _ | [_, _, _], _ | [_, _, _, _], _ | [_, _, _, _, _], _
      | [_, _, _, _, _, _], _ | [_, _, _, _, _, _, _], _ =>
        simp
      | a :: b :: c :: d :: e :: f :: g :: i :: rest, h => exact absurd rfl (h a b c d e f g i rest)
    rw [if_neg (by omega)]
    rfl

end LittleEndian

/-! ## Places of values -/

/-- The last record is always made. -/
theorem CorePlan.samples_pos (p : CorePlan) : 0 < p.samples := by
  unfold samples
  simp only
  split
  · exact Nat.one_pos
  · omega

theorem CorePlan.length_sampleTicks (p : CorePlan) : p.sampleTicks.length = p.samples := by
  unfold sampleTicks
  rw [List.length_map, List.length_range]

namespace Dump

/-- The value at a place of a dump, if the dump is long enough to hold it. -/
def valueAt? (bytes : List UInt8) (k : Nat) : Option UInt64 :=
  if headerSize + 8 * k + 8 ≤ bytes.length then
    some (LittleEndian.word64 ((bytes.drop (headerSize + 8 * k)).take 8))
  else none

/-- The value of a slot in the last record. -/
def finalValue? (p : Program) (bytes : List UInt8) (slot : Nat) : Option UInt64 :=
  valueAt? bytes ((p.samples - 1) * p.slots.length + slot)

/-- A dump begins with the header that the program's dumps have. -/
def Matches (p : Program) (bytes : List UInt8) : Prop :=
  bytes.take headerSize = LittleEndian.bytes32 magic ++ LittleEndian.bytes32 p.tag
    ++ LittleEndian.bytes32 (UInt32.ofNat p.slots.length)

/-- A dump of the program holds every slot of a flow in its last record. -/
def HoldsFlow (p : Program) (bytes : List UInt8) (flow : FlowId) : Prop :=
  Matches p bytes ∧ ∀ i slot, p.slots[i]? = some slot → slot.flow = some flow →
    (finalValue? p bytes i).isSome

theorem valueAt?_eq (bytes : List UInt8) (k : Nat) :
    valueAt? bytes k = (LittleEndian.words64 (bytes.drop headerSize))[k]? := by
  rw [LittleEndian.getElem?_words64, List.length_drop, List.drop_drop]
  unfold valueAt?
  by_cases hlen : headerSize + 8 * k + 8 ≤ bytes.length
  · rw [if_pos hlen, if_pos (by omega)]
  · rw [if_neg hlen, if_neg (by omega)]

/-- A value that is there has all before it. -/
theorem valueAt?_isSome_of_le {bytes : List UInt8} {j k : Nat} (h : (valueAt? bytes k).isSome)
    (hjk : j ≤ k) : (valueAt? bytes j).isSome := by
  unfold valueAt? at h ⊢
  split at h
  · rw [if_pos (by omega)]
    rfl
  · cases h

/-- A header is one whatever follows it. -/
theorem matches_append {p : Program} {bytes : List UInt8} (h : Matches p bytes)
    (rest : List UInt8) : Matches p (bytes ++ rest) := by
  unfold Matches at h ⊢
  have hlength : (bytes.take headerSize).length = headerSize := by
    rw [h]
    simp [headerSize]
  rw [List.length_take] at hlength
  rw [List.take_append_of_le_length (by omega), h]

/-! ## Written dumps -/

theorem matches_layout (p : Program) (values : List UInt64) :
    Matches p (layout p.tag (UInt32.ofNat p.slots.length) values) := by
  unfold Matches layout
  exact List.take_left' (by simp [headerSize])

/-- A dump has the values that were written to it, in their order. -/
theorem valueAt?_layout (tag slots : UInt32) (values : List UInt64) (k : Nat) :
    valueAt? (layout tag slots values) k = values[k]? := by
  have hdrop : (layout tag slots values).drop headerSize = values.flatMap LittleEndian.bytes64 :=
    List.drop_left' (by simp [headerSize])
  rw [valueAt?_eq, hdrop, LittleEndian.words64_flatMap_bytes64]

theorem length_layout (tag slots : UInt32) (values : List UInt64) :
    (layout tag slots values).length = headerSize + 8 * values.length := by
  have hvalues : (values.flatMap LittleEndian.bytes64).length = 8 * values.length := by
    induction values with
    | nil => rfl
    | cons w rest ih =>
      rw [List.flatMap_cons, List.length_append, ih, List.length_cons,
        LittleEndian.length_bytes64]
      omega
  unfold layout
  rw [List.length_append, hvalues]
  simp [headerSize]

/-! ## Headers -/

/-- Three words are read from a header exactly if it is written with them. -/
theorem words32_header {bytes : List UInt8} (hle : bytes.length ≤ headerSize) (a b c : UInt32) :
    LittleEndian.words32 bytes = [a, b, c] ↔
      bytes = LittleEndian.bytes32 a ++ LittleEndian.bytes32 b ++ LittleEndian.bytes32 c := by
  unfold headerSize at hle
  constructor
  · intro h
    have hlen := LittleEndian.length_words32 bytes
    rw [h, List.length_cons, List.length_cons, List.length_singleton] at hlen
    have hbytes := LittleEndian.flatMap_bytes32_words32 (l := bytes) (by omega)
    rw [h] at hbytes
    simpa using hbytes.symm
  · rintro rfl
    rw [List.append_assoc, LittleEndian.words32_bytes32_append,
      LittleEndian.words32_bytes32_append, ← List.append_nil (LittleEndian.bytes32 c),
      LittleEndian.words32_bytes32_append]
    rfl

theorem headerFault?_eq_none {p : Program} {bytes : List UInt8} :
    headerFault? p bytes = none ↔ Matches p bytes := by
  unfold Matches
  rw [← words32_header (List.length_take_le headerSize bytes)]
  unfold headerFault?
  simp only
  split
  · next found tag count hwords =>
    rw [hwords]
    constructor
    · intro h
      split at h
      · cases h
      next hm =>
      split at h
      · cases h
      next ht =>
      split at h
      · cases h
      next hs =>
      rw [Decidable.not_not.1 hm, Decidable.not_not.1 ht, Decidable.not_not.1 hs]
    · intro h
      cases h
      simp
  · next hnot =>
    constructor
    · intro h
      cases h
    · intro h
      exact absurd h (hnot _ _ _)

/-! ## Rows -/

theorem getElem?_cut {α : Type} (rows n : Nat) (values : List α) (k : Nat) :
    (cut rows n values)[k]? =
      if k < rows then some ((values.drop (k * n)).take n) else none := by
  induction rows generalizing values k with
  | zero => rfl
  | succ rows ih =>
    unfold cut
    cases k with
    | zero => simp
    | succ k =>
      rw [List.getElem?_cons_succ, ih, List.drop_drop, Nat.succ_mul, Nat.add_comm n]
      by_cases hk : k < rows
      · rw [if_pos hk, if_pos (by omega)]
      · rw [if_neg hk, if_neg (by omega)]

theorem length_cut {α : Type} (rows n : Nat) (values : List α) :
    (cut rows n values).length = rows := by
  induction rows generalizing values with
  | zero => rfl
  | succ rows ih =>
    unfold cut
    rw [List.length_cons, ih]

/-- Rows that follow each other are cut where they meet. -/
theorem cut_flatMap {α β : Type} {g : α → List β} {n : Nat} {l : List α}
    (h : ∀ a ∈ l, (g a).length = n) : cut l.length n (l.flatMap g) = l.map g := by
  induction l with
  | nil => rfl
  | cons a rest ih =>
    have ha := h a (by simp)
    rw [List.length_cons, List.flatMap_cons]
    unfold cut
    rw [List.take_left' ha, List.drop_left' ha, ih fun b hb => h b (by simp [hb]), List.map_cons]

theorem mem_of_mem_cut {α : Type} {rows n : Nat} {values row : List α} {x : α}
    (hrow : row ∈ cut rows n values) (hx : x ∈ row) : x ∈ values := by
  induction rows generalizing values with
  | zero => simp [cut] at hrow
  | succ rows ih =>
    unfold cut at hrow
    rcases List.mem_cons.1 hrow with rfl | hrow
    · exact List.mem_of_mem_take hx
    · exact List.mem_of_mem_drop (ih hrow)

/-- An entry of a row is found among the values row by row. -/
theorem getElem?_row {α : Type} {values : List α} {k n i : Nat} (h : i < n) :
    ((values.drop (k * n)).take n)[i]? = values[k * n + i]? := by
  rw [List.getElem?_take_of_lt h, List.getElem?_drop]

theorem getElem?_padded {α : Type} (values : List α) (expected k : Nat) (h : k < expected) :
    ((values.map some ++ List.replicate (expected - values.length) none)[k]?).join =
      values[k]? := by
  by_cases hk : k < values.length
  · rw [List.getElem?_append_left (by simpa using hk), List.getElem?_map]
    simp [hk]
  · rw [List.getElem?_append_right (by simpa using hk), List.length_map]
    rw [List.getElem?_replicate_of_lt (by omega), List.getElem?_eq_none (Nat.not_lt.1 hk)]
    rfl

/-! ## Reading -/

section
variable {p : Program} {dump : CounterDump}

/-- The rows of a dump whose header matches. -/
theorem rows_read (h : Matches p dump.bytes) {k i : Nat} (hk : k < p.samples)
    (hi : i < p.slots.length) :
    ∃ row, (read p dump).rows[k]? = some row ∧
      (row[i]?).join = valueAt? dump.bytes (k * p.slots.length + i) := by
  have hplace : k * p.slots.length + i < p.slots.length * p.samples := by
    have hle : (k + 1) * p.slots.length ≤ p.samples * p.slots.length :=
      Nat.mul_le_mul_right _ hk
    rw [Nat.mul_comm p.slots.length]
    rw [Nat.add_mul] at hle
    omega
  unfold read
  rw [headerFault?_eq_none.2 h]
  simp only
  refine ⟨_, by rw [getElem?_cut, if_pos hk], ?_⟩
  rw [getElem?_row hi, getElem?_padded _ _ _ hplace, List.getElem?_take_of_lt hplace, valueAt?_eq]

theorem length_rows_read : (read p dump).rows.length = p.samples := by
  unfold read
  split <;> exact length_cut _ _ _

/-- A dump that has been written with a value for each place is read as it was written, whatever
follows it. -/
theorem read_layout_append {values : List UInt64} {rest : List UInt8}
    (hlen : values.length = p.slots.length * p.samples)
    (hdump : dump.bytes = layout p.tag (UInt32.ofNat p.slots.length) values ++ rest) :
    read p dump = ⟨p.core, .decoded, cut p.samples p.slots.length (values.map some)⟩ := by
  have hfault : headerFault? p dump.bytes = none := by
    rw [hdump]
    exact headerFault?_eq_none.2 (matches_append (matches_layout p values) rest)
  have hdrop : dump.bytes.drop headerSize = values.flatMap LittleEndian.bytes64 ++ rest := by
    rw [hdump]
    unfold layout
    rw [List.append_assoc]
    exact List.drop_left' (by simp [headerSize])
  unfold read
  rw [hfault]
  simp only [hdrop, LittleEndian.words64_flatMap_bytes64_append, ← hlen,
    List.take_left, Nat.sub_self, List.replicate_zero, List.append_nil, if_true]

theorem read_layout {values : List UInt64} (hlen : values.length = p.slots.length * p.samples)
    (hdump : dump.bytes = layout p.tag (UInt32.ofNat p.slots.length) values) :
    read p dump = ⟨p.core, .decoded, cut p.samples p.slots.length (values.map some)⟩ :=
  read_layout_append hlen (hdump.trans (List.append_nil _).symm)

theorem value?_read (h : Matches p dump.bytes) {i : Nat} (hi : i < p.slots.length) :
    (read p dump).value? i = finalValue? p dump.bytes i := by
  have hpos := p.samples_pos
  obtain ⟨row, hrow, hvalue⟩ := rows_read h (k := p.samples - 1) (by omega) hi
  unfold Contribution.value? finalValue?
  rw [List.getLast?_eq_getElem?, length_rows_read, hrow]
  exact hvalue

/-- A dump with another header contributes nothing. -/
theorem rows_read_of_not_matches (h : ¬Matches p dump.bytes) :
    ∀ row ∈ (read p dump).rows, ∀ x ∈ row, x = none := by
  unfold read
  split
  · intro row hrow x hx
    exact (List.mem_replicate.1 (mem_of_mem_cut hrow hx)).2
  · next hnone => exact absurd (headerFault?_eq_none.1 hnone) h

theorem value?_read_of_not_matches (h : ¬Matches p dump.bytes) (i : Nat) :
    (read p dump).value? i = none := by
  unfold Contribution.value?
  cases hlast : (read p dump).rows.getLast? with
  | none => rfl
  | some row =>
    show (row[i]?).join = none
    cases hx : row[i]? with
    | none => rfl
    | some x =>
      exact rows_read_of_not_matches h row (List.mem_of_getLast? hlast) x (List.mem_of_getElem? hx)

/-! ## Flows -/

theorem hasFlow_eq_true {c : Contribution} {flow : FlowId} :
    c.hasFlow p flow = true ↔
      ∀ i slot, p.slots[i]? = some slot → slot.flow = some flow → (c.value? i).isSome := by
  unfold Contribution.hasFlow
  rw [List.all_eq_true]
  constructor
  · intro h i slot hslot hflow
    have hentry := h (slot, i) (List.mk_mem_zipIdx_iff_getElem?.2 hslot)
    simpa [hflow] using hentry
  · intro h x hx
    have hslot := List.mk_mem_zipIdx_iff_getElem?.1 hx
    by_cases hflow : x.1.flow = some flow
    · simp [hflow, h x.2 x.1 hslot hflow]
    · simp [hflow]

/-- The slot of a metric of a flow is the one that is for them. -/
theorem slotOf?_eq {flow : FlowId} {m : Metric} {i : Nat} {slot : Slot}
    (hapart : p.slots.Pairwise Layout.Apart) (hslot : p.slots[i]? = some slot)
    (hflow : slot.flow = some flow) (hmetric : slot.metric = m) :
    Contribution.slotOf? p flow m = some i := by
  obtain ⟨hi, hget⟩ := List.getElem?_eq_some_iff.1 hslot
  unfold Contribution.slotOf?
  rw [List.findIdx?_eq_some_iff_getElem]
  refine ⟨hi, by simp [hget, hflow, hmetric], fun j hj => ?_⟩
  have hne := List.pairwise_iff_getElem.1 hapart j i (Nat.lt_trans hj hi) hi hj
  rw [hget] at hne
  unfold Layout.Apart at hne
  rw [hflow, hmetric] at hne
  rcases hne with hne | hne | hne <;> simp [hne]

/-- A dump that holds a flow has a value for each of its slots at the end. -/
theorem hasFlow_read {flow : FlowId} (h : HoldsFlow p dump.bytes flow) :
    (read p dump).hasFlow p flow = true := by
  rw [hasFlow_eq_true]
  intro k s hs hf
  obtain ⟨hk, -⟩ := List.getElem?_eq_some_iff.1 hs
  rw [value?_read h.1 hk]
  exact h.2 k s hs hf

theorem flowMetric?_read {flow : FlowId} {m : Metric} {i : Nat} {slot : Slot}
    (hapart : p.slots.Pairwise Layout.Apart) (hslot : p.slots[i]? = some slot)
    (hflow : slot.flow = some flow) (hmetric : slot.metric = m)
    (h : HoldsFlow p dump.bytes flow) :
    (read p dump).flowMetric? p flow m = finalValue? p dump.bytes i := by
  obtain ⟨hi, -⟩ := List.getElem?_eq_some_iff.1 hslot
  unfold Contribution.flowMetric?
  rw [if_pos (hasFlow_read h), slotOf?_eq hapart hslot hflow hmetric]
  exact value?_read h.1 hi

/-- A dump that has a value for a slot in every record has a series for it. -/
theorem flowSeries?_read {flow : FlowId} {m : Metric} {i : Nat} {slot : Slot} {series : List UInt64}
    (hapart : p.slots.Pairwise Layout.Apart) (hslot : p.slots[i]? = some slot)
    (hflow : slot.flow = some flow) (hmetric : slot.metric = m)
    (h : HoldsFlow p dump.bytes flow) (hlen : series.length = p.samples)
    (hseries : ∀ k < p.samples, valueAt? dump.bytes (k * p.slots.length + i) = series[k]?) :
    (read p dump).flowSeries? p flow m = some series := by
  obtain ⟨hi, -⟩ := List.getElem?_eq_some_iff.1 hslot
  have hentry : ∀ (k : Nat) row, (read p dump).rows[k]? = some row →
      (row[i]?).join = series[k]? := by
    intro k row hk
    have hlt := (List.getElem?_eq_some_iff.1 hk).1
    rw [length_rows_read] at hlt
    obtain ⟨row', hrow', hvalue⟩ := rows_read h.1 hlt hi
    rw [hk] at hrow'
    cases hrow'
    rw [hvalue, hseries k hlt]
  have hall : ∀ row ∈ (read p dump).rows, ((row[i]?).join).isSome := by
    intro row hrow
    obtain ⟨k, hk⟩ := List.getElem?_of_mem hrow
    have hlt := (List.getElem?_eq_some_iff.1 hk).1
    rw [length_rows_read, ← hlen] at hlt
    rw [hentry k row hk, List.getElem?_eq_getElem hlt]
    rfl
  obtain ⟨found, hfound, hlength, hget⟩ := Checked.exists_mapM hall
  have hsame : found = series := by
    refine List.ext_getElem? fun k => ?_
    rw [hget]
    cases hk : (read p dump).rows[k]? with
    | none =>
      rw [List.getElem?_eq_none_iff, length_rows_read, ← hlen] at hk
      rw [List.getElem?_eq_none hk]
      rfl
    | some row => exact hentry k row hk
  unfold Contribution.flowSeries?
  rw [if_pos (hasFlow_read h), slotOf?_eq hapart hslot hflow hmetric, ← hsame]
  exact hfound

/-- A dump that does not hold a flow contributes nothing to it. -/
theorem flowMetric?_read_eq_none {flow : FlowId} {m : Metric}
    (h : ¬HoldsFlow p dump.bytes flow) : (read p dump).flowMetric? p flow m = none := by
  unfold Contribution.flowMetric?
  split
  · next hhas =>
    rw [hasFlow_eq_true] at hhas
    by_cases hm : Matches p dump.bytes
    · refine absurd ⟨hm, fun i slot hslot hflow => ?_⟩ h
      obtain ⟨hi, -⟩ := List.getElem?_eq_some_iff.1 hslot
      rw [← value?_read hm hi]
      exact hhas i slot hslot hflow
    · cases hfind : Contribution.slotOf? p flow m with
      | none => rfl
      | some i => exact value?_read_of_not_matches hm i
  · rfl

end

end Dump

end TrafficLab
