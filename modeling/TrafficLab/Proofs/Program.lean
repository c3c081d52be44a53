import TrafficLab.Dump
import TrafficLab.Proofs.Datum

/-!
# Stored programs

Programs and dumps are read back as they were stored.  Sets of router counters are stored as lists
and read from lists in any order, so a set has to be the set of its members.

    ofList s.toList = s                                             (CounterSet.ofList_toList)
    p.Fits → (toDatum p).Fits 6                                     (Program.Fits.fits_toDatum)
-/

namespace TrafficLab

open Datum Datum.Fields

/-! ## Sets of router counters -/

namespace CounterSet

theorem contains_eq_getLsbD (s : CounterSet) (c : RouterCounter) :
    s.contains c = s.mask.toBitVec.getLsbD c.index := by
  have hbit : c.bit.toBitVec = BitVec.twoPow 32 c.index := by cases c <;> decide
  have hpos : BitVec.twoPow 32 c.index ≠ 0#32 := by cases c <;> decide
  have hand : (s.mask &&& c.bit).toBitVec =
      if s.mask.toBitVec.getLsbD c.index then BitVec.twoPow 32 c.index else 0#32 := by
    rw [UInt32.toBitVec_and, hbit, BitVec.and_twoPow]
  have hmeets : s.contains c = true ↔ (s.mask &&& c.bit).toBitVec ≠ 0#32 := by
    rw [contains, bne_iff_ne, ne_eq, ← UInt32.toBitVec_inj]
    rfl
  rw [Bool.eq_iff_iff, hmeets, hand]
  cases s.mask.toBitVec.getLsbD c.index <;> simp [hpos]

theorem getLsbD_of_le (s : CounterSet) {i : Nat} (h : 12 ≤ i) :
    s.mask.toBitVec.getLsbD i = false := by
  by_cases hi : i < 32
  · have hother : ∀ i < 32, 12 ≤ i → (~~~known).toBitVec.getLsbD i = true := by decide
    have hbit := congrArg (fun m : UInt32 => m.toBitVec.getLsbD i) s.within
    simp only [UInt32.toBitVec_and, BitVec.getLsbD_and, hother i hi h, Bool.and_true] at hbit
    rw [hbit]
    exact BitVec.getLsbD_zero
  · exact BitVec.getLsbD_of_ge _ _ (by omega)

/-- Sets with the same members are equal. -/
theorem ext_contains {s t : CounterSet} (h : ∀ c, s.contains c = t.contains c) : s = t := by
  have hindex : ∀ i < 12, ∃ c ∈ RouterCounter.all, c.index = i := by decide
  have hmask : s.mask = t.mask := by
    apply UInt32.eq_of_toBitVec_eq
    refine BitVec.eq_of_getLsbD_eq fun i _ => ?_
    by_cases hi : i < 12
    · obtain ⟨c, -, rfl⟩ := hindex i hi
      rw [← contains_eq_getLsbD, ← contains_eq_getLsbD, h]
    · rw [getLsbD_of_le s (by omega), getLsbD_of_le t (by omega)]
  cases s
  cases t
  simpa using hmask

theorem contains_insert (s : CounterSet) (c d : RouterCounter) :
    (s.insert c).contains d = (s.contains d || d == c) := by
  have hbit : c.bit.toBitVec.getLsbD d.index = (d == c) := by cases c <;> cases d <;> decide
  rw [contains_eq_getLsbD, contains_eq_getLsbD, ← hbit, ← BitVec.getLsbD_or]
  rfl

theorem contains_foldl_insert (cs : List RouterCounter) (s : CounterSet) (d : RouterCounter) :
    (cs.foldl insert s).contains d = (s.contains d || cs.contains d) := by
  induction cs generalizing s with
  | nil => rw [List.foldl_nil, List.contains_nil, Bool.or_false]
  | cons c cs ih =>
    rw [List.foldl_cons, ih, contains_insert, List.contains_cons, Bool.or_assoc]

theorem mem_toList {s : CounterSet} {c : RouterCounter} :
    c ∈ s.toList ↔ s.contains c = true := by
  have hall : c ∈ RouterCounter.all := by cases c <;> decide
  rw [toList, List.mem_filter, and_iff_right hall]

theorem ofList_toList (s : CounterSet) : ofList s.toList = s := by
  refine ext_contains fun c => ?_
  have hempty : CounterSet.empty.contains c = false := by cases c <;> rfl
  rw [ofList, contains_foldl_insert, hempty, Bool.false_or, Bool.eq_iff_iff, List.contains_iff_mem,
    mem_toList]

end CounterSet

/-! ## Read back as stored -/

instance : LawfulDatum RouterCounter where
  ofDatum?_toDatum c := by cases c <;> rfl

instance : LawfulDatum CounterSet where
  ofDatum?_toDatum s := by
    change (ofDatum? (toDatum s.toList)).map CounterSet.ofList = some s
    rw [ofDatum?_toDatum, Option.map_some, CounterSet.ofList_toList]

instance : LawfulDatum Metric where
  ofDatum?_toDatum m := by
    cases m with
    | router c => cases c <;> rfl
    | _ => rfl

instance : LawfulDatum BurstWindow where
  ofDatum?_toDatum _ := ofDatum?_record (fun _ => rfl) rfl rfl (by decide) <|
    read_required rfl <| read_required rfl <| read_required rfl rfl

instance : BoundedDatum BurstWindow 2 where
  fits _ := fits_record ["period", "duty", "phase"] rfl (by decide) (by decide)
    (by simp [fits_toDatum])

instance : BoundedDatum Schedule 3 where
  fits
    | .interval _ => by
      have hkind : (text "interval").Fits 2 := .text (by decide)
      exact fits_record ["kind", "ticks"] rfl (by decide) (by decide)
        (by simp [hkind, fits_toDatum])
    | .bernoulli _ _ => by
      have hkind : (text "bernoulli").Fits 2 := .text (by decide)
      exact fits_record ["kind", "threshold", "burst"] rfl (by decide) (by decide)
        (by simp [hkind, fits_toDatum])

instance : LawfulDatum Schedule where
  ofDatum?_toDatum
    | .interval _ => ofDatum?_tagged (fun _ => rfl) rfl (BoundedDatum.fits _).intact (by simp) <|
      read_fields rfl (by decide) <| read_required rfl rfl
    | .bernoulli _ _ => ofDatum?_tagged (fun _ => rfl) rfl (BoundedDatum.fits _).intact (by simp) <|
      read_fields rfl (by decide) <| read_required rfl <| read_nullable rfl rfl rfl

instance : LawfulDatum SourceRole where
  ofDatum?_toDatum _ := ofDatum?_record (fun _ => rfl) rfl rfl (by decide) <|
    read_required rfl <| read_required rfl <| read_required rfl <| read_required rfl <|
    read_required rfl rfl

instance : LawfulDatum SinkRole where
  ofDatum?_toDatum _ := ofDatum?_record (fun _ => rfl) rfl rfl (by decide) <|
    read_required rfl <| read_required rfl <| read_required rfl <| read_required rfl rfl

instance : LawfulDatum Slot where
  ofDatum?_toDatum _ := ofDatum?_record (fun _ => rfl) rfl rfl (by decide) <|
    read_nullable rfl rfl <| read_required rfl <| read_required rfl rfl

instance : LawfulDatum Program where
  ofDatum?_toDatum _ := ofDatum?_record (fun _ => rfl) rfl rfl (by decide) <|
    read_required rfl <| read_required rfl <| read_required rfl <| read_required rfl <|
    read_required rfl <| read_withDefault rfl <| read_required rfl <| read_required rfl <|
    read_required rfl <| read_required rfl <| read_required rfl <| read_required rfl rfl

instance : LawfulDatum CounterDump where
  ofDatum?_toDatum _ := ofDatum?_record (fun _ => rfl) rfl rfl (by decide) <|
    read_required rfl <| read_required rfl rfl

/-! ## Room for them -/

instance : BoundedDatum RouterCounter 1 where
  fits c := .text (by cases c <;> decide)

instance : BoundedDatum CounterSet 2 where
  fits s := by
    have hle : s.toList.length ≤ 12 := List.length_filter_le _ RouterCounter.all
    exact fits_list (Nat.lt_of_le_of_lt hle (by decide)) fun c _ => BoundedDatum.fits c

instance : BoundedDatum Metric 2 where
  fits
    | .router _ => fits_record ["router"] rfl (by decide) (by decide) (by simp [fits_toDatum])
    | .sent | .blocked | .received | .latencySum | .latencySumSq => .text (by decide)

instance : BoundedDatum SourceRole 4 where
  fits _ := fits_record ["flow", "key", "payload", "schedule", "start"] rfl (by decide) (by decide)
    (by simp [fits_toDatum])

instance : BoundedDatum SinkRole 2 where
  fits _ := fits_record ["flow", "key", "source", "latency"] rfl (by decide) (by decide)
    (by simp [fits_toDatum])

instance : BoundedDatum Slot 3 where
  fits _ := fits_record ["flow", "metric", "role"] rfl (by decide) (by decide)
    (by simp [fits_toDatum])

/-- Whether the lists of a program are short enough to be written with their lengths. -/
structure Program.Fits (p : Program) : Prop where
  sources : p.sources.length < MessagePack.lengths
  sinks : p.sinks.length < MessagePack.lengths
  slots : p.slots.length < MessagePack.lengths
  bytes : p.bytes.length < MessagePack.lengths

theorem Program.Fits.fits_toDatum {p : Program} (h : p.Fits) : (toDatum p).Fits 6 := by
  have hsources : (toDatum p.sources).Fits 5 :=
    fits_list h.sources fun s _ => Datum.fits_toDatum s (by decide)
  have hsinks : (toDatum p.sinks).Fits 5 :=
    fits_list h.sinks fun s _ => Datum.fits_toDatum s (by decide)
  have hslots : (toDatum p.slots).Fits 5 :=
    fits_list h.slots fun s _ => Datum.fits_toDatum s (by decide)
  have hbytes : (toDatum p.bytes).Fits 5 :=
    fits_list h.bytes fun b _ => Datum.fits_toDatum b (by decide)
  exact fits_record ["core", "seed", "timestep", "run_ticks", "record", "record_interval",
    "consume", "sources", "sinks", "slots", "bytes", "tag"] rfl (by decide) (by decide)
    (by simp [hsources, hsinks, hslots, hbytes, Datum.fits_toDatum])

theorem CounterDump.fits_toDatum {d : CounterDump} (h : d.bytes.length < MessagePack.lengths) :
    (toDatum d).Fits 3 := by
  have hbytes : (toDatum d.bytes).Fits 2 := fits_list h fun b _ => Datum.fits_toDatum b (by decide)
  exact fits_record ["core", "bytes"] rfl (by decide) (by decide)
    (by simp [hbytes, Datum.fits_toDatum])

end TrafficLab
