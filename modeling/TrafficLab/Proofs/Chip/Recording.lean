import Mathlib.Data.List.Nodup
import TrafficLab.Proofs.Chip.Simulation

/-!
# What cores record

A core whose counters fit its setup has a row at every tick.  At the end of a run it has recorded
the rows of the ticks at which records were due, each as it stood after that tick, and the last row
on top.

    run.Sound → s.countersFit → the core has a row                        (Sound.exists_row)
    recorded after n ticks = the rows of the due ticks up to n, in order    (recorded_after)
-/

namespace TrafficLab

namespace Run

variable {setups : List Setup} {loss : Loss} {consume : Bool} {elapsed : Nat} {run : Run}

/-! ## Rows -/

/-- The row of the core at a position, read through a setup. -/
def row? (run : Run) (d : Nat) (s : Setup) : Option (List Nat) :=
  (run.current? d).bind fun c => c.row? s

/-- How many packets the source with a number has sent, if there is such a source. -/
def sent? (run : Run) (d i : Nat) : Option Nat :=
  (run.senders[d]?.bind fun s => s.sources[i]?).map (·.sent)

theorem row?_congr {run' : Run} (hs : run'.senders = run.senders)
    (hr : run'.receivers = run.receivers) (d : Nat) (s : Setup) : run'.row? d s = run.row? d s := by
  unfold row? current?
  rw [hs, hr]

theorem Sound.exists_sender (h : run.Sound setups loss consume elapsed) {d : Nat} {s : Setup}
    (hs : setups[d]? = some s) : ∃ snd, run.senders[d]? = some snd ∧
      snd.shape =
        (s.runTicks, s.sources.toList.map fun x => (x, watchers setups s.core x.key)) := by
  have hd : (run.senders.map Sender.shape)[d]? =
      some (s.runTicks, s.sources.toList.map fun x => (x, watchers setups s.core x.key)) := by
    rw [h.shape, List.getElem?_map, hs]
    rfl
  rw [List.getElem?_map] at hd
  exact Option.map_eq_some_iff.1 hd

theorem length_of_shape {snd : Sender} {n : Nat} {xs : List (SourceSetup × List Watcher)}
    (h : snd.shape = (n, xs)) : snd.sources.length = xs.length := by
  have hlen := congrArg (fun p => p.2.length) h
  unfold Sender.shape at hlen
  rwa [List.length_map] at hlen

/-- Both halves of a core, as its setup made them. -/
theorem Sound.exists_halves (h : run.Sound setups loss consume elapsed) {d : Nat} {s : Setup}
    (hs : setups[d]? = some s) : ∃ snd r, run.senders[d]? = some snd ∧
      run.receivers[d]? = some r ∧ snd.sources.length = s.sources.size ∧
      ∀ j, j < s.sinks.size → (r.sinks[j]?).isSome := by
  obtain ⟨snd, hsnd, hshape⟩ := h.exists_sender hs
  have hd : d < run.receivers.size := by
    rw [h.receivers_size]
    exact (List.getElem?_eq_some_iff.1 hs).1
  refine ⟨snd, _, hsnd, Array.getElem?_eq_getElem hd, ?_, fun j hj => ?_⟩
  · rw [length_of_shape hshape, List.length_map, Array.length_toList]
  · obtain ⟨n, hn, -⟩ := h.received hs hj
    unfold received? at hn
    rw [Array.getElem?_eq_getElem hd, Option.bind_some] at hn
    obtain ⟨t, ht, -⟩ := Option.map_eq_some_iff.1 hn
    rw [ht]
    rfl

/-- The halves of a core have a value for each metric of each of its roles. -/
theorem slot?_ofHalves_isSome {snd : Sender} {r : Receiver} {s : Setup}
    (hsources : snd.sources.length = s.sources.size)
    (hsinks : ∀ j, j < s.sinks.size → (r.sinks[j]?).isSome) {m : Metric} {role : UInt8}
    (hrole : role.toNat < s.roles m) :
    ((Counters.ofHalves snd r #[]).slot? s.record m role).isSome := by
  have hsink : ∀ f : SinkTally → Nat, role.toNat < s.sinks.size →
      ((r.sinks.map f)[role.toNat]?).isSome := by
    intro f hlt
    rw [Array.getElem?_map, Option.isSome_map]
    exact hsinks _ hlt
  cases m with
  | sent | blocked =>
    have hlt : role.toNat < snd.sources.length := hsources ▸ hrole
    simp [Counters.slot?, Counters.ofHalves, hlt]
  | received => exact hsink (·.received) hrole
  | latencySum => exact hsink (·.latencySum) hrole
  | latencySumSq => exact hsink (·.latencySumSq) hrole
  | router c =>
    have hlt := c.index_lt
    unfold Counters.slot?
    simp only
    split
    · show ((Receiver.router r)[c.index]?).isSome = true
      rw [Array.getElem?_eq_getElem (show c.index < (Receiver.router r).size from hlt)]
      rfl
    · rfl

theorem row?_of_halves {run : Run} {d : Nat} {snd : Sender} {r : Receiver}
    (hsnd : run.senders[d]? = some snd) (hr : run.receivers[d]? = some r) (s : Setup) :
    run.row? d s = (Counters.ofHalves snd r #[]).row? s := by
  unfold row? current?
  rw [hsnd, hr]
  rfl

/-- Halves with enough sources and sinks have a row through counters that fit. -/
theorem exists_row_of_halves {snd : Sender} {r : Receiver} {s : Setup}
    (hsources : snd.sources.length = s.sources.size)
    (hsinks : ∀ j, j < s.sinks.size → (r.sinks[j]?).isSome) (hfit : s.countersFit = true) :
    ∃ row, (Counters.ofHalves snd r #[]).row? s = some row ∧ row.length = s.counters.size ∧
      ∀ (i : Nat) x, s.counters[i]? = some x →
        row[i]? = (Counters.ofHalves snd r #[]).slot? s.record x.1 x.2 := by
  have hslot : ∀ x ∈ s.counters.toList,
      ((Counters.ofHalves snd r #[]).slot? s.record x.1 x.2).isSome := by
    rintro ⟨m, role⟩ hx
    have hrole := Array.all_eq_true_iff_forall_mem.1 hfit (m, role) (Array.mem_toList_iff.1 hx)
    exact slot?_ofHalves_isSome hsources hsinks (by simpa using hrole)
  obtain ⟨row, hrow, hlen, hget⟩ := Checked.exists_mapM hslot
  refine ⟨row, hrow, by rw [hlen, Array.length_toList], fun i x hx => ?_⟩
  rw [hget, Array.getElem?_toList, hx]
  rfl

/-- A core with counters that fit has a value for each of them, and a row. -/
theorem Sound.exists_row (h : run.Sound setups loss consume elapsed) {d : Nat} {s : Setup}
    (hs : setups[d]? = some s) (hfit : s.countersFit = true) :
    ∃ row, run.row? d s = some row ∧ row.length = s.counters.size ∧
      (∀ (i : Nat) role, s.counters[i]? = some (.sent, role) →
        row[i]? = run.sent? d role.toNat) ∧
      ∀ (i : Nat) role, s.counters[i]? = some (.received, role) →
        row[i]? = received? run.receivers d role.toNat := by
  obtain ⟨snd, r, hsnd, hr, hsources, hsinks⟩ := h.exists_halves hs
  obtain ⟨row, hrow, hlen, hentry⟩ := exists_row_of_halves hsources hsinks hfit
  refine ⟨row, (row?_of_halves hsnd hr s).trans hrow, hlen, fun i role hi => ?_,
    fun i role hi => ?_⟩
  · rw [hentry i _ hi]
    unfold Counters.slot? Counters.ofHalves sent?
    simp only [List.getElem?_toArray, List.getElem?_map]
    rw [hsnd]
    rfl
  · rw [hentry i _ hi]
    unfold Counters.slot? Counters.ofHalves received?
    simp only [Array.getElem?_map]
    rw [hr]
    rfl

/-! ## Records -/

/-- What the core at a position records when so many ticks have gone by. -/
def recording (run : Run) (elapsed d : Nat) (s : Setup) : List Nat :=
  if s.recordDue elapsed then (run.row? d s).getD [] else []

theorem recording_congr {run' : Run} (hs : run'.senders = run.senders)
    (hr : run'.receivers = run.receivers) (elapsed d : Nat) (s : Setup) :
    run'.recording elapsed d s = run.recording elapsed d s := by
  unfold recording
  rw [row?_congr hs hr]

theorem getElem?_record (run : Run) (elapsed : Nat) (x : Setup × Nat) (d : Nat) :
    (run.record elapsed x).recorded[d]? =
      if x.2 = d then run.recorded[d]?.map (· ++ (run.recording elapsed x.2 x.1).toArray)
      else run.recorded[d]? := by
  have hnothing : ∀ a : Option (Array Nat), a.map (· ++ ([] : List Nat).toArray) = a := by
    intro a
    cases a <;> simp
  unfold record recording row?
  by_cases hdue : x.1.recordDue elapsed = true
  · rw [if_pos hdue, if_pos hdue]
    cases (run.current? x.2).bind fun c => c.row? x.1 with
    | none =>
      simp only [Option.getD_none, hnothing, ite_self]
    | some row =>
      simp only [Array.getElem?_modify, Option.getD_some]
  · rw [if_neg hdue, if_neg hdue]
    simp only [hnothing, ite_self]

theorem getElem?_foldl_record_of_not_mem {recorders : List (Setup × Nat)} {d : Nat}
    (h : d ∉ recorders.map (·.2)) (elapsed : Nat) (run : Run) :
    (recorders.foldl (record elapsed) run).recorded[d]? = run.recorded[d]? := by
  induction recorders generalizing run with
  | nil => rfl
  | cons x rest ih =>
    rw [List.map_cons, List.mem_cons, not_or] at h
    rw [List.foldl_cons, ih h.2, getElem?_record, if_neg fun e => h.1 e.symm]

/-- A core that is among the recorders records its row if it is due. -/
theorem getElem?_foldl_record {recorders : List (Setup × Nat)} {d : Nat} {s : Setup}
    (hn : (recorders.map (·.2)).Nodup) (h : (s, d) ∈ recorders) (elapsed : Nat) (run : Run) :
    (recorders.foldl (record elapsed) run).recorded[d]? =
      run.recorded[d]?.map (· ++ (run.recording elapsed d s).toArray) := by
  induction recorders generalizing run with
  | nil => simp at h
  | cons x rest ih =>
    obtain ⟨hx, hrest⟩ := List.nodup_cons.1 hn
    rw [List.foldl_cons]
    rcases List.mem_cons.1 h with rfl | h
    · rw [getElem?_foldl_record_of_not_mem hx, getElem?_record, if_pos rfl]
    · have hne : x.2 ≠ d := fun e => hx (List.mem_map.2 ⟨(s, d), h, e.symm⟩)
      obtain ⟨hs, hr, -⟩ := record_frame elapsed run x
      rw [ih hrest h, getElem?_record, if_neg hne, recording_congr hs hr]

end Run

/-- The cores that record their counters during a run. -/
def recorders (setups : List Setup) : List (Setup × Nat) :=
  setups.zipIdx.filter fun (s, _) => s.recordInterval != 0

/-- The ticks up to `n` at which records are due. -/
def Setup.recordTimes (s : Setup) (n : Nat) : List Nat :=
  ((List.range n).map (· + 1)).filter s.recordDue

theorem Setup.lt_of_mem_recordTimes {s : Setup} {n t : Nat} (h : t ∈ s.recordTimes n) :
    t < s.runTicks := by
  have hdue := (List.mem_filter.1 h).2
  unfold recordDue at hdue
  simp only [Bool.and_eq_true, decide_eq_true_eq] at hdue
  exact hdue.1.2

theorem Setup.recordTimes_succ (s : Setup) (n : Nat) :
    s.recordTimes (n + 1) = s.recordTimes n ++ if s.recordDue (n + 1) then [n + 1] else [] := by
  unfold recordTimes
  rw [List.range_succ, List.map_append, List.filter_append, List.map_singleton,
    List.filter_singleton]
  cases s.recordDue (n + 1) <;> rfl

namespace Run

variable {setups : List Setup}

theorem nodup_recorders : ((recorders setups).map (·.2)).Nodup := by
  refine List.Nodup.sublist (List.filter_sublist.map _) ?_
  rw [List.zipIdx_map_snd]
  exact List.nodup_range'

/-- Cores without a record interval may be asked whether a record is due; they record nothing. -/
theorem foldl_record_recorders (elapsed : Nat) (setups : List Setup) (run : Run) :
    (recorders setups).foldl (record elapsed) run =
      setups.zipIdx.foldl (record elapsed) run := by
  unfold recorders
  rw [List.foldl_filter]
  congr 1
  funext run ⟨s, d⟩
  show (if (s.recordInterval != 0) = true then run.record elapsed (s, d) else run) = _
  split
  · rfl
  · next hzero =>
    unfold record Setup.recordDue
    simp [hzero]

/-- A tick adds to what a core has recorded. -/
theorem getElem?_tick_recorded {d : Nat} {s : Setup} (hs : setups[d]? = some s) (capacity : Nat)
    (n : Network) (now : Nat) (run : Run) :
    (run.tick capacity n (recorders setups) now).recorded[d]? = run.recorded[d]?.map
      (· ++ ((run.tick capacity n (recorders setups) now).recording (now + 1) d s).toArray) := by
  obtain ⟨senders, receivers, random, recorded⟩ := run
  have hframe := foldl_record_frame (now + 1) (recorders setups)
    ⟨(sendAll capacity now senders).1,
      (n.deliverAll (receivers, random) (sendAll capacity now senders).2).1,
      (n.deliverAll (receivers, random) (sendAll capacity now senders).2).2, recorded⟩
  unfold Run.tick
  simp only
  rw [recording_congr hframe.1 hframe.2.1]
  by_cases hzero : s.recordInterval = 0
  · have hnot : d ∉ (recorders setups).map (·.2) := by
      intro hd
      obtain ⟨⟨t, d'⟩, ht, rfl⟩ := List.mem_map.1 hd
      obtain ⟨ht, hinterval⟩ := List.mem_filter.1 ht
      rw [List.mk_mem_zipIdx_iff_getElem?.1 ht] at hs
      cases hs
      simp [hzero] at hinterval
    have hdue : s.recordDue (now + 1) = false := by
      unfold Setup.recordDue
      simp [hzero]
    rw [getElem?_foldl_record_of_not_mem hnot]
    unfold recording
    rw [hdue]
    show recorded[d]? = recorded[d]?.map (· ++ #[])
    cases recorded[d]? <;> simp
  · have hmem : (s, d) ∈ recorders setups :=
      List.mem_filter.2 ⟨List.mk_mem_zipIdx_iff_getElem?.2 hs, by simpa using hzero⟩
    exact getElem?_foldl_record nodup_recorders hmem (now + 1) _

/-- What a core has recorded are its rows at the ticks at which records were due. -/
theorem recorded_after {d : Nat} {s : Setup} (hs : setups[d]? = some s) (capacity : Nat)
    (n : Network) (seed : UInt64) (elapsed : Nat) :
    (after capacity n seed setups (recorders setups) elapsed).recorded[d]? =
      some ((s.recordTimes elapsed).flatMap fun t =>
        ((after capacity n seed setups (recorders setups) t).row? d s).getD []).toArray := by
  induction elapsed with
  | zero =>
    have hd := (List.getElem?_eq_some_iff.1 hs).1
    show (Array.replicate setups.length (#[] : Array Nat))[d]? = _
    rw [Array.getElem?_replicate, if_pos hd]
    rfl
  | succ elapsed ih =>
    have htick := getElem?_tick_recorded hs capacity n elapsed
      (after capacity n seed setups (recorders setups) elapsed)
    show ((after capacity n seed setups (recorders setups) elapsed).tick capacity n
      (recorders setups) elapsed).recorded[d]? = _
    rw [htick, ih, Setup.recordTimes_succ, List.flatMap_append]
    unfold recording
    split
    · simp only [Option.map_some, List.flatMap_singleton, List.append_toArray]
      rfl
    · simp

end Run

/-! ## When records are due -/

/-- The multiples of a number up to `n` are its first `n / k` multiples. -/
theorem filter_multiples (k n : Nat) :
    ((List.range n).map (· + 1)).filter (fun t => t % k == 0) =
      (List.range (n / k)).map fun j => (j + 1) * k := by
  induction n with
  | zero => simp
  | succ n ih =>
    rw [List.range_succ, List.map_append, List.filter_append, ih, Nat.succ_div,
      List.map_singleton, List.filter_singleton]
    by_cases hdvd : k ∣ n + 1
    · have hmod : ((n + 1) % k == 0) = true := beq_iff_eq.2 (Nat.mod_eq_zero_of_dvd hdvd)
      have hlast : (n / k + 1) * k = n + 1 := by
        have hmul := Nat.div_mul_cancel hdvd
        rwa [Nat.succ_div, if_pos hdvd] at hmul
      rw [hmod, if_pos hdvd, List.range_succ, List.map_append, List.map_singleton, hlast]
      rfl
    · have hmod : ((n + 1) % k == 0) = false :=
        beq_false_of_ne fun e => hdvd (Nat.dvd_of_mod_eq_zero e)
      rw [hmod, if_neg hdvd]
      simp

/-- Records are due at the multiples of the interval that come before the end of the run. -/
theorem Setup.recordTimes_eq {s : Setup} (hpos : 0 < s.runTicks) :
    s.recordTimes s.runTicks = (List.range ((s.runTicks - 1) / s.recordInterval.toNat)).map
      fun j => (j + 1) * s.recordInterval.toNat := by
  by_cases hzero : s.recordInterval = 0
  · have hnone : s.recordTimes s.runTicks = [] := by
      unfold recordTimes
      rw [List.filter_eq_nil_iff]
      intro t _
      unfold recordDue
      simp [hzero]
    rw [hnone, hzero]
    simp
  · obtain ⟨last, hlast⟩ := Nat.exists_eq_succ_of_ne_zero (Nat.ne_of_gt hpos)
    have hdue : s.recordDue (last + 1) = false := by
      unfold recordDue
      simp [hlast]
    have hearly : s.recordTimes last =
        ((List.range last).map (· + 1)).filter fun t => t % s.recordInterval.toNat == 0 := by
      unfold recordTimes
      refine List.filter_congr fun t ht => ?_
      obtain ⟨i, hi, rfl⟩ := List.mem_map.1 ht
      have hlt : i + 1 < s.runTicks := by
        have := List.mem_range.1 hi
        omega
      unfold recordDue
      simp [hzero, hlt]
    rw [hlast, Setup.recordTimes_succ, hdue, hearly, filter_multiples]
    simp

end TrafficLab
