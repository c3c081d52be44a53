import TrafficLab.Proofs.Chip.Records

/-!
# What a core sends

A core sends by its own setup, its own random words and the capacity.  Who watches its packets, what
the network does to them, and which other cores run, and for how long, make no difference: the
sending half of a core is at every tick the one that the core would have if it ran alone.

    a send without watchers = the send, without watchers                 (unwatched_send)
    the sending half of a core in a run = that of the core alone          (sender_after)
    when the core's own run is over, it stays as it is                    (senderAfter_of_le)
    two runs of a core have the same counts of what its sources did       (generates_alike)
-/

namespace TrafficLab

/-! ## Sending without watchers -/

/-- A source whose packets go nowhere. -/
def SourceRun.unwatched (x : SourceRun) : SourceRun := { x with watchers := [] }

/-- The sending half of a core whose packets go nowhere. -/
def Sender.unwatched (s : Sender) : Sender := { s with sources := s.sources.map (·.unwatched) }

theorem sendSources_unwatched (tick capacity : Nat) (r : Random) (sources : List SourceRun) :
    (sendSources tick capacity r (sources.map (·.unwatched))).random =
      (sendSources tick capacity r sources).random ∧
    (sendSources tick capacity r (sources.map (·.unwatched))).sources =
      (sendSources tick capacity r sources).sources.map (·.unwatched) := by
  induction sources generalizing capacity r with
  | nil => exact ⟨rfl, rfl⟩
  | cons s rest ih =>
    have hsetup : s.unwatched.setup = s.setup := rfl
    rw [List.map_cons]
    unfold sendSources
    rw [hsetup]
    obtain ⟨due, r'⟩ := s.setup.isDue tick r
    cases due with
    | false => exact ⟨(ih capacity r').1, congrArg (s.unwatched :: ·) (ih capacity r').2⟩
    | true =>
      cases capacity with
      | zero => exact ⟨(ih 0 r').1, congrArg (_ :: ·) (ih 0 r').2⟩
      | succ left => exact ⟨(ih left r').1, congrArg (_ :: ·) (ih left r').2⟩

/-- Whether a core's packets are watched makes no difference to it. -/
theorem Sender.unwatched_send (capacity tick : Nat) (s : Sender) :
    (s.send capacity tick).1.unwatched = (s.unwatched.send capacity tick).1 := by
  have hsources := sendSources_unwatched tick capacity s.random s.sources
  unfold send
  by_cases hrun : tick < s.runTicks
  · rw [if_pos hrun, if_pos (show tick < s.unwatched.runTicks from hrun)]
    exact congrArg₂ (Sender.mk s.runTicks) hsources.1.symm hsources.2.symm
  · rw [if_neg hrun, if_neg (show ¬tick < s.unwatched.runTicks from hrun)]

/-- Each core sends for itself. -/
theorem senders_sendAll (capacity tick : Nat) (senders : List Sender) :
    (sendAll capacity tick senders).1 = senders.map fun s => (s.send capacity tick).1 := by
  induction senders with
  | nil => rfl
  | cons s rest ih =>
    unfold sendAll
    rw [List.map_cons, ← ih]

theorem Run.senders_tick (capacity : Nat) (n : Network) (recorders : List (Setup × Nat))
    (now : Nat) (run : Run) :
    (run.tick capacity n recorders now).senders =
      run.senders.map fun s => (s.send capacity now).1 :=
  (run.tick_frame capacity n recorders now).1.trans (senders_sendAll capacity now run.senders)

/-! ## A core alone -/

/-- The sending half of a core that runs alone, when so many ticks have gone by. -/
def Setup.senderAfter (capacity : Nat) (s : Setup) : Nat → Sender
  | 0 => .ofSetup [] s
  | tick + 1 => ((s.senderAfter capacity tick).send capacity tick).1

namespace Setup

variable (capacity : Nat) (s : Setup)

theorem runTicks_senderAfter (tick : Nat) :
    (s.senderAfter capacity tick).runTicks = s.runTicks := by
  induction tick with
  | zero => rfl
  | succ tick ih => exact (emits_send capacity tick _).1.trans ih

theorem length_sources_senderAfter (tick : Nat) :
    (s.senderAfter capacity tick).sources.length = s.sources.size := by
  induction tick with
  | zero =>
    show (s.sources.toList.map _).length = _
    rw [List.length_map, Array.length_toList]
  | succ tick ih =>
    have hframe :=
      congrArg List.length (emits_send capacity tick (s.senderAfter capacity tick)).2.frame
    rw [List.length_map, List.length_map] at hframe
    exact hframe.trans ih

/-- When its run is over, a core sends no more. -/
theorem senderAfter_of_le {tick : Nat} (h : s.runTicks ≤ tick) :
    s.senderAfter capacity tick = s.senderAfter capacity s.runTicks := by
  induction h with
  | refl => rfl
  | @step tick hle ih =>
    have hover : ¬tick < (s.senderAfter capacity tick).runTicks := by
      rw [runTicks_senderAfter]
      exact Nat.not_lt.2 hle
    show ((s.senderAfter capacity tick).send capacity tick).1 = _
    rw [← ih]
    unfold Sender.send
    rw [if_neg hover]

end Setup

/-- In every run, a core sends as it does alone. -/
theorem Run.sender_after {setups : List Setup} {d : Nat} {s : Setup} (hs : setups[d]? = some s)
    (capacity : Nat) (n : Network) (seed : UInt64) (recorders : List (Setup × Nat))
    (elapsed : Nat) :
    ((after capacity n seed setups recorders elapsed).senders[d]?).map Sender.unwatched =
      some (s.senderAfter capacity elapsed) := by
  induction elapsed with
  | zero =>
    show ((setups.map (Sender.ofSetup setups))[d]?).map Sender.unwatched = _
    rw [List.getElem?_map, hs]
    show some (Sender.mk s.runTicks (.ofSeed s.seed.toUInt64) ((s.sources.toList.map _).map _)) = _
    rw [List.map_map]
    rfl
  | succ elapsed ih =>
    show (((after capacity n seed setups recorders elapsed).tick capacity n recorders
      elapsed).senders[d]?).map Sender.unwatched = _
    obtain ⟨snd, hsnd, halone⟩ := Option.map_eq_some_iff.1 ih
    rw [senders_tick, List.getElem?_map, hsnd, Option.map_some, Option.map_some,
      Sender.unwatched_send, halone]
    rfl

/-! ## Counts of sources -/

/-- What the sending half of a core has counted for a source. -/
def Sender.count? (s : Sender) (role : Nat) : Metric → Option Nat
  | .sent => (s.sources[role]?).map (·.sent)
  | .blocked => (s.sources[role]?).map (·.blocked)
  | _ => none

theorem Sender.count?_unwatched (s : Sender) (role : Nat) (m : Metric) :
    s.unwatched.count? role m = s.count? role m := by
  unfold count? unwatched
  cases m with
  | sent | blocked =>
    simp only [List.getElem?_map, Option.map_map]
    rfl
  | _ => rfl

/-- The slots of sources depend on the sending half alone. -/
theorem Counters.slot?_ofHalves (snd : Sender) (r : Receiver) (recorded : Array Nat)
    (record : CounterSet) {m : Metric} (hm : m.ofSource = true) (role : UInt8) :
    (Counters.ofHalves snd r recorded).slot? record m role = snd.count? role.toNat m := by
  unfold slot? Sender.count? ofHalves
  cases m with
  | sent | blocked => simp only [List.getElem?_toArray, List.getElem?_map]
  | _ => cases hm

namespace Run

variable {setups : List Setup} {d : Nat} {s : Setup} (hs : setups[d]? = some s) (capacity : Nat)
  (n : Network) (seed : UInt64)

include hs

/-- In a row, the slots of sources have what the core alone has counted. -/
theorem exists_row_after (hfit : s.countersFit = true) (tick : Nat) :
    ∃ row, (after capacity n seed setups (recorders setups) tick).row? d s = some row ∧
      row.length = s.counters.size ∧
      ∀ (i : Nat) m role, s.counters[i]? = some (m, role) → m.ofSource = true →
        row[i]? = (s.senderAfter capacity tick).count? role.toNat m := by
  obtain ⟨snd, r, row, hsnd, -, hrow, hlen, hentry⟩ :=
    (formed_after capacity n seed setups (recorders setups) tick).exists_entries hs hfit
  refine ⟨row, hrow, hlen, fun i m role hi hm => ?_⟩
  have halone := sender_after hs capacity n seed (recorders setups) tick
  rw [hsnd, Option.map_some, Option.some_inj] at halone
  rw [hentry i _ hi, Counters.slot?_ofHalves snd r #[] s.record hm, ← halone,
    Sender.count?_unwatched]

end Run

/-- A core that makes no records before the end of its run has none due. -/
theorem Setup.recordTimes_eq_nil {s : Setup} (h : s.recordsEarly = false) :
    s.recordTimes s.runTicks = [] := by
  unfold recordTimes
  rw [List.filter_eq_nil_iff]
  intro t ht hdue
  obtain ⟨i, -, rfl⟩ := List.mem_map.1 ht
  unfold recordDue at hdue
  simp only [Bool.and_eq_true, decide_eq_true_eq, beq_iff_eq] at hdue
  obtain ⟨⟨hinterval, hlt⟩, hmod⟩ := hdue
  have hle := Nat.le_of_dvd (Nat.succ_pos i) (Nat.dvd_of_mod_eq_zero hmod)
  unfold recordsEarly at h
  simp [hinterval, Nat.lt_of_le_of_lt hle hlt] at h

/-- Counters in which all that sources did is what they do on the core alone. -/
structure Counters.Generated (capacity : Nat) (s : Setup) (k : Counters) : Prop where
  sent : k.sent.toList = (s.senderAfter capacity s.runTicks).sources.map (·.sent)
  blocked : k.blocked.toList = (s.senderAfter capacity s.runTicks).sources.map (·.blocked)
  size : k.recorded.size = (s.recordTimes s.runTicks).length * s.counters.size
  recorded : ∀ (j i : Nat) m role, s.counters[i]? = some (m, role) → m.ofSource = true →
    k.recorded[j * s.counters.size + i]? = ((s.recordTimes s.runTicks)[j]?).bind fun t =>
      (s.senderAfter capacity t).count? role.toNat m

namespace Run

variable {setups : List Setup} {d : Nat} {s : Setup} (hs : setups[d]? = some s)
  (hfit : s.recordsEarly = true → s.countersFit = true) (capacity : Nat) (n : Network)
  (seed : UInt64)

include hs hfit

/-- What a core records are rows of equal length, with the counts of the core alone. -/
theorem exists_rows : ∃ rows : Nat → List Nat,
    (after capacity n seed setups (recorders setups) (longestRun setups)).recorded[d]? =
      some ((s.recordTimes s.runTicks).flatMap rows).toArray ∧
    ∀ t ∈ s.recordTimes s.runTicks, (rows t).length = s.counters.size ∧
      ∀ (i : Nat) m role, s.counters[i]? = some (m, role) → m.ofSource = true →
        (rows t)[i]? = (s.senderAfter capacity t).count? role.toNat m := by
  refine ⟨fun t => ((after capacity n seed setups (recorders setups) t).row? d s).getD [], ?_,
    fun t ht => ?_⟩
  · rw [recorded_after hs capacity n seed,
      Setup.recordTimes_of_le (le_longestRun (List.mem_of_getElem? hs))]
  · have hearly : s.recordsEarly = true := by
      by_contra hno
      rw [Setup.recordTimes_eq_nil (Bool.eq_false_of_not_eq_true hno)] at ht
      cases ht
    obtain ⟨row, hrow, hentries⟩ := exists_row_after hs capacity n seed (hfit hearly) t
    simpa only [hrow, Option.getD_some] using hentries

/-- Whatever else runs, the counters of a core's sources are those of the core alone. -/
theorem exists_generated :
    ∃ k, (simulate capacity n seed setups)[d]? = some k ∧ k.Generated capacity s := by
  obtain ⟨snd, r, recorded, hsnd, hr, hrecorded, hsim⟩ := exists_simulate capacity n seed hs
  have hle := le_longestRun (List.mem_of_getElem? hs)
  have halone := sender_after hs capacity n seed (recorders setups) (longestRun setups)
  rw [hsnd, Option.map_some, Option.some_inj, Setup.senderAfter_of_le capacity s hle] at halone
  obtain ⟨rows, hrows, hentries⟩ := exists_rows hs hfit capacity n seed
  rw [hrows, Option.some_inj] at hrecorded
  subst hrecorded
  refine ⟨_, hsim, ?_, ?_, ?_, fun j i m role hi hm => ?_⟩
  · rw [← halone]
    show (snd.sources.map _).toArray.toList = (snd.sources.map _).map _
    rw [List.map_map]
    rfl
  · rw [← halone]
    show (snd.sources.map _).toArray.toList = (snd.sources.map _).map _
    rw [List.map_map]
    rfl
  · show ((s.recordTimes s.runTicks).flatMap rows).toArray.size = _
    rw [List.size_toArray, List.length_flatMap, List.map_congr_left fun t ht => (hentries t ht).1,
      List.map_const', List.sum_replicate_nat]
  · obtain ⟨hlt, -⟩ := Array.getElem?_eq_some_iff.1 hi
    show ((s.recordTimes s.runTicks).flatMap rows).toArray[_]? = _
    rw [List.getElem?_toArray, getElem?_flatMap_rows (fun t ht => (hentries t ht).1) hlt]
    cases ht : (s.recordTimes s.runTicks)[j]? with
    | none => rfl
    | some t => exact (hentries t (List.mem_of_getElem? ht)).2 i m role hi hm

end Run

/-! ## Runs of a machine -/

namespace Machine

/-- What a start that succeeds does: every core that is started is loaded, and gets the counters of
its run. -/
theorem start_value {m m₁ : Machine} {cores : List CoreId}
    (h : m.start cores = (.value (), m₁)) :
    ∃ setupOf : CoreId → Setup, (∀ core ∈ cores, m.loaded.get? core = some (setupOf core)) ∧
      breaks ((KeySet.ofList cores).keys.map setupOf) = false ∧
      m₁ = { m with counters := m.counters.override (.ofList ((KeySet.ofList cores).keys.zip
        (simulate m.config.capacity.toNat m.config.network m.config.seed
          ((KeySet.ofList cores).keys.map setupOf)))) } := by
  have hloaded : ∀ core ∈ cores, m.loaded.get? core =
      some ((m.loaded.get? core).getD (.blank core 0)) := by
    intro core hcore
    cases hget : m.loaded.get? core with
    | some s => rfl
    | none =>
      obtain ⟨e, -, -, herror⟩ := exists_setups_eq_error ⟨core, hcore, hget⟩
      unfold start at h
      rw [herror] at h
      split at h <;> cases h
  refine ⟨_, hloaded, ?_⟩
  unfold start at h
  rw [setups_eq hloaded] at h
  simp only [Table.values_ofList_map, Loaded.keys_setups] at h
  split at h
  · cases h
  · split at h
    · cases h
    · next hruns =>
      rw [Bool.or_eq_true, not_or] at hruns
      exact ⟨Bool.eq_false_of_not_eq_true hruns.1, (Prod.mk.inj h).2.symm⟩

/-- A core that is started gets counters in which all that its sources did is what they do alone. -/
theorem exists_generated {m m₁ : Machine} {cores : List CoreId}
    (h : m.start cores = (.value (), m₁)) {core : CoreId} (hcore : core ∈ cores) {s : Setup}
    (hs : m.loaded.get? core = some s) :
    ∃ k, m₁.counters.get? core = some k ∧ k.Generated m.config.capacity.toNat s := by
  obtain ⟨setupOf, hloaded, hbreaks, rfl⟩ := start_value h
  rw [hloaded core hcore] at hs
  cases hs
  obtain ⟨hposition, hsetup⟩ := Loaded.getElem?_position hcore setupOf
  have hfit : (setupOf core).recordsEarly = true → (setupOf core).countersFit = true := by
    intro hearly
    have hmem := List.any_eq_false.1 hbreaks _ (List.mem_of_getElem? hsetup)
    simpa [hearly] using hmem
  obtain ⟨k, hk, hgenerated⟩ := Run.exists_generated hsetup hfit m.config.capacity.toNat
    m.config.network m.config.seed
  exact ⟨k, Table.get?_override (Loaded.get?_results hposition hk), hgenerated⟩

end Machine

/-! ## Main result -/

/-- Counters of a core that say the same of all its sources, at every record and at the end. -/
structure Counters.SameTraffic (s : Setup) (k k' : Counters) : Prop where
  sources : k.sent.size = s.sources.size ∧ k.blocked.size = s.sources.size
  sent : k.sent = k'.sent
  blocked : k.blocked = k'.blocked
  records : k.recorded.size = k'.recorded.size
  /-- In the `j`-th record, the values of all slots that belong to sources. -/
  recorded : ∀ (j i : Nat) m role, s.counters[i]? = some (m, role) → m.ofSource = true →
    k.recorded[j * s.counters.size + i]? = k'.recorded[j * s.counters.size + i]?

theorem Counters.Generated.sameTraffic {capacity : Nat} {s : Setup} {k k' : Counters}
    (h : k.Generated capacity s) (h' : k'.Generated capacity s) : k.SameTraffic s k' where
  sources := by
    constructor
    · rw [← Array.length_toList, h.sent, List.length_map, Setup.length_sources_senderAfter]
    · rw [← Array.length_toList, h.blocked, List.length_map, Setup.length_sources_senderAfter]
  sent := Array.toList_inj.1 (h.sent.trans h'.sent.symm)
  blocked := Array.toList_inj.1 (h.blocked.trans h'.blocked.symm)
  records := h.size.trans h'.size.symm
  recorded j i m role hi hm :=
    (h.recorded j i m role hi hm).trans (h'.recorded j i m role hi hm).symm

/-- What a core sends depends on nothing but its own setup and the capacity: two machines on which
it is loaded alike, with whatever network, seed, faults and other cores, count the same for each of
its sources. -/
theorem generates_alike {m m' : Machine} (hcapacity : m.config.capacity = m'.config.capacity)
    {core : CoreId} {s : Setup} (hs : m.loaded.get? core = some s)
    (hs' : m'.loaded.get? core = some s) {cores cores' : List CoreId} (hcore : core ∈ cores)
    (hcore' : core ∈ cores') {m₁ m₁' : Machine} (hstart : m.start cores = (.value (), m₁))
    (hstart' : m'.start cores' = (.value (), m₁')) :
    ∃ k k', m₁.counters.get? core = some k ∧ m₁'.counters.get? core = some k' ∧
      k.SameTraffic s k' := by
  obtain ⟨k, hk, hgenerated⟩ := Machine.exists_generated hstart hcore hs
  obtain ⟨k', hk', hgenerated'⟩ := Machine.exists_generated hstart' hcore' hs'
  rw [← hcapacity] at hgenerated'
  exact ⟨k, k', hk, hk', hgenerated.sameTraffic hgenerated'⟩

/-- A core with a source that sends at random and one that is always due, which makes four
records. -/
def Setup.busy : Setup :=
  { Setup.blank ⟨1⟩ 0 with
    timestep := 5
    seed := 3
    runTicks := 8
    recordInterval := 2
    sources := #[⟨7, false, .bernoulli 0x80000000, none, 0⟩, ⟨8, true, .every 1, none, 2⟩]
    counters := #[(.sent, 0), (.blocked, 0), (.sent, 1), (.blocked, 1)] }

/-- A core that runs longer, sends and watches both of the other's keys. -/
def Setup.watching : Setup :=
  { Setup.blank ⟨0⟩ 0 with
    timestep := 5
    seed := 4
    runTicks := 20
    sources := #[⟨9, true, .bernoulli 0x40000000, none, 0⟩]
    sinks := #[⟨7, ⟨1⟩⟩, ⟨8, ⟨1⟩⟩] }

/-- A core that runs alone, and one that is watched across a network that loses packets. -/
theorem generates_alike_busy :
    let m : Machine := { Machine.new .standard with loaded := .ofList [(⟨1⟩, .busy)] }
    let lossy : MachineConfig :=
      { MachineConfig.standard with network := ⟨.always, 3, 2⟩, seed := 9 }
    let m' : Machine :=
      { Machine.new lossy with loaded := .ofList [(⟨0⟩, .watching), (⟨1⟩, .busy)] }
    ∃ m₁ m₁' k k', m.start [⟨1⟩] = (.value (), m₁) ∧ m'.start [⟨0⟩, ⟨1⟩] = (.value (), m₁') ∧
      m₁.counters.get? ⟨1⟩ = some k ∧ m₁'.counters.get? ⟨1⟩ = some k' ∧
      k.SameTraffic .busy k' := by
  intro m lossy m'
  have hstart : m.start [⟨1⟩] = (.value (), (m.start [⟨1⟩]).2) :=
    Prod.ext (by decide +kernel) rfl
  have hstart' : m'.start [⟨0⟩, ⟨1⟩] = (.value (), (m'.start [⟨0⟩, ⟨1⟩]).2) :=
    Prod.ext (by decide +kernel) rfl
  have hcapacity : m.config.capacity = m'.config.capacity := rfl
  have hs : m.loaded.get? ⟨1⟩ = some .busy := rfl
  have hs' : m'.loaded.get? ⟨1⟩ = some .busy := rfl
  obtain ⟨k, k', hk, hk', hsame⟩ := generates_alike hcapacity hs hs' List.mem_cons_self
    (List.mem_cons_of_mem _ List.mem_cons_self) hstart hstart'
  exact ⟨_, _, k, k', hstart, hstart', hk, hk', hsame⟩

end TrafficLab
