import TrafficLab.Proofs.Chip.Generation

/-!
# Runs that go the same way

What the cores of a run have sent and received after some ticks depends on their seeds, sources and
sinks and on whether they take packets.  How much longer the cores will run, what they record and
when, and which slots they have for their counters make no difference to it.

    the traffic of a run after a tick depends on its traffic before       (traffic_tick_congr)
    same traffic of the setups → same traffic of the runs                 (traffic_after_congr)
    same traffic → the same values in the slots of each core              (current?_congr_traffic)
    same traffic → both runs fit in their words or neither does           (fits_congr_traffic)
-/

namespace TrafficLab

/-! ## Traffic -/

/-- What matters of a setup for its packets, as long as its run is not over. -/
def Setup.traffic (s : Setup) : Setup :=
  { s with tag := 0, timestep := 0, runTicks := 0, record := .empty, recordInterval := 0,
           counters := #[] }

/-- A sender without the end of its run. -/
def Sender.traffic (s : Sender) : Sender := { s with runTicks := 0 }

/-- A run without the ends of its cores' runs and without what has been recorded. -/
def Run.traffic (run : Run) : Run := ⟨run.senders.map (·.traffic), run.receivers, run.random, #[]⟩

theorem watchers_traffic (setups : List Setup) (core : CoreId) (key : UInt32) :
    watchers (setups.map (·.traffic)) core key = watchers setups core key := by
  unfold watchers
  rw [List.zipIdx_map, List.flatMap_map]
  rfl

/-! ## One tick -/

theorem Sender.send_congr (capacity : Nat) {tick : Nat} {s s' : Sender} (h : s.traffic = s'.traffic)
    (hrun : tick < s.runTicks) (hrun' : tick < s'.runTicks) :
    (s.send capacity tick).1.traffic = (s'.send capacity tick).1.traffic ∧
      (s.send capacity tick).2 = (s'.send capacity tick).2 := by
  obtain ⟨runTicks, random, sources⟩ := s
  obtain ⟨runTicks', random', sources'⟩ := s'
  obtain ⟨-, rfl, rfl⟩ := Sender.mk.inj h
  unfold send
  rw [if_pos hrun, if_pos hrun']
  exact ⟨rfl, rfl⟩

theorem sendAll_congr (capacity : Nat) {tick : Nat} {senders senders' : List Sender}
    (h : senders.map (·.traffic) = senders'.map (·.traffic))
    (hrun : ∀ s ∈ senders, tick < s.runTicks) (hrun' : ∀ s ∈ senders', tick < s.runTicks) :
    (sendAll capacity tick senders).1.map (·.traffic) =
        (sendAll capacity tick senders').1.map (·.traffic) ∧
      (sendAll capacity tick senders).2 = (sendAll capacity tick senders').2 := by
  induction senders generalizing senders' with
  | nil =>
    rw [List.map_eq_nil_iff.1 h.symm]
    exact ⟨rfl, rfl⟩
  | cons s rest ih =>
    obtain ⟨s', rest', rfl, hs, hrest⟩ := List.map_eq_cons_iff.1 h.symm
    obtain ⟨hsender, hpackets⟩ := Sender.send_congr capacity hs.symm
      (hrun s List.mem_cons_self) (hrun' s' List.mem_cons_self)
    obtain ⟨hsenders, hmore⟩ := ih hrest.symm
      (fun x hx => hrun x (List.mem_cons_of_mem s hx))
      fun x hx => hrun' x (List.mem_cons_of_mem s' hx)
    unfold sendAll
    simp only [List.map_cons]
    rw [hsender, hsenders, hpackets, hmore]
    exact ⟨rfl, rfl⟩

namespace Run

theorem random_foldl_record (elapsed : Nat) (recorders : List (Setup × Nat)) (run : Run) :
    (recorders.foldl (record elapsed) run).random = run.random := by
  induction recorders generalizing run with
  | nil => rfl
  | cons x rest ih => rw [List.foldl_cons, ih, random_record]

/-- The traffic after a tick, in which recording has no part. -/
theorem traffic_tick (capacity : Nat) (n : Network) (recorders : List (Setup × Nat)) (now : Nat)
    (run : Run) :
    (run.tick capacity n recorders now).traffic =
      ⟨(sendAll capacity now run.senders).1.map (·.traffic),
        (n.deliverAll (run.receivers, run.random) (sendAll capacity now run.senders).2).1,
        (n.deliverAll (run.receivers, run.random) (sendAll capacity now run.senders).2).2, #[]⟩ := by
  obtain ⟨hsenders, hreceivers, -⟩ := run.tick_frame capacity n recorders now
  have hrandom : (run.tick capacity n recorders now).random =
      (n.deliverAll (run.receivers, run.random) (sendAll capacity now run.senders).2).2 :=
    random_foldl_record (now + 1) recorders _
  unfold traffic
  rw [hsenders, hreceivers, hrandom]

/-- During a tick that is within the runs of all cores, the traffic depends on nothing else. -/
theorem traffic_tick_congr (capacity : Nat) (n : Network) {now : Nat} {run run' : Run}
    (h : run.traffic = run'.traffic) (hrun : ∀ s ∈ run.senders, now < s.runTicks)
    (hrun' : ∀ s ∈ run'.senders, now < s.runTicks) (recorders recorders' : List (Setup × Nat)) :
    (run.tick capacity n recorders now).traffic =
      (run'.tick capacity n recorders' now).traffic := by
  obtain ⟨hsenders, hreceivers, hrandom, -⟩ := Run.mk.inj h
  obtain ⟨hsent, hpackets⟩ := sendAll_congr capacity hsenders hrun hrun'
  rw [traffic_tick, traffic_tick, hsent, hpackets, hreceivers, hrandom]

/-! ## Whole runs -/

/-- The ends of the cores' runs do not move. -/
theorem runTicks_after (capacity : Nat) (n : Network) (seed : UInt64) (setups : List Setup)
    (recorders : List (Setup × Nat)) (elapsed : Nat) :
    (after capacity n seed setups recorders elapsed).senders.map (·.runTicks) =
      setups.map (·.runTicks) := by
  induction elapsed with
  | zero =>
    show (setups.map (Sender.ofSetup setups)).map _ = _
    rw [List.map_map]
    rfl
  | succ elapsed ih =>
    show ((after capacity n seed setups recorders elapsed).tick capacity n recorders
      elapsed).senders.map _ = _
    rw [senders_tick, List.map_map, ← ih]
    exact List.map_congr_left fun s _ => (emits_send capacity elapsed s).1

theorem lt_runTicks_of_mem_senders {capacity : Nat} {n : Network} {seed : UInt64}
    {setups : List Setup} {recorders : List (Setup × Nat)} {elapsed now : Nat}
    (h : ∀ s ∈ setups, now < s.runTicks) {snd : Sender}
    (hsnd : snd ∈ (after capacity n seed setups recorders elapsed).senders) :
    now < snd.runTicks := by
  have hmem := List.mem_map_of_mem (f := (·.runTicks)) hsnd
  rw [runTicks_after] at hmem
  obtain ⟨s, hs, hticks⟩ := List.mem_map.1 hmem
  exact hticks ▸ h s hs

theorem traffic_ofSetups (seed : UInt64) (setups : List Setup) :
    (ofSetups seed setups).traffic = (ofSetups seed (setups.map (·.traffic))).traffic := by
  have hsender : ∀ s : Setup, (Sender.ofSetup setups s).traffic =
      (Sender.ofSetup (setups.map (·.traffic)) s.traffic).traffic := by
    intro s
    unfold Sender.ofSetup
    simp only [watchers_traffic]
    rfl
  unfold ofSetups traffic
  simp only [List.map_map, Function.comp_def, hsender]
  rfl

/-- As long as no core's run is over, what has been sent and received is the same in runs of cores
that have the same traffic. -/
theorem traffic_after_congr {setups setups' : List Setup}
    (h : setups.map (·.traffic) = setups'.map (·.traffic)) (capacity : Nat) (n : Network)
    (seed : UInt64) (recorders recorders' : List (Setup × Nat)) {elapsed : Nat}
    (hrun : ∀ s ∈ setups, elapsed ≤ s.runTicks) (hrun' : ∀ s ∈ setups', elapsed ≤ s.runTicks) :
    (after capacity n seed setups recorders elapsed).traffic =
      (after capacity n seed setups' recorders' elapsed).traffic := by
  induction elapsed with
  | zero =>
    show (ofSetups seed setups).traffic = (ofSetups seed setups').traffic
    rw [traffic_ofSetups, h, ← traffic_ofSetups]
  | succ elapsed ih =>
    have hbefore := ih (fun s hs => Nat.le_of_succ_le (hrun s hs))
      fun s hs => Nat.le_of_succ_le (hrun' s hs)
    exact traffic_tick_congr capacity n hbefore (fun _ => lt_runTicks_of_mem_senders hrun)
      (fun _ => lt_runTicks_of_mem_senders hrun') recorders recorders'

/-! ## Rows -/

theorem current?_traffic (run : Run) (d : Nat) : run.traffic.current? d = run.current? d := by
  unfold current? traffic
  simp only [List.getElem?_map]
  cases run.senders[d]? with
  | none => rfl
  | some snd => rfl

/-- Runs with the same traffic have the same counters of each core. -/
theorem current?_congr_traffic {run run' : Run} (h : run.traffic = run'.traffic) (d : Nat) :
    run.current? d = run'.current? d := by
  rw [← current?_traffic, h, current?_traffic]

theorem fits_traffic (run : Run) : run.traffic.fits = run.fits := by
  unfold fits traffic
  rw [List.all_map]
  rfl

theorem fits_congr_traffic {run run' : Run} (h : run.traffic = run'.traffic) :
    run.fits = run'.fits := by
  rw [← fits_traffic, h, fits_traffic]

end Run

end TrafficLab
