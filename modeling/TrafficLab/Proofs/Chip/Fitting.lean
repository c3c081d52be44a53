import TrafficLab.Chip.Machine
import TrafficLab.Proofs.Chip.Recording

/-!
# Counters that fit

A core keeps the sources and sinks of its setup for the whole of a run, whatever the other cores
are.  So it has a row at every tick if its counters fit its setup.  If they do not, because some
counter belongs to a source or sink that is not there, it never has one.

A stream that is accepted sets up a core whose counters fit as long as it makes room for its sources
and sinks before it declares its first counter.  In another order it may take away the source or
sink of a counter that is declared already.

    s.countersFit → every row and the dump exist                          (exists_row, exists_dump)
    a row or the dump exists → s.countersFit              (countersFit_of_row, countersFit_of_dump)
    room is made before counters are declared → s.countersFit               (countersFit_of_play)
-/

namespace TrafficLab

/-! ## Roles during a run -/

theorem map_size_modify {receivers : Array Receiver} {f : Receiver → Receiver}
    (hf : ∀ r, (f r).sinks.size = r.sinks.size) (d : Nat) :
    (receivers.modify d f).toList.map (·.sinks.size) = receivers.toList.map (·.sinks.size) := by
  refine List.ext_getElem? fun i => ?_
  rw [List.getElem?_map, List.getElem?_map, Array.getElem?_toList, Array.getElem?_toList,
    Array.getElem?_modify]
  split
  · rw [Option.map_map]
    congr 1
    funext r
    exact hf r
  · rfl

theorem Receiver.size_take (w : Watcher) (latency : Option Nat) (r : Receiver) :
    (r.take w latency).sinks.size = r.sinks.size :=
  Array.size_modify

namespace Network

variable (n : Network)

theorem sinks_deliver (payload : Bool) (state : Array Receiver × Random) (w : Watcher) :
    (n.deliver payload state w).1.toList.map (·.sinks.size) =
      state.1.toList.map (·.sinks.size) := by
  obtain h | ⟨latency, h⟩ := n.deliver_cases payload state w
  · rw [h]
    exact map_size_modify (f := Receiver.drop) (fun r => rfl) w.core
  · rw [h]
    exact map_size_modify (Receiver.size_take w latency) w.core

theorem sinks_deliverAll (packets : List Packet) (state : Array Receiver × Random) :
    (n.deliverAll state packets).1.toList.map (·.sinks.size) =
      state.1.toList.map (·.sinks.size) :=
  n.deliverAll_induction
    (P := fun receivers => receivers.toList.map (·.sinks.size) = state.1.toList.map (·.sinks.size))
    (fun p _ w _ state' h => (n.sinks_deliver p.payload state' w).trans h) rfl

end Network

namespace Run

variable {setups : List Setup} {run : Run}

/-- A run in which every core has the sources and sinks of its setup. -/
structure Formed (setups : List Setup) (run : Run) : Prop where
  sources : run.senders.map (·.sources.length) = setups.map (·.sources.size)
  sinks : run.receivers.toList.map (·.sinks.size) = setups.map (·.sinks.size)
  recorded_size : run.recorded.size = setups.length

theorem formed_ofSetups (seed : UInt64) (setups : List Setup) :
    (ofSetups seed setups).Formed setups := by
  refine ⟨?_, ?_, Array.size_replicate⟩
  · show (setups.map (Sender.ofSetup setups)).map _ = _
    rw [List.map_map]
    refine List.map_congr_left fun s _ => ?_
    show (s.sources.toList.map _).length = _
    rw [List.length_map, Array.length_toList]
  · show (setups.map Receiver.ofSetup).map _ = _
    rw [List.map_map]
    exact List.map_congr_left fun s _ => Array.size_replicate

theorem map_length_sources (senders : List Sender) :
    senders.map (·.sources.length) = (senders.map Sender.shape).map (·.2.length) := by
  rw [List.map_map]
  refine List.map_congr_left fun s _ => ?_
  show s.sources.length = (s.sources.map _).length
  rw [List.length_map]

/-- A tick gives and takes no source or sink. -/
theorem Formed.tick (h : run.Formed setups) (capacity : Nat) (n : Network)
    (recorders : List (Setup × Nat)) (now : Nat) :
    (run.tick capacity n recorders now).Formed setups := by
  obtain ⟨hsenders, hreceivers, hrecorded⟩ := run.tick_frame capacity n recorders now
  constructor
  · rw [hsenders, map_length_sources, shape_sendAll, ← map_length_sources]
    exact h.sources
  · rw [hreceivers, n.sinks_deliverAll]
    exact h.sinks
  · rw [hrecorded]
    exact h.recorded_size

theorem formed_after (capacity : Nat) (n : Network) (seed : UInt64) (setups : List Setup)
    (recorders : List (Setup × Nat)) (elapsed : Nat) :
    (after capacity n seed setups recorders elapsed).Formed setups := by
  induction elapsed with
  | zero => exact formed_ofSetups seed setups
  | succ elapsed ih => exact ih.tick capacity n recorders elapsed

/-- Both halves of a core and what it has recorded. -/
theorem Formed.exists_halves (h : run.Formed setups) {d : Nat} {s : Setup}
    (hs : setups[d]? = some s) : ∃ snd r recorded, run.senders[d]? = some snd ∧
      run.receivers[d]? = some r ∧ run.recorded[d]? = some recorded ∧
      snd.sources.length = s.sources.size ∧ r.sinks.size = s.sinks.size := by
  have hsources := congrArg (fun l => l[d]?) h.sources
  have hsinks := congrArg (fun l => l[d]?) h.sinks
  simp only [List.getElem?_map, Array.getElem?_toList, hs, Option.map_some,
    Option.map_eq_some_iff] at hsources hsinks
  obtain ⟨snd, hsnd, hsources⟩ := hsources
  obtain ⟨r, hr, hsinks⟩ := hsinks
  have hd : d < run.recorded.size := by
    rw [h.recorded_size]
    exact (List.getElem?_eq_some_iff.1 hs).1
  exact ⟨snd, r, _, hsnd, hr, Array.getElem?_eq_getElem hd, hsources, hsinks⟩

/-- The counters of a core are made from its halves. -/
theorem Formed.exists_current (h : run.Formed setups) {d : Nat} {s : Setup}
    (hs : setups[d]? = some s) : ∃ snd r, run.receivers[d]? = some r ∧
      run.current? d = some (.ofHalves snd r #[]) ∧ r.sinks.size = s.sinks.size := by
  obtain ⟨snd, r, -, hsnd, hr, -, -, hsinks⟩ := h.exists_halves hs
  refine ⟨snd, r, hr, ?_, hsinks⟩
  unfold current?
  rw [hsnd, hr]
  rfl

/-! ## Rows -/

/-- A core with counters that fit has a row, with the values that its halves have for them. -/
theorem Formed.exists_entries (h : run.Formed setups) {d : Nat} {s : Setup}
    (hs : setups[d]? = some s) (hfit : s.countersFit = true) :
    ∃ snd r row, run.senders[d]? = some snd ∧ run.receivers[d]? = some r ∧
      run.row? d s = some row ∧ row.length = s.counters.size ∧
      ∀ (i : Nat) x, s.counters[i]? = some x →
        row[i]? = (Counters.ofHalves snd r #[]).slot? s.record x.1 x.2 := by
  obtain ⟨snd, r, -, hsnd, hr, -, hsources, hsinks⟩ := h.exists_halves hs
  have hsome : ∀ j, j < s.sinks.size → (r.sinks[j]?).isSome := by
    intro j hj
    rw [Array.getElem?_eq_getElem (hsinks ▸ hj)]
    rfl
  obtain ⟨row, hrow, hentry⟩ := exists_row_of_halves hsources hsome hfit
  exact ⟨snd, r, row, hsnd, hr, (row?_of_halves hsnd hr s).trans hrow, hentry⟩

theorem Formed.exists_row (h : run.Formed setups) {d : Nat} {s : Setup}
    (hs : setups[d]? = some s) (hfit : s.countersFit = true) :
    ∃ row, run.row? d s = some row ∧ row.length = s.counters.size := by
  obtain ⟨-, -, row, -, -, hrow, hlen, -⟩ := h.exists_entries hs hfit
  exact ⟨row, hrow, hlen⟩

end Run

/-- The counters that belong to no source or sink have one role, which every core has. -/
def Setup.RouterFits (s : Setup) : Prop :=
  ∀ x ∈ s.counters, x.1.ofSource = false → x.1.ofSink = false → x.2.toNat < 1

namespace Run

variable {setups : List Setup} {run : Run}

/-- A value that is there is the value of a role that is there. -/
theorem lt_roles_of_slot? {snd : Sender} {r : Receiver} {s : Setup}
    (hsources : snd.sources.length = s.sources.size) (hsinks : r.sinks.size = s.sinks.size)
    (hrouter : s.RouterFits) {x : Metric × UInt8} (hx : x ∈ s.counters)
    (hslot : ((Counters.ofHalves snd r #[]).slot? s.record x.1 x.2).isSome) :
    x.2.toNat < s.roles x.1 := by
  obtain ⟨m, role⟩ := x
  unfold Counters.slot? Counters.ofHalves at hslot
  cases m with
  | sent | blocked =>
    show role.toNat < s.sources.size
    rw [← hsources]
    simpa using hslot
  | received | latencySum | latencySumSq =>
    show role.toNat < s.sinks.size
    rw [← hsinks]
    simpa using hslot
  | router c => exact hrouter _ hx rfl rfl

/-- A core with a row has counters that fit. -/
theorem Formed.countersFit_of_row (h : run.Formed setups) {d : Nat} {s : Setup}
    (hs : setups[d]? = some s) (hrouter : s.RouterFits) {row : List Nat}
    (hrow : run.row? d s = some row) : s.countersFit = true := by
  obtain ⟨snd, r, -, hsnd, hr, -, hsources, hsinks⟩ := h.exists_halves hs
  rw [row?_of_halves hsnd hr] at hrow
  unfold Setup.countersFit
  rw [Array.all_eq_true_iff_forall_mem]
  intro x hx
  have hslot := Checked.isSome_of_mapM_eq_some hrow x (Array.mem_toList_iff.2 hx)
  simpa using lt_roles_of_slot? hsources hsinks hrouter hx hslot

/-! ## Whole runs -/

theorem final_eq (capacity : Nat) (n : Network) (seed : UInt64) (setups : List Setup) :
    final capacity n seed setups =
      after capacity n seed setups (recorders setups) (longestRun setups) := by
  have hticks := ticks_after capacity n seed setups (recorders setups) (longestRun setups) 0
  rwa [Nat.zero_add] at hticks

/-- The counters of a core at the end of a run are made from its halves and its records. -/
theorem exists_simulate (capacity : Nat) (n : Network) (seed : UInt64) {d : Nat} {s : Setup}
    (hs : setups[d]? = some s) :
    ∃ snd r recorded,
      (after capacity n seed setups (recorders setups) (longestRun setups)).senders[d]? =
        some snd ∧
      (after capacity n seed setups (recorders setups) (longestRun setups)).receivers[d]? =
        some r ∧
      (after capacity n seed setups (recorders setups) (longestRun setups)).recorded[d]? =
        some recorded ∧
      (simulate capacity n seed setups)[d]? = some (.ofHalves snd r recorded) := by
  have hformed := formed_after capacity n seed setups (recorders setups) (longestRun setups)
  obtain ⟨snd, r, recorded, hsnd, hr, hrecorded, -⟩ := hformed.exists_halves hs
  refine ⟨snd, r, recorded, hsnd, hr, hrecorded, ?_⟩
  have hzip : ((after capacity n seed setups (recorders setups) (longestRun setups)).senders.zip
      ((after capacity n seed setups (recorders setups) (longestRun setups)).receivers.toList.zip
        (after capacity n seed setups (recorders setups)
          (longestRun setups)).recorded.toList))[d]? = some (snd, r, recorded) := by
    rw [List.getElem?_zip_eq_some]
    refine ⟨hsnd, ?_⟩
    rw [List.getElem?_zip_eq_some, Array.getElem?_toList, Array.getElem?_toList]
    exact ⟨hr, hrecorded⟩
  unfold simulate counters
  rw [final_eq, List.getElem?_map, hzip]
  rfl

/-- A core has a dump at the end of a run if it has a row there, and only then. -/
theorem exists_dump_iff (capacity : Nat) (n : Network) (seed : UInt64) {d : Nat} {s : Setup}
    (hs : setups[d]? = some s) :
    (∃ counters dump, (simulate capacity n seed setups)[d]? = some counters ∧
        counters.dump? s = some dump) ↔
      ∃ row, (after capacity n seed setups (recorders setups) (longestRun setups)).row? d s =
        some row := by
  obtain ⟨snd, r, recorded, hsnd, hr, -, hsim⟩ := exists_simulate capacity n seed hs
  have hdump : (Counters.ofHalves snd r recorded).dump? s =
      ((Counters.ofHalves snd r #[]).row? s).map fun row => Dump.layout s.tag
        (UInt32.ofNat s.counters.size) ((recorded.toList ++ row).map UInt64.ofNat) := by
    unfold Counters.dump? Counters.dumpValues?
    rw [Option.map_map]
    rfl
  rw [row?_of_halves hsnd hr]
  constructor
  · rintro ⟨counters, dump, hcounters, h⟩
    rw [hsim] at hcounters
    cases hcounters
    rw [hdump] at h
    obtain ⟨row, hrow, -⟩ := Option.map_eq_some_iff.1 h
    exact ⟨row, hrow⟩
  · rintro ⟨row, hrow⟩
    rw [hrow] at hdump
    exact ⟨_, _, hsim, hdump⟩

end Run

/-! ## Playing commands -/

namespace Command

def isCounter : Command → Bool
  | counter _ _ _ => true
  | _ => false

def isNum : Command → Bool
  | num _ _ => true
  | _ => false

end Command

/-- Commands that declare no counter before they make room for sources and sinks the last time.
Those after the first `EXIT` are not played. -/
def Stream.MakesRoomFirst (commands : List Command) : Prop :=
  (commands.takeWhile fun c => c != .exit).Pairwise fun a b =>
    a.isCounter = true → b.isNum = false

namespace Setup

/-- What one command does to the roles and counters of a setup. -/
inductive Steps (s : Setup) (c : Command) (t : Setup) : Prop
  | counter (m : Metric) (role : UInt8) (hc : c.isCounter = true) (hrole : role.toNat < s.roles m)
      (hroles : t.roles = s.roles) (hcounters : t.counters = s.counters.push (m, role))
  | num (hc : c.isNum = true) (hcounters : t.counters = s.counters)
  | other (hroles : t.roles = s.roles) (hcounters : t.counters = s.counters)

theorem steps_of_step {s t : Setup} {c : Command} (h : s.step c = .ok t) : s.Steps c t := by
  cases c with
  | num sources sinks =>
    cases h
    exact .num rfl rfl
  | counter slot m role =>
    change s.addCounter slot m role = .ok t at h
    unfold addCounter at h
    split at h
    · cases h
    · split at h
      · cases h
      · next hrole =>
        cases h
        exact .counter m role rfl (Nat.lt_of_not_le hrole) rfl rfl
  | source number setting =>
    change s.setSource number setting = .ok t at h
    unfold setSource at h
    split at h
    · cases h
    · split at h
      · cases h
        refine .other ?_ rfl
        funext m
        simp only [roles, Array.size_modify]
      · cases h
  | sink number setting =>
    change s.setSink number setting = .ok t at h
    unfold setSink at h
    split at h
    · cases h
      refine .other ?_ rfl
      funext m
      simp only [roles, Array.size_modify]
    · cases h
  | _ =>
    cases h
    exact .other rfl rfl

theorem countersFit_iff {s : Setup} :
    s.countersFit = true ↔ ∀ x ∈ s.counters, x.2.toNat < s.roles x.1 := by
  unfold countersFit
  rw [Array.all_eq_true_iff_forall_mem]
  simp only [decide_eq_true_eq]

theorem Steps.routerFits {s t : Setup} {c : Command} (h : s.Steps c t) (hs : s.RouterFits) :
    t.RouterFits := by
  cases h with
  | counter m role _ hrole _ hcounters =>
    intro x hx hsource hsink
    rw [hcounters] at hx
    rcases Array.mem_push.1 hx with hx | rfl
    · exact hs x hx hsource hsink
    · unfold roles at hrole
      simpa [hsource, hsink] using hrole
  | num _ hcounters =>
    unfold RouterFits
    rw [hcounters]
    exact hs
  | other _ hcounters =>
    unfold RouterFits
    rw [hcounters]
    exact hs

/-- Counters that fit still fit after a command that does not make room anew. -/
theorem Steps.countersFit {s t : Setup} {c : Command} (h : s.Steps c t)
    (hs : s.countersFit = true) (hnum : s.counters = #[] ∨ c.isNum = false) :
    t.countersFit = true := by
  rw [countersFit_iff] at hs ⊢
  intro x hx
  cases h with
  | counter m role _ hrole hroles hcounters =>
    rw [hroles]
    rw [hcounters] at hx
    rcases Array.mem_push.1 hx with hx | rfl
    · exact hs x hx
    · exact hrole
  | num hc hcounters =>
    rcases hnum with hempty | hnum
    · rw [hcounters, hempty] at hx
      simp at hx
    · rw [hc] at hnum
      cases hnum
  | other hroles hcounters =>
    rw [hroles]
    rw [hcounters] at hx
    exact hs x hx

theorem foldlM_countersFit {cs : List Command} {s t : Setup} (h : cs.foldlM step s = .ok t)
    (hfirst : cs.Pairwise fun a b => a.isCounter = true → b.isNum = false)
    (hs : s.countersFit = true) (hnum : s.counters = #[] ∨ ∀ c ∈ cs, c.isNum = false) :
    t.countersFit = true := by
  induction cs generalizing s with
  | nil =>
    cases h
    exact hs
  | cons c rest ih =>
    obtain ⟨hc, hrest⟩ := List.pairwise_cons.1 hfirst
    rw [List.foldlM_cons] at h
    obtain ⟨u, hu, h⟩ := Checked.bind_eq_ok.1 h
    have hsteps := steps_of_step hu
    have hfit := hsteps.countersFit hs (hnum.imp_right fun hall => hall c (by simp))
    refine ih h hrest hfit ?_
    -- a counter forbids all later room, and without one there are as many counters as before
    cases hsteps with
    | counter m role hcounter _ _ _ =>
      right
      exact fun b hb => hc b hb hcounter
    | num _ hcounters =>
      rw [hcounters]
      exact hnum.imp_right fun hall b hb => hall b (by simp [hb])
    | other _ hcounters =>
      rw [hcounters]
      exact hnum.imp_right fun hall b hb => hall b (by simp [hb])

/-- What a stream that is accepted has been played from, and what the setup is checked for at its
end. -/
theorem checks_of_play {core : CoreId} {bytes : List UInt8} {s : Setup}
    (h : play core bytes = .ok s) : ∃ commands, Stream.unpack bytes = .ok commands ∧
      (commands.takeWhile fun c => c != .exit).foldlM step (blank core (Digest.tag bytes)) =
        .ok s ∧ s.timestep ≠ 0 ∧ s.hasEndlessBurst = false := by
  unfold play at h
  split at h
  · cases h
  · next commands hunpack =>
    unfold playCommands at h
    obtain ⟨t, ht, h⟩ := Checked.bind_eq_ok.1 h
    by_cases htimestep : t.timestep = 0
    · rw [if_pos htimestep] at h
      cases h
    rw [if_neg htimestep] at h
    by_cases hrun : (!(commands.takeWhile fun c => c != .exit).any isRun) = true
    · rw [if_pos hrun] at h
      cases h
    rw [if_neg hrun] at h
    by_cases hburst : t.hasEndlessBurst = true
    · rw [if_pos hburst] at h
      cases h
    · rw [if_neg hburst] at h
      cases h
      exact ⟨commands, hunpack, ht, htimestep, Bool.eq_false_iff.2 hburst⟩

theorem foldlM_of_play {core : CoreId} {bytes : List UInt8} {s : Setup}
    (h : play core bytes = .ok s) : ∃ commands, Stream.unpack bytes = .ok commands ∧
      (commands.takeWhile fun c => c != .exit).foldlM step (blank core (Digest.tag bytes)) =
        .ok s := by
  obtain ⟨commands, hunpack, hplayed, -, -⟩ := checks_of_play h
  exact ⟨commands, hunpack, hplayed⟩

theorem routerFits_of_play {core : CoreId} {bytes : List UInt8} {s : Setup}
    (h : play core bytes = .ok s) : s.RouterFits := by
  obtain ⟨commands, -, hplayed⟩ := foldlM_of_play h
  refine Checked.foldlM_inv RouterFits (fun u c t hu hfits => (steps_of_step hu).routerFits hfits)
    hplayed fun x hx => ?_
  simp [blank] at hx

theorem core_of_step {s t : Setup} {c : Command} (h : s.step c = .ok t) :
    t.core = s.core := by
  cases c with
  | source number setting =>
    change s.setSource number setting = .ok t at h
    unfold setSource at h
    split at h
    · cases h
    · split at h <;> cases h
      rfl
  | sink number setting =>
    change s.setSink number setting = .ok t at h
    unfold setSink at h
    split at h <;> cases h
    rfl
  | counter slot m role =>
    change s.addCounter slot m role = .ok t at h
    unfold addCounter at h
    split at h
    · cases h
    · split at h <;> cases h
      rfl
  | _ =>
    cases h
    rfl

theorem core_of_play {core : CoreId} {bytes : List UInt8} {s : Setup}
    (h : play core bytes = .ok s) : s.core = core := by
  obtain ⟨commands, -, hplayed⟩ := foldlM_of_play h
  exact Checked.foldlM_inv (fun u => u.core = core)
    (fun u c t hu hcore => (core_of_step hu).trans hcore) hplayed rfl

/-- A stream that makes room first sets up a core whose counters fit. -/
theorem countersFit_of_play {core : CoreId} {bytes : List UInt8} {s : Setup}
    (h : play core bytes = .ok s) {commands : List Command}
    (hunpack : Stream.unpack bytes = .ok commands) (hfirst : Stream.MakesRoomFirst commands) :
    s.countersFit = true := by
  obtain ⟨played, hplayed, hfold⟩ := foldlM_of_play h
  rw [hunpack] at hplayed
  cases hplayed
  have hblank : (blank core (Digest.tag bytes)).countersFit = true := by
    rw [countersFit_iff]
    intro x hx
    simp [blank] at hx
  exact foldlM_countersFit hfold hfirst hblank (.inl rfl)

end Setup

/-! ## Main result -/

/-- A core that plays a stream which is accepted has all its rows and its dump, in any run with any
other cores, exactly if its counters fit; and they fit if the stream makes room for its sources and
sinks before it declares its counters. -/
theorem rows_and_dump_iff_countersFit {core : CoreId} {bytes : List UInt8} {s : Setup}
    (hplay : Setup.play core bytes = .ok s) {setups : List Setup} {d : Nat}
    (hs : setups[d]? = some s) (capacity : Nat) (n : Network) (seed : UInt64) :
    (((∀ t, ∃ row, (Run.after capacity n seed setups (recorders setups) t).row? d s = some row ∧
          row.length = s.counters.size) ∧
        ∃ counters dump, (simulate capacity n seed setups)[d]? = some counters ∧
          counters.dump? s = some dump) ↔
      s.countersFit = true) ∧
    ∀ commands, Stream.unpack bytes = .ok commands → Stream.MakesRoomFirst commands →
      s.countersFit = true := by
  have hformed := Run.formed_after capacity n seed setups (recorders setups)
  refine ⟨⟨?_, fun hfit => ⟨fun t => (hformed t).exists_row hs hfit, ?_⟩⟩,
    fun commands => Setup.countersFit_of_play hplay⟩
  · rintro ⟨hrows, -⟩
    obtain ⟨row, hrow, -⟩ := hrows 0
    exact (hformed 0).countersFit_of_row hs (Setup.routerFits_of_play hplay) hrow
  · obtain ⟨row, hrow, -⟩ := (hformed (longestRun setups)).exists_row hs hfit
    exact (Run.exists_dump_iff capacity n seed hs).2 ⟨row, hrow⟩

/-- A stream that counts what its only source sends. -/
def Stream.countsSource : List Command :=
  [.timestep 1, .num 1 0, .counter 0 .sent 0, .run 1, .exit]

theorem rows_and_dump_countsSource :
    ∃ s, Setup.play ⟨0⟩ (Stream.pack Stream.countsSource) = .ok s ∧ [s][0]? = some s ∧
      Stream.unpack (Stream.pack Stream.countsSource) = .ok Stream.countsSource ∧
      Stream.MakesRoomFirst Stream.countsSource ∧
      (∀ t, ∃ row, (Run.after 1 ⟨.never, 1, 0⟩ 0 [s] (recorders [s]) t).row? 0 s = some row ∧
        row.length = s.counters.size) ∧
      ∃ counters dump, (simulate 1 ⟨.never, 1, 0⟩ 0 [s])[0]? = some counters ∧
        counters.dump? s = some dump := by
  have haccepted : (Setup.play ⟨0⟩ (Stream.pack Stream.countsSource)).isOk = true := by
    decide +kernel
  have hunpack : Stream.unpack (Stream.pack Stream.countsSource) = .ok Stream.countsSource := by
    decide +kernel
  have hfirst : Stream.MakesRoomFirst Stream.countsSource := by
    unfold Stream.MakesRoomFirst
    decide
  cases hplay : Setup.play ⟨0⟩ (Stream.pack Stream.countsSource) with
  | error e =>
    rw [hplay] at haccepted
    cases haccepted
  | ok s =>
    obtain ⟨hiff, hfit⟩ := rows_and_dump_iff_countersFit hplay (rfl : [s][0]? = some s) 1
      ⟨.never, 1, 0⟩ 0
    have hboth := hiff.2 (hfit Stream.countsSource hunpack hfirst)
    exact ⟨s, rfl, rfl, hunpack, hfirst, hboth.1, hboth.2⟩

/-! ## Room that is made anew -/

/-- A stream that takes its only source away when it has declared a counter of it. -/
def Stream.takesSourceAway : List Command :=
  [.timestep 1, .num 1 0, .counter 0 .sent 0, .num 0 0, .run 1, .exit]

/-- The stream is accepted, its counter belongs to no source, and the machine breaks when it reads
the counters of the core. -/
theorem accepts_counter_without_source :
    let loaded := (Machine.new .standard).load ⟨0⟩ (Stream.pack Stream.takesSourceAway)
    let started := loaded.2.start [⟨0⟩]
    (Setup.play ⟨0⟩ (Stream.pack Stream.takesSourceAway)).toOption.map (·.countersFit) =
        some false ∧
      loaded.1 = .value () ∧ started.1 = .value () ∧ (started.2.read ⟨0⟩).1 = .crash := by
  decide +kernel

end TrafficLab
