import TrafficLab.Proofs.Chip.SharedRun

/-!
# Runs on shared counters

A run in which cores send one after the other, and each packet is counted at once, leaves the same
counters as one in which all cores send before anything is delivered.  It gives them exactly if the
run does not break and stays within its words.

    the sources of a core, and the core      (sendSources?_gives, sendCore?_gives)
    all cores of a tick, and its records     (sendAll?_gives, recordAll?_gives)
    a run up to a tick, and to its end       (ticks?_gives, simulate?_gives)
    Machine.start = a run on shared counters (start_eq_simulate?)
-/

namespace TrafficLab

open Checked

/-! ## Cores -/

theorem getElem?_after {α : Type} {a : α} {l m : List α} {d : Nat}
    (h : ∀ i : Nat, (a :: l)[i]? = m[d + i]?) (i : Nat) : l[i]? = m[d + 1 + i]? := by
  rw [Nat.add_assoc, Nat.add_comm 1 i]
  exact h (i + 1)

section
variable {setups : Table CoreId Setup} (hcores : ∀ e ∈ setups.entries, e.2.core = e.1)
  (n : Network) (capacity : UInt32) (tick : Nat)

include hcores

namespace Represents

/-- The sources of a core send in their order, and each packet is delivered at once. -/
theorem sendSources?_gives {d : Nat} {e : CoreId × Setup} (he : setups.entries[d]? = some e)
    {T : Nat} {rest : List SourceRun} {state : SharedRun} {run : Run} {random : Random}
    {before : List SourceRun} {emitted : UInt32} {left : Nat} (h : Represents setups state run)
    (hfits : run.fits = true) (hsnd : run.senders[d]? = some ⟨T, random, before ++ rest⟩)
    (hleft : emitted.toNat + left = capacity.toNat)
    (hwatchers : ∀ x ∈ rest, x.watchers = watchers setups.values e.1 x.setup.key) :
    Gives (SharedRun.sendSources? n setups (Watching.ofSetups setups) capacity tick e.1
        before.length emitted (rest.map (·.setup)) state)
      ((run.emitting n d T before (sendSources tick left random rest)).fits = true)
      (Represents setups · (run.emitting n d T before (sendSources tick left random rest))) := by
  induction rest generalizing state run random before emitted left with
  | nil =>
    have hsame : run.emitting n d T before (sendSources tick left random []) = run :=
      Run.putSender_same hsnd
    rw [hsame]
    exact .done hfits h
  | cons x rest ih =>
    obtain ⟨hdue, h₁⟩ := h.isDue_eq he hsnd tick x.setup
    have hrest : ∀ y ∈ rest, y.watchers = watchers setups.values e.1 y.setup.key :=
      fun y hy => hwatchers y (List.mem_cons_of_mem x hy)
    rw [List.map_cons, SharedRun.sendSources?, sendSources]
    generalize state.isDue tick e.1 x.setup = drawn at hdue h₁ ⊢
    obtain ⟨due, state₁⟩ := drawn
    generalize x.setup.isDue tick random = drawn at hdue h₁ ⊢
    obtain ⟨due', random₁⟩ := drawn
    obtain rfl : due = due' := hdue
    replace h₁ : Represents setups state₁
      (run.putSender d ⟨T, random₁, before ++ x :: rest⟩) := h₁
    have hfits₁ : (run.putSender d ⟨T, random₁, before ++ x :: rest⟩).fits = true :=
      Run.fits_putSender_same hfits hsnd rfl
    have hsnd₁ := Run.getElem?_putSender hsnd ⟨T, random₁, before ++ x :: rest⟩
    -- a source that has been dealt with joins those before, whatever has become of it
    have hshift : ∀ {run' : Run} {y : SourceRun},
        run'.senders[d]? = some ⟨T, random₁, before ++ y :: rest⟩ →
        run'.senders[d]? = some ⟨T, random₁, (before ++ [y]) ++ rest⟩ := by
      intro run' y hy
      rw [hy, List.append_assoc, List.singleton_append]
    have hlength : ∀ y : SourceRun, (before ++ [y]).length = before.length + 1 := by simp
    cases due with
    | false =>
      have hrun := ih h₁ hfits₁ (hshift hsnd₁) hleft hrest
      rw [hlength, Run.emitting_append, Run.emitting_putSender] at hrun
      exact hrun
    | true =>
      simp only [if_true]
      cases left with
      | zero =>
        have hfull : ¬emitted < capacity := by
          rw [UInt32.lt_iff_toNat_lt]
          omega
        rw [if_neg hfull]
        have hsnd₂ := hshift (Run.getElem?_putSender hsnd₁
          ⟨T, random₁, before ++ { x with blocked := x.blocked + 1 } :: rest⟩)
        have hgrown := Run.grown_emitting (n := n) hsnd₂ tick 0 random₁
        rw [Run.emitting_append, Run.emitting_putSender, Run.emitting_putSender] at hgrown
        refine (h₁.countBlocked?_gives he hfits₁ hsnd₁).grown hgrown fun state₂ h₂ hfits₂ => ?_
        have hrun := ih h₂ hfits₂ hsnd₂ hleft hrest
        rw [hlength, Run.emitting_append, Run.emitting_putSender, Run.emitting_putSender] at hrun
        exact hrun
      | succ left =>
        have hroom : emitted < capacity := by
          rw [UInt32.lt_iff_toNat_lt]
          omega
        have hcount : (emitted + 1).toNat = emitted.toNat + 1 := by
          have hlt := capacity.toNat_lt
          rw [UInt32.toNat_add]
          exact Nat.mod_eq_of_lt (show emitted.toNat + 1 < 2 ^ 32 by omega)
        rw [if_pos hroom]
        have hsnd₂ := hshift (Run.getElem?_sending (n := n) hsnd₁
          ⟨T, random₁, before ++ { x with sent := x.sent + 1 } :: rest⟩
          [⟨x.setup.payload, x.watchers⟩])
        have hgrown := Run.grown_emitting (n := n) hsnd₂ tick left random₁
        rw [Run.emitting_append, Run.emitting_sending, Run.emitting_putSender] at hgrown
        refine (h₁.send?_gives he hfits₁ hsnd₁ hcores (hwatchers x List.mem_cons_self) n).grown
          hgrown fun state₂ h₂ hfits₂ => ?_
        have hrun := ih h₂ hfits₂ hsnd₂ (by omega : (emitted + 1).toNat + left = capacity.toNat)
          hrest
        rw [hlength, Run.emitting_append, Run.emitting_sending, Run.emitting_putSender] at hrun
        exact hrun

/-- A core sends what its sending half does. -/
theorem sendCore?_gives {state : SharedRun} {run : Run} (h : Represents setups state run)
    (hfits : run.fits = true) {d : Nat} {e : CoreId × Setup} (he : setups.entries[d]? = some e)
    {snd : Sender} (hsnd : run.senders[d]? = some snd)
    (hshape : snd.shape =
      (e.2.runTicks, e.2.sources.toList.map fun x => (x, watchers setups.values e.2.core x.key))) :
    Gives (SharedRun.sendCore? n setups (Watching.ofSetups setups) capacity tick state e)
      ((run.sending n (run.senders.set d (snd.send capacity.toNat tick).1)
        (snd.send capacity.toNat tick).2).fits = true)
      (Represents setups · (run.sending n (run.senders.set d (snd.send capacity.toNat tick).1)
        (snd.send capacity.toNat tick).2)) := by
  obtain ⟨T, random, sources⟩ := snd
  unfold Sender.shape at hshape
  obtain ⟨hticks, hsources⟩ := Prod.mk.inj hshape
  have hsetups : e.2.sources.toList = sources.map (·.setup) := by
    have hfst := congrArg (List.map Prod.fst) hsources
    simpa [Function.comp_def] using hfst.symm
  have hwatchers : ∀ x ∈ sources, x.watchers = watchers setups.values e.1 x.setup.key := by
    intro x hx
    have hmem : (x.setup, x.watchers) ∈ e.2.sources.toList.map fun x =>
        (x, watchers setups.values e.2.core x.key) := hsources ▸ List.mem_map.2 ⟨x, hx, rfl⟩
    obtain ⟨src, -, heq⟩ := List.mem_map.1 hmem
    obtain ⟨rfl, hwatchers⟩ := Prod.mk.inj heq
    rw [← hwatchers, hcores e (List.mem_of_getElem? he)]
  unfold SharedRun.sendCore? Sender.send
  rw [hsetups, ← show T = e.2.runTicks from hticks]
  split
  · have hnone : run.senders[d]? = some ⟨T, random, [] ++ sources⟩ := hsnd
    have hleft : (0 : UInt32).toNat + capacity.toNat = capacity.toNat := Nat.zero_add _
    exact h.sendSources?_gives hcores n capacity tick he hfits hnone hleft hwatchers
  · have hsame : run.sending n (run.senders.set d ⟨T, random, sources⟩) [] = run :=
      Run.putSender_same hsnd
    rw [hsame]
    exact .done hfits h

end Represents

/-- The cores send in their order. -/
theorem sendAll?_gives {state : SharedRun} {run : Run} (h : Represents setups state run)
    (hfits : run.fits = true) {rest : List (CoreId × Setup)} {senders others : List Sender}
    (hsenders : run.senders = senders ++ others)
    (hentries : ∀ i : Nat, rest[i]? = setups.entries[senders.length + i]?)
    (hshape : others.map Sender.shape = rest.map fun e =>
      (e.2.runTicks, e.2.sources.toList.map fun x => (x, watchers setups.values e.2.core x.key))) :
    Gives (rest.foldlM (SharedRun.sendCore? n setups (Watching.ofSetups setups) capacity tick)
        state)
      ((run.sending n (senders ++ (sendAll capacity.toNat tick others).1)
        (sendAll capacity.toNat tick others).2).fits = true)
      (Represents setups · (run.sending n (senders ++ (sendAll capacity.toNat tick others).1)
        (sendAll capacity.toNat tick others).2)) := by
  induction rest generalizing state run senders others with
  | nil =>
    obtain rfl := List.map_eq_nil_iff.1 hshape
    have hsame : run.sending n (senders ++ (sendAll capacity.toNat tick []).1)
        (sendAll capacity.toNat tick []).2 = run := by
      unfold Run.sending
      rw [sendAll, ← hsenders]
      rfl
    rw [hsame]
    exact .done hfits h
  | cons e rest ih =>
    obtain ⟨snd, others, rfl, hsnd, hrest⟩ := List.map_eq_cons_iff.1 hshape
    have hget : run.senders[senders.length]? = some snd := by
      rw [hsenders]
      simp
    have hset : run.senders.set senders.length (snd.send capacity.toNat tick).1 =
        (senders ++ [(snd.send capacity.toNat tick).1]) ++ others := by
      rw [hsenders]
      simp
    have hlater : ∀ i : Nat, rest[i]? =
        setups.entries[(senders ++ [(snd.send capacity.toNat tick).1]).length + i]? := by
      intro i
      rw [List.length_append, List.length_singleton]
      exact getElem?_after hentries i
    have he : setups.entries[senders.length]? = some e := (hentries 0).symm
    have hcore := h.sendCore?_gives hcores n capacity tick hfits he hget hsnd
    rw [hset] at hcore
    have hgrown := run.grown_sending_sending n (snd.send capacity.toNat tick).2
      (sendAll capacity.toNat tick others).2
      (Grows.append_left Sender.Grown.refl (grows_sendAll capacity.toNat tick others)
        (senders ++ [(snd.send capacity.toNat tick).1]))
    rw [List.append_assoc _ _ (sendAll _ _ _).1, List.singleton_append] at hgrown
    rw [List.foldlM_cons, sendAll]
    refine hcore.grown hgrown fun state' h' hfits' => ?_
    have hrun := ih h' hfits' rfl hlater hrest
    rw [Run.sending_sending, List.append_assoc, List.singleton_append] at hrun
    exact hrun

end

/-! ## Records -/

namespace Run

variable {setups : List Setup} {run : Run}

theorem countsAt_record (h : run.Formed setups) (elapsed : Nat) (x : Setup × Nat) :
    run.CountsAt setups x.2 (run.record elapsed x) := by
  obtain ⟨hsenders, hreceivers, hsize⟩ := run.record_frame elapsed x
  refine ⟨⟨?_, ?_, hsize.trans h.recorded_size⟩, fun i => ?_, fun i hi => ?_⟩
  · rw [hsenders]
    exact h.sources
  · rw [hreceivers]
    exact h.sinks
  · rw [hsenders]
  · unfold whole?
    rw [hsenders, hreceivers, getElem?_record, if_neg (Ne.symm hi)]

end Run

namespace Represents

variable {setups : Table CoreId Setup} {state : SharedRun} {run : Run}

/-- A core records its row if its counters fit; otherwise there is no row to record. -/
theorem recordCore?_gives (h : Represents setups state run) {d : Nat} {e : CoreId × Setup}
    (he : setups.entries[d]? = some e) (hrouter : e.2.RouterFits) (tick : Nat) :
    Gives (SharedRun.recordCore? tick state e)
      (e.2.recordDue (tick + 1) = true → e.2.countersFit = true)
      (Represents setups · (run.record (tick + 1) (e.2, d))) := by
  unfold SharedRun.recordCore?
  by_cases hdue : e.2.recordDue (tick + 1) = true
  · rw [if_pos hdue]
    refine Gives.iff (h.count?_gives he (Run.countsAt_record h.formed (tick + 1) (e.2, d))
      (Run.random_record _ run _) fun c hc => ?_) (forall_prop_of_true hdue).symm
    have hs := Table.getElem?_values he
    obtain ⟨snd, r, recorded, hsnd, hr, hrecorded, -, -⟩ := h.formed.exists_halves hs
    obtain ⟨hsenders, hreceivers, -⟩ := run.record_frame (tick + 1) (e.2, d)
    rw [Run.whole?_eq hsnd hr hrecorded, Option.some_inj] at hc
    have hnumbers := c.record?_numbers e.2
    have hrow : c.numbers.row? e.2 = run.row? d e.2 := by
      rw [← hc, Run.row?_of_halves hsnd hr]
      rfl
    unfold Counters.record? at hnumbers
    rw [hrow] at hnumbers
    constructor
    · intro hfit
      obtain ⟨row, hrow, -⟩ := h.formed.exists_row hs hfit
      rw [hrow] at hnumbers
      obtain ⟨c', hc', hrecord⟩ := Option.map_eq_some_iff.1 hnumbers
      refine ⟨c', hc', ?_⟩
      have hadded : (run.record (tick + 1) (e.2, d)).recorded[d]? =
          some (recorded ++ row.toArray) := by
        rw [Run.getElem?_record, if_pos rfl, hrecorded]
        unfold Run.recording
        rw [if_pos hdue, hrow]
        rfl
      rw [Run.whole?_eq (hsenders ▸ hsnd) (hreceivers ▸ hr) hadded, hrecord, ← hc]
      rfl
    · intro hfit
      have hnone : run.row? d e.2 = none :=
        Option.eq_none_iff_forall_ne_some.2 fun row hrow =>
          hfit (h.formed.countersFit_of_row hs hrouter hrow)
      rw [hnone] at hnumbers
      exact Option.map_eq_none_iff.1 hnumbers
  · rw [if_neg hdue]
    have hsame : run.record (tick + 1) (e.2, d) = run := by
      unfold Run.record
      rw [if_neg hdue]
    rw [hsame]
    exact .done (fun hdue' => absurd hdue' hdue) h

/-- The cores record in their order. -/
theorem recordAll?_gives (h : Represents setups state run)
    (hrouter : ∀ e ∈ setups.entries, e.2.RouterFits) (tick : Nat) {rest : List (CoreId × Setup)}
    {d : Nat} (hentries : ∀ i : Nat, rest[i]? = setups.entries[d + i]?) :
    Gives (rest.foldlM (SharedRun.recordCore? tick) state)
      (∀ e ∈ rest, e.2.recordDue (tick + 1) = true → e.2.countersFit = true)
      (Represents setups ·
        (((rest.map (·.2)).zipIdx d).foldl (Run.record (tick + 1)) run)) := by
  induction rest generalizing state run d with
  | nil => exact .done (by simp) h
  | cons e rest ih =>
    have he : setups.entries[d]? = some e := (hentries 0).symm
    rw [List.foldlM_cons, List.map_cons, List.zipIdx_cons, List.foldl_cons]
    have hboth := (h.recordCore?_gives he (hrouter e (List.mem_of_getElem? he)) tick).bind
      fun _ state' h' => ih h' (getElem?_after hentries)
    exact hboth.iff (List.forall_mem_cons (p := fun e : CoreId × Setup =>
      e.2.recordDue (tick + 1) = true → e.2.countersFit = true)).symm

end Represents

/-! ## Runs -/

section
variable {setups : Table CoreId Setup} (hcores : ∀ e ∈ setups.entries, e.2.core = e.1)
  (hrouter : ∀ e ∈ setups.entries, e.2.RouterFits) (n : Network) (capacity : UInt32)

include hcores hrouter

theorem Represents.tick?_gives {state : SharedRun} {run : Run} (h : Represents setups state run)
    (hfits : run.fits = true)
    (hshape : run.senders.map Sender.shape = Run.shapes setups.values) (tick : Nat) :
    Gives (SharedRun.tick? n setups (Watching.ofSetups setups) capacity state tick)
      ((run.tick capacity.toNat n (recorders setups.values) tick).fits = true ∧
        ∀ e ∈ setups.entries, e.2.recordDue (tick + 1) = true → e.2.countersFit = true)
      (Represents setups · (run.tick capacity.toNat n (recorders setups.values) tick)) := by
  have hshape' : run.senders.map Sender.shape = setups.entries.map fun e =>
      (e.2.runTicks,
        e.2.sources.toList.map fun x => (x, watchers setups.values e.2.core x.key)) := by
    rw [hshape]
    unfold Run.shapes Table.values
    rw [List.map_map]
    rfl
  have hall : run.senders = [] ++ run.senders := rfl
  have hsend := sendAll?_gives hcores n capacity tick h hfits hall
    (fun i => by rw [List.length_nil, Nat.zero_add]) hshape'
  have htick : run.tick capacity.toNat n (recorders setups.values) tick =
      setups.values.zipIdx.foldl (Run.record (tick + 1))
        (run.sending n (sendAll capacity.toNat tick run.senders).1
          (sendAll capacity.toNat tick run.senders).2) :=
    Run.foldl_record_recorders (tick + 1) setups.values _
  have hfits' : (run.tick capacity.toNat n (recorders setups.values) tick).fits =
      (run.sending n (sendAll capacity.toNat tick run.senders).1
        (sendAll capacity.toNat tick run.senders).2).fits := by
    rw [htick]
    unfold Run.fits
    rw [(Run.foldl_record_frame _ _ _).1, (Run.foldl_record_frame _ _ _).2.1]
  rw [hfits', htick]
  exact hsend.bind fun _ state' h' => h'.recordAll?_gives hrouter tick
    fun i => by rw [Nat.zero_add]

omit hcores hrouter in
/-- At the start all counts are zero. -/
theorem represents_ofSetups (seed : UInt64) :
    Represents setups (.ofSetups seed setups) (.ofSetups seed setups.values) := by
  refine ⟨Run.formed_ofSetups seed setups.values, rfl, fun d e he => ?_, fun core => ?_,
    fun d e he => ?_⟩
  · show (setups.map fun _ s => Random.ofSeed s.seed.toUInt64).get? e.1 =
      (setups.values.map (Sender.ofSetup setups.values))[d]?.map _
    rw [Table.get?_map, Table.get?_of_getElem? he, List.getElem?_map, Table.getElem?_values he]
    rfl
  · show core ∈ (setups.map fun _ s => WordCounters.ofSetup s).keys ↔ _
    rw [Table.keys_map]
  · show ((setups.map fun _ s => WordCounters.ofSetup s).get? e.1).map _ = _
    rw [Table.get?_map, Table.get?_of_getElem? he]
    refine Eq.trans (congrArg some (WordCounters.numbers_ofSetup setups.values e.2))
      (Run.whole?_eq ?_ ?_ ?_).symm
    · show (setups.values.map (Sender.ofSetup setups.values))[d]? = _
      rw [List.getElem?_map, Table.getElem?_values he]
      rfl
    · show (setups.values.map Receiver.ofSetup).toArray[d]? = _
      rw [List.getElem?_toArray, List.getElem?_map, Table.getElem?_values he]
      rfl
    · show (Array.replicate setups.values.length #[])[d]? = _
      rw [Array.getElem?_replicate,
        if_pos (List.getElem?_eq_some_iff.1 (Table.getElem?_values he)).1]

/-- A run up to a tick succeeds if it fits and no core has had to record counters that do not. -/
theorem ticks?_gives (seed : UInt64) (t : Nat) :
    Gives ((List.range t).foldlM (SharedRun.tick? n setups (Watching.ofSetups setups) capacity)
        (.ofSetups seed setups))
      ((Run.after capacity.toNat n seed setups.values (recorders setups.values) t).fits = true ∧
        ∀ e ∈ setups.entries, ∀ u < t, e.2.recordDue (u + 1) = true → e.2.countersFit = true)
      (Represents setups ·
        (Run.after capacity.toNat n seed setups.values (recorders setups.values) t)) := by
  induction t with
  | zero =>
    exact .done ⟨Run.fits_ofSetups seed _, fun _ _ u hu => absurd hu (Nat.not_lt_zero u)⟩
      (represents_ofSetups seed)
  | succ t ih =>
    have hshape := Run.shape_after capacity.toNat n seed setups.values (recorders setups.values) t
    have hgrown := Run.grown_tick capacity.toNat n (recorders setups.values) t
      (Run.after capacity.toNat n seed setups.values (recorders setups.values) t)
    rw [List.range_succ, List.foldlM_append]
    simp only [List.foldlM_cons, List.foldlM_nil, bind_pure]
    refine (ih.bind fun hok state h =>
      h.tick?_gives hcores hrouter n capacity hok.1 hshape t).iff ?_
    constructor
    · rintro ⟨⟨-, hbefore⟩, hfits, hnow⟩
      refine ⟨hfits, fun e he u hu => ?_⟩
      rcases Nat.lt_succ_iff_lt_or_eq.1 hu with hu | rfl
      · exact hbefore e he u hu
      · exact hnow e he
    · rintro ⟨hfits, hall⟩
      exact ⟨⟨hgrown.fits hfits, fun e he u hu => hall e he u (Nat.lt_succ_of_lt hu)⟩, hfits,
        fun e he => hall e he t (Nat.lt_succ_self t)⟩

omit hcores hrouter in
/-- A run breaks if some core has to record counters that do not fit, and only then. -/
theorem breaks_eq_false_iff : Machine.breaks setups.values = false ↔
    ∀ e ∈ setups.entries, ∀ u < longestRun setups.values,
      e.2.recordDue (u + 1) = true → e.2.countersFit = true := by
  have hearly : ∀ s ∈ setups.values, s.recordsEarly = true ↔
      ∃ u < longestRun setups.values, s.recordDue (u + 1) = true := by
    intro s hs
    have hrun := le_longestRun hs
    unfold Setup.recordsEarly Setup.recordDue
    simp only [Bool.and_eq_true, decide_eq_true_eq, bne_iff_ne, beq_iff_eq]
    constructor
    · rintro ⟨hne, hlt⟩
      have hpos : 0 < s.recordInterval.toNat :=
        Nat.pos_of_ne_zero fun hzero => hne (UInt32.toNat_inj.1 hzero)
      refine ⟨s.recordInterval.toNat - 1, by omega, ⟨hne, by omega⟩, ?_⟩
      rw [Nat.sub_add_cancel hpos, Nat.mod_self]
    · rintro ⟨u, -, ⟨hne, hlt⟩, hmod⟩
      have hle := Nat.le_of_dvd (Nat.succ_pos u) (Nat.dvd_of_mod_eq_zero hmod)
      exact ⟨hne, Nat.lt_of_le_of_lt hle hlt⟩
  unfold Machine.breaks
  rw [List.any_eq_false]
  constructor
  · intro h e he u hu hdue
    have hs : e.2 ∈ setups.values := List.mem_map.2 ⟨e, he, rfl⟩
    by_contra hfit
    exact h e.2 hs (by simp [(hearly e.2 hs).2 ⟨u, hu, hdue⟩, Bool.eq_false_iff.2 hfit])
  · intro h s hs hbreaks
    obtain ⟨e, he, rfl⟩ := List.mem_map.1 hs
    rw [Bool.and_eq_true, Bool.not_eq_true'] at hbreaks
    obtain ⟨u, hu, hdue⟩ := (hearly e.2 hs).1 hbreaks.1
    rw [h e he u hu hdue] at hbreaks
    exact absurd hbreaks.2 (by simp)

omit hcores hrouter in
/-- The shared counters, as the counters that the run gives back. -/
theorem Represents.map_counters {state : SharedRun} {run : Run}
    (h : Represents setups state run) :
    state.counters.map (fun _ c => c.numbers) = .ofList (setups.keys.zip run.counters) := by
  refine Table.ext_get? fun core => Option.ext fun k => ?_
  have hnodup := setups.keys_nodup.sublist (map_fst_zip_sublist setups.keys run.counters)
  have hplace : ∀ d : Nat, setups.keys[d]? = some core →
      (state.counters.get? core).map (·.numbers) = run.counters[d]? := by
    intro d hd
    obtain ⟨e, he, rfl⟩ := Option.map_eq_some_iff.1 (List.getElem?_map ▸ hd)
    rw [run.getElem?_counters, h.counters d e he]
  rw [Table.get?_map, Table.get?_ofList hnodup]
  constructor
  · intro hk
    obtain ⟨c, hc, -⟩ := Option.map_eq_some_iff.1 hk
    obtain ⟨d, hd⟩ := List.getElem?_of_mem ((h.keys core).1 (Table.mem_keys.2 ⟨c, hc⟩))
    rw [hplace d hd] at hk
    exact List.mem_of_getElem? (List.getElem?_zip_eq_some.2 ⟨hd, hk⟩)
  · intro hk
    obtain ⟨d, hk⟩ := List.getElem?_of_mem hk
    obtain ⟨hd, hk⟩ := List.getElem?_zip_eq_some.1 hk
    exact (hplace d hd).trans hk

/-- A run on shared counters gives the counters of the run if this does not break and stays within
its words, and otherwise nothing. -/
theorem simulate?_gives (seed : UInt64) :
    Gives (SharedRun.simulate? capacity n seed setups)
      (Machine.breaks setups.values = false ∧
        (Run.final capacity.toNat n seed setups.values).fits = true)
      fun counters => counters.map (fun _ c => c.numbers) =
        .ofList (setups.keys.zip (Run.final capacity.toNat n seed setups.values).counters) := by
  rw [breaks_eq_false_iff, and_comm, Run.final_eq]
  exact (ticks?_gives hcores hrouter n capacity seed (longestRun setups.values)).bind_pure
    fun state h => h.map_counters

end

/-! ## Machines -/

namespace Machine

/-- The cores of a machine have played what they are loaded with. -/
def Played (m : Machine) : Prop :=
  ∀ core s, m.loaded.get? core = some s → ∃ bytes, Setup.play core bytes = .ok s

theorem played_new (config : MachineConfig) : (new config).Played :=
  fun _ _ h => nomatch h

/-- A core is loaded with what it plays. -/
theorem Played.load {m : Machine} (h : m.Played) (core : CoreId) (bytes : List UInt8) :
    (m.load core bytes).2.Played := by
  unfold Machine.load
  split
  · exact h
  dsimp only
  split
  · split
    · exact h
    · next s hplay =>
      intro d t ht
      by_cases hd : d = core
      · subst hd
        rw [Table.get?_insert_self] at ht
        exact ⟨bytes, Option.some_inj.1 ht ▸ hplay⟩
      · rw [Table.get?_insert_of_ne _ hd] at ht
        exact h d t ht
  · exact h

/-- What is loaded stays as it is when cores run. -/
theorem Played.start {m : Machine} (h : m.Played) (cores : List CoreId) :
    (m.start cores).2.Played := by
  unfold Machine.start
  split
  · exact h
  split
  · exact h
  dsimp only
  split <;> exact h

/-- The setups of cores that run together are those that they are loaded with. -/
theorem loaded_of_setups {m : Machine} {cores : List CoreId} {setups : Table CoreId Setup}
    (h : m.setups cores = .ok setups) :
    ∀ e ∈ setups.entries, m.loaded.get? e.1 = some e.2 := by
  refine Checked.foldlM_inv (fun found => ∀ e ∈ found.entries, m.loaded.get? e.1 = some e.2)
    (fun found core next hnext hfound e he => ?_) h fun e he => nomatch he
  split at hnext
  · next s hs =>
    cases hnext
    rcases Table.mem_insertEntry he with rfl | he
    · exact hs
    · exact hfound e he
  · cases hnext

/-- A machine runs cores as they run on shared counters: it keeps the counters of their run, or
breaks where this stops. -/
theorem start_eq_simulate? {m : Machine} (hplayed : m.Played) (cores : List CoreId) :
    m.start cores =
      if m.broken then (.error refusal, m)
      else
        match m.setups cores with
        | .error core => (.error (.rejected core "no program loaded"), m)
        | .ok setups =>
          match SharedRun.simulate? m.config.capacity m.config.network m.config.seed setups with
          | none => (.crash, { m with broken := true })
          | some counters =>
            (.value (), { m with
              counters := m.counters.override (counters.map fun _ c => c.numbers) }) := by
  unfold start
  split
  · rfl
  cases hsetups : m.setups cores with
  | error core => rfl
  | ok setups =>
    have hloaded := loaded_of_setups hsetups
    have hcores : ∀ e ∈ setups.entries, e.2.core = e.1 := by
      intro e he
      obtain ⟨bytes, hplay⟩ := hplayed e.1 e.2 (hloaded e he)
      exact Setup.core_of_play hplay
    have hrouter : ∀ e ∈ setups.entries, e.2.RouterFits := by
      intro e he
      obtain ⟨bytes, hplay⟩ := hplayed e.1 e.2 (hloaded e he)
      exact Setup.routerFits_of_play hplay
    have hrun := simulate?_gives hcores hrouter m.config.network m.config.capacity m.config.seed
    dsimp only
    split
    · next hstop =>
      rw [hrun.stops fun hok => by simp [hok.1, hok.2] at hstop]
    · next hgo =>
      have hok : breaks setups.values = false ∧
          (Run.final m.config.capacity.toNat m.config.network m.config.seed
            setups.values).fits = true := by
        simpa using hgo
      obtain ⟨counters, hcounters, hnumbers⟩ := hrun.gives hok
      rw [hcounters]
      dsimp only
      rw [hnumbers]

end Machine

end TrafficLab
