import Mathlib.Data.List.Forall2
import TrafficLab.Proofs.Chip.Fitting
import TrafficLab.Proofs.Chip.WordCounters
import TrafficLab.Proofs.Table

/-!
# Shared counters

A run can be made on counters that all cores share.  Each core has its counters of words and its
random words in a table; a source that sends a packet counts it in its own core's counters, and the
packet is counted at once in those of each core that it reaches.  The first count that leaves its
word, and the first record of a counter that is not there, end the run without a result.

At every step the counters of a core are those of its two halves (`Represents`), and the step
succeeds exactly as long as these stay within their words.

    the sinks found for a key and a core = the watchers           (Watching.reaches)
    a packet reaches one sink, or all its sinks                   (deliver?_gives, deliverTo?_gives)
    a source is due when it is due in its sender                  (isDue_eq)
    a source is blocked, or sends a packet                        (countBlocked?_gives, send?_gives)
-/

namespace TrafficLab

open Checked

instance : Keyed (CoreId × UInt32) where
  rank x := x.1.val.toNat * UInt32.size + x.2.toNat
  rank_inj {x y} h := by
    obtain ⟨⟨a⟩, i⟩ := x
    obtain ⟨⟨b⟩, j⟩ := y
    have hi := i.toNat_lt
    have hj := j.toNat_lt
    have hsize : UInt32.size = 4294967296 := rfl
    simp only [hsize] at h
    rw [UInt32.toNat_inj.1 (by omega : a.toNat = b.toNat),
      UInt32.toNat_inj.1 (by omega : i.toNat = j.toNat)]

/-! ## Algorithm -/

/-- The sinks that watch a key of a core, by their cores and numbers. -/
abbrev Watching := Table (CoreId × UInt32) (List (CoreId × Nat))

namespace Watching

def watch (core : CoreId) (watching : Watching) (sink : SinkSetup × Nat) : Watching :=
  let watched := (sink.1.source, sink.1.key)
  watching.insert watched ((watching.get? watched).getD [] ++ [(core, sink.2)])

def ofSetups (setups : Table CoreId Setup) : Watching :=
  setups.entries.foldl (fun watching e => e.2.sinks.toList.zipIdx.foldl (watch e.1) watching) .empty

end Watching

structure SharedRun where
  counters : Table CoreId WordCounters
  /-- The random words of the cores. -/
  randoms : Table CoreId Random
  /-- The random words of the network. -/
  network : Random

namespace SharedRun

def ofSetups (seed : UInt64) (setups : Table CoreId Setup) : SharedRun where
  counters := setups.map fun _ s => .ofSetup s
  randoms := setups.map fun _ s => .ofSeed s.seed.toUInt64
  network := .ofSeed seed

/-- Counts something in the counters of a core. -/
def count? (state : SharedRun) (core : CoreId) (f : WordCounters → Option WordCounters) :
    Option SharedRun :=
  match state.counters.get? core with
  | none => some state
  | some c => do some { state with counters := state.counters.insert core (← f c) }

/-- A random word of a core. -/
def draw (state : SharedRun) (core : CoreId) : UInt32 × SharedRun :=
  match state.randoms.get? core with
  | none => (0, state)
  | some r => (r.next.1, { state with randoms := state.randoms.insert core r.next.2 })

/-- Whether a source of a core wants to send in a tick. -/
def isDue (state : SharedRun) (tick : Nat) (core : CoreId) (src : SourceSetup) :
    Bool × SharedRun :=
  if src.isActive tick then
    match src.emission with
    | .idle => (false, state)
    | .every ticks => ((tick - src.start.toNat) % ticks.toNat == 0, state)
    | .bernoulli threshold =>
      let (w, state) := state.draw core
      (threshold == 0xFFFFFFFF || w < threshold, state)
  else (false, state)

section
variable (n : Network) (setups : Table CoreId Setup) (watching : Watching) (capacity : UInt32)
  (tick : Nat)

/-- Takes a packet of a core to one sink. -/
def deliver? (core : CoreId) (payload : Bool) (state : SharedRun) (dst : CoreId × Nat) :
    Option SharedRun := do
  let (lost, network) := n.loss.draw state.network
  let setup ← setups.get? dst.1
  match state.counters.get? dst.1 with
  | none => some { state with network }
  | some c =>
    if lost || !setup.consume then
      some { state with network, counters := state.counters.insert dst.1 (← c.drop?) }
    else
      let (c, network) ← c.take? n dst.2 (dst.1 == core) payload network
      some { state with network, counters := state.counters.insert dst.1 c }

/-- Sends a packet of the source with a number, and takes it to all its sinks. -/
def send? (core : CoreId) (i : Nat) (src : SourceSetup) (state : SharedRun) : Option SharedRun := do
  let state ← state.count? core (·.countSent? i)
  match watching.get? (core, src.key) with
  | none => some state
  | some dsts => dsts.foldlM (deliver? n setups core src.payload) state

/-- Lets sources of a core send, from the `i`-th on, after so many others have sent. -/
def sendSources? (core : CoreId) (i : Nat) (emitted : UInt32) :
    List SourceSetup → SharedRun → Option SharedRun
  | [], state => some state
  | src :: rest, state =>
    let (due, state) := state.isDue tick core src
    if due then
      if emitted < capacity then do
        sendSources? core (i + 1) (emitted + 1) rest (← send? n setups watching core i src state)
      else do
        sendSources? core (i + 1) emitted rest (← state.count? core (·.countBlocked? i))
    else sendSources? core (i + 1) emitted rest state

/-- Lets a core send, if its own run is not over. -/
def sendCore? (state : SharedRun) (e : CoreId × Setup) : Option SharedRun :=
  if tick < e.2.runTicks then
    sendSources? n setups watching capacity tick e.1 0 0 e.2.sources.toList state
  else some state

/-- Lets a core record its counters, if it is due. -/
def recordCore? (state : SharedRun) (e : CoreId × Setup) : Option SharedRun :=
  if e.2.recordDue (tick + 1) then state.count? e.1 (·.record? e.2) else some state

def tick? (state : SharedRun) (tick : Nat) : Option SharedRun := do
  let state ← setups.entries.foldlM (sendCore? n setups watching capacity tick) state
  setups.entries.foldlM (recordCore? tick) state

end

/-- The counters of all cores at the end of a run. -/
def simulate? (capacity : UInt32) (n : Network) (seed : UInt64) (setups : Table CoreId Setup) :
    Option (Table CoreId WordCounters) := do
  let watching := Watching.ofSetups setups
  let state ← (List.range (longestRun setups.values)).foldlM (tick? n setups watching capacity)
    (ofSetups seed setups)
  some state.counters

end SharedRun

/-! ## Watchers -/

/-- A sink that a packet of a core goes to is the sink of a watcher. -/
def Reaches (setups : Table CoreId Setup) (core : CoreId) (dst : CoreId × Nat) (w : Watcher) :
    Prop :=
  ∃ s, setups.entries[w.core]? = some (dst.1, s) ∧ dst.2 = w.sink ∧ w.sink < s.sinks.size ∧
    w.consume = s.consume ∧ w.isLocal = (dst.1 == core)

namespace Watching

/-- The sinks of a core that watch a key of a core. -/
def sinksOf (watched : CoreId × UInt32) (e : CoreId × Setup) : List (CoreId × Nat) :=
  e.2.sinks.toList.zipIdx.filterMap fun sink =>
    if (sink.1.source, sink.1.key) = watched then some (e.1, sink.2) else none

theorem get?_foldl_watch (watched : CoreId × UInt32) (core : CoreId)
    (sinks : List (SinkSetup × Nat)) (watching : Watching) :
    ((sinks.foldl (watch core) watching).get? watched).getD [] =
      (watching.get? watched).getD [] ++ sinks.filterMap fun sink =>
        if (sink.1.source, sink.1.key) = watched then some (core, sink.2) else none := by
  induction sinks generalizing watching with
  | nil => simp
  | cons sink rest ih =>
    rw [List.foldl_cons, ih]
    unfold watch
    by_cases h : (sink.1.source, sink.1.key) = watched
    · simp [h]
    · rw [Table.get?_insert_of_ne _ (Ne.symm h), List.filterMap_cons_none (by rw [if_neg h])]

theorem get?_ofSetups (setups : Table CoreId Setup) (watched : CoreId × UInt32) :
    ((ofSetups setups).get? watched).getD [] = setups.entries.flatMap (sinksOf watched) := by
  have hfold : ∀ (entries : List (CoreId × Setup)) (watching : Watching),
      ((entries.foldl (fun watching e => e.2.sinks.toList.zipIdx.foldl (watch e.1) watching)
        watching).get? watched).getD [] =
      (watching.get? watched).getD [] ++ entries.flatMap (sinksOf watched) := by
    intro entries
    induction entries with
    | nil => simp
    | cons e rest ih =>
      intro watching
      rw [List.foldl_cons, ih, get?_foldl_watch, List.flatMap_cons, List.append_assoc]
      rfl
  exact hfold setups.entries .empty

/-- The sinks that are found for a key of a core are those of its watchers. -/
theorem reaches {setups : Table CoreId Setup} (hcores : ∀ e ∈ setups.entries, e.2.core = e.1)
    (core : CoreId) (key : UInt32) :
    List.Forall₂ (Reaches setups core) (((ofSetups setups).get? (core, key)).getD [])
      (watchers setups.values core key) := by
  have hplaces : List.Forall₂ (fun e (x : Setup × Nat) => setups.entries[x.2]? = some e ∧ x.1 = e.2)
      setups.entries setups.values.zipIdx := by
    refine List.forall₂_iff_get.2 ⟨by simp [Table.values], fun i hi hi' => ?_⟩
    simp [Table.values]
  rw [get?_ofSetups]
  unfold watchers
  refine List.rel_flatMap hplaces fun e x hx => ?_
  obtain ⟨he, hs⟩ := hx
  obtain ⟨s, d⟩ := x
  obtain rfl : s = e.2 := hs
  have hsinks : List.Forall₂ (fun (sink x : SinkSetup × Nat) => x = sink ∧ sink.2 < e.2.sinks.size)
      e.2.sinks.toList.zipIdx e.2.sinks.toList.zipIdx := by
    refine List.forall₂_same.2 fun sink hsink => ⟨rfl, ?_⟩
    have hlt := List.snd_lt_of_mem_zipIdx hsink
    simpa using hlt
  refine List.rel_filterMap ?_ hsinks
  rintro _ sink ⟨rfl, hlt⟩
  by_cases h : sink.1.source = core ∧ sink.1.key = key
  · simp only [h, and_self, if_true]
    refine .some ⟨e.2, he, rfl, hlt, rfl, ?_⟩
    rw [hcores e (List.mem_of_getElem? he)]
  · simp only [Prod.mk.injEq, h, if_false]
    exact .none

end Watching

/-! ## Steps of a run -/

namespace Run

/-- The counters of a core with all that it has recorded. -/
def whole? (run : Run) (d : Nat) : Option Counters := do
  some (.ofHalves (← run.senders[d]?) (← run.receivers[d]?) (← run.recorded[d]?))

/-- The run when senders have sent some packets and these have reached their sinks. -/
def sending (run : Run) (n : Network) (senders : List Sender) (packets : List Packet) : Run :=
  { run with
    senders
    receivers := (n.deliverAll (run.receivers, run.random) packets).1
    random := (n.deliverAll (run.receivers, run.random) packets).2 }

/-- The run with another sender at a position. -/
def putSender (run : Run) (d : Nat) (snd : Sender) : Run :=
  { run with senders := run.senders.set d snd }

/-- The run when a receiver has changed. -/
def receiving (run : Run) (d : Nat) (f : Receiver → Receiver) (random : Random) : Run :=
  { run with receivers := run.receivers.modify d f, random }

variable {setups : List Setup} {run run' : Run} {n : Network}

theorem whole?_eq {d : Nat} {snd : Sender} {r : Receiver} {recorded : Array Nat}
    (hsnd : run.senders[d]? = some snd) (hr : run.receivers[d]? = some r)
    (hrecorded : run.recorded[d]? = some recorded) :
    run.whole? d = some (.ofHalves snd r recorded) := by
  unfold whole?
  rw [hsnd, hr, hrecorded]
  rfl

theorem getElem?_counters (run : Run) (d : Nat) : run.counters[d]? = run.whole? d := by
  unfold counters whole?
  rw [List.getElem?_map, List.zip, List.getElem?_zipWith, List.zip, List.getElem?_zipWith,
    Array.getElem?_toList, Array.getElem?_toList]
  cases run.senders[d]? with
  | none => rfl
  | some snd =>
    cases run.receivers[d]? with
    | none => rfl
    | some r => cases run.recorded[d]? <;> rfl

/-- A step in which one core counts something, and no random word of a core is drawn. -/
structure CountsAt (setups : List Setup) (d : Nat) (run run' : Run) : Prop where
  formed : run'.Formed setups
  randoms : ∀ i : Nat, run'.senders[i]?.map (·.random) = run.senders[i]?.map (·.random)
  others : ∀ i, i ≠ d → run'.whole? i = run.whole? i

theorem sending_sending (senders senders' : List Sender) (packets packets' : List Packet) :
    (run.sending n senders packets).sending n senders' packets' =
      run.sending n senders' (packets ++ packets') := by
  unfold sending Network.deliverAll
  rw [List.foldl_append]

theorem grown_sending {senders : List Sender}
    (h : Grows Sender.Grown (run.senders[·]?) (senders[·]?)) (packets : List Packet) :
    run.Grown (run.sending n senders packets) :=
  ⟨h, n.grows_deliverAll packets (run.receivers, run.random)⟩

theorem grown_sending_sending (run : Run) (n : Network) {senders senders' : List Sender}
    (packets packets' : List Packet) (h : Grows Sender.Grown (senders[·]?) (senders'[·]?)) :
    (run.sending n senders packets).Grown (run.sending n senders' (packets ++ packets')) := by
  rw [← sending_sending senders]
  exact grown_sending h packets'

theorem Formed.putSender (h : run.Formed setups) {d : Nat} {snd snd' : Sender}
    (hsnd : run.senders[d]? = some snd) (hsources : snd'.sources.length = snd.sources.length) :
    (run.putSender d snd').Formed setups := by
  refine ⟨?_, h.sinks, h.recorded_size⟩
  rw [← h.sources]
  refine List.ext_getElem? fun i => ?_
  show ((run.senders.set d snd').map _)[i]? = _
  rw [List.getElem?_map, List.getElem?_map, List.getElem?_set]
  split
  · next hi =>
    subst hi
    rw [if_pos (List.getElem?_eq_some_iff.1 hsnd).1, hsnd]
    exact congrArg some hsources
  · rfl

theorem putSender_same {d : Nat} {snd : Sender} (h : run.senders[d]? = some snd) :
    run.putSender d snd = run := by
  obtain ⟨hlt, rfl⟩ := List.getElem?_eq_some_iff.1 h
  unfold putSender
  rw [List.set_getElem_self]

theorem getElem?_putSender {d : Nat} {snd : Sender} (h : run.senders[d]? = some snd)
    (snd' : Sender) : (run.putSender d snd').senders[d]? = some snd' :=
  List.getElem?_set_self (List.getElem?_eq_some_iff.1 h).1

theorem getElem?_sending {d : Nat} {snd : Sender} (h : run.senders[d]? = some snd)
    (snd' : Sender) (packets : List Packet) :
    (run.sending n (run.senders.set d snd') packets).senders[d]? = some snd' :=
  getElem?_putSender h snd'

theorem whole?_putSender_of_ne {i d : Nat} (h : i ≠ d) (snd : Sender) :
    (run.putSender d snd).whole? i = run.whole? i := by
  unfold whole? putSender
  rw [List.getElem?_set_ne (Ne.symm h)]

theorem countsAt_putSender (h : run.Formed setups) {d : Nat} {snd : Sender} (snd' : Sender)
    (hsnd : run.senders[d]? = some snd) (hrandom : snd'.random = snd.random)
    (hsources : snd'.sources.length = snd.sources.length) :
    run.CountsAt setups d (run.putSender d snd') := by
  refine ⟨h.putSender hsnd hsources, fun i => ?_, fun i hi => ?_⟩
  · show (run.senders.set d snd')[i]?.map _ = _
    rw [List.getElem?_set]
    split
    · next hi =>
      subst hi
      rw [if_pos (List.getElem?_eq_some_iff.1 hsnd).1, hsnd]
      exact congrArg some hrandom
    · rfl
  · exact whole?_putSender_of_ne hi snd'

theorem countsAt_receiving (h : run.Formed setups) (d : Nat) {f : Receiver → Receiver}
    (hf : ∀ r, (f r).sinks.size = r.sinks.size) (random : Random) :
    run.CountsAt setups d (run.receiving d f random) := by
  refine ⟨⟨h.sources, ?_, h.recorded_size⟩, fun i => rfl, fun i hi => ?_⟩
  · rw [← h.sinks]
    exact map_size_modify hf d
  · unfold whole? receiving
    rw [Array.getElem?_modify, if_neg (Ne.symm hi)]

theorem fits_putSender_iff (h : run.fits = true) {d : Nat} {snd : Sender}
    (hsnd : run.senders[d]? = some snd) (snd' : Sender) :
    (run.putSender d snd').fits = true ↔ snd'.sources.all (·.fits) = true := by
  unfold fits at h ⊢
  rw [Bool.and_eq_true] at h ⊢
  show (run.senders.set d snd').all _ = true ∧ run.receivers.toList.all _ = true ↔ _
  rw [and_iff_left h.2]
  constructor
  · intro hall
    refine List.all_eq_true.1 hall snd' (List.mem_of_getElem? (i := d) ?_)
    rw [List.getElem?_set_self (List.getElem?_eq_some_iff.1 hsnd).1]
  · intro hfits
    refine List.all_eq_true.2 fun s hs => ?_
    rcases List.mem_or_eq_of_mem_set hs with hs | rfl
    · exact List.all_eq_true.1 h.1 s hs
    · exact hfits

/-- A core that only draws random words leaves no word of its counters. -/
theorem fits_putSender_same (h : run.fits = true) {d : Nat} {snd snd' : Sender}
    (hsnd : run.senders[d]? = some snd) (hsources : snd'.sources = snd.sources) :
    (run.putSender d snd').fits = true := by
  rw [fits_putSender_iff h hsnd, hsources, ← fits_putSender_iff h hsnd snd, putSender_same hsnd]
  exact h

theorem fits_receiving_iff (h : run.fits = true) {d : Nat} {r : Receiver}
    (hr : run.receivers[d]? = some r) (f : Receiver → Receiver) (random : Random) :
    (run.receiving d f random).fits = true ↔ (f r).fits = true := by
  unfold fits at h ⊢
  rw [Bool.and_eq_true] at h ⊢
  show run.senders.all _ = true ∧ (run.receivers.modify d f).toList.all _ = true ↔ _
  rw [and_iff_right h.1]
  simp only [List.all_eq_true, Array.mem_toList_iff] at h ⊢
  exact forall_mem_modify_iff h.2 hr

end Run

/-! ## What shared counters stand for -/

/-- The shared counters are those of the halves of a run, and the random words are the run's. -/
structure Represents (setups : Table CoreId Setup) (state : SharedRun) (run : Run) : Prop where
  formed : run.Formed setups.values
  network : state.network = run.random
  randoms : ∀ (d : Nat) e, setups.entries[d]? = some e →
    state.randoms.get? e.1 = run.senders[d]?.map (·.random)
  keys : ∀ core, core ∈ state.counters.keys ↔ core ∈ setups.keys
  counters : ∀ (d : Nat) e, setups.entries[d]? = some e →
    (state.counters.get? e.1).map (·.numbers) = run.whole? d

namespace Represents

variable {setups : Table CoreId Setup} {state : SharedRun} {run run' : Run}
  (h : Represents setups state run) {d : Nat} {e : CoreId × Setup}
  (he : setups.entries[d]? = some e)

include h he

/-- The counters of a core, and its halves. -/
theorem exists_counters : ∃ snd r recorded c, run.senders[d]? = some snd ∧
    run.receivers[d]? = some r ∧ run.recorded[d]? = some recorded ∧
    r.sinks.size = e.2.sinks.size ∧ state.counters.get? e.1 = some c ∧
    c.numbers = .ofHalves snd r recorded := by
  obtain ⟨snd, r, recorded, hsnd, hr, hrecorded, -, hsinks⟩ :=
    h.formed.exists_halves (Table.getElem?_values he)
  have hc := h.counters d e he
  rw [Run.whole?_eq hsnd hr hrecorded] at hc
  obtain ⟨c, hc, hnumbers⟩ := Option.map_eq_some_iff.1 hc
  exact ⟨snd, r, recorded, c, hsnd, hr, hrecorded, hsinks, hc, hnumbers⟩

/-- What one core has counted is put into its own counters. -/
theorem insert (hcounts : run.CountsAt setups.values d run') {c : WordCounters}
    (hc : run'.whole? d = some c.numbers) :
    Represents setups { state with
      network := run'.random
      counters := state.counters.insert e.1 c } run' := by
  refine ⟨hcounts.formed, rfl, fun i e' he' => ?_, fun core => ?_, fun i e' he' => ?_⟩
  · rw [hcounts.randoms i]
    exact h.randoms i e' he'
  · rw [Table.mem_keys_insert, h.keys core]
    refine or_iff_right_of_imp fun hcore => ?_
    rw [hcore]
    exact Table.mem_keys.2 ⟨e.2, Table.get?_of_getElem? he⟩
  · by_cases hi : i = d
    · subst hi
      obtain rfl := Option.some_inj.1 (he.symm.trans he')
      rw [Table.get?_insert_self, hc]
      rfl
    · rw [Table.get?_insert_of_ne _ (Table.key_ne he he' hi), hcounts.others i hi]
      exact h.counters i e' he'

theorem count?_gives (hcounts : run.CountsAt setups.values d run')
    (hrandom : run'.random = run.random) {f : WordCounters → Option WordCounters} {ok : Prop}
    (hf : ∀ c, run.whole? d = some c.numbers →
      Gives (f c) ok fun c' => run'.whole? d = some c'.numbers) :
    Gives (state.count? e.1 f) ok (Represents setups · run') := by
  obtain ⟨snd, r, recorded, c, hsnd, hr, hrecorded, -, hc, hnumbers⟩ := h.exists_counters he
  have hwhole := Run.whole?_eq hsnd hr hrecorded
  rw [← hnumbers] at hwhole
  unfold SharedRun.count?
  rw [hc]
  refine (hf c hwhole).bind_pure fun c' hc' => ?_
  have hinsert := h.insert he hcounts hc'
  rwa [hrandom, ← h.network] at hinsert

end Represents

/-! ## Deliveries -/

theorem Network.deliver_eq (n : Network) (payload : Bool) (receivers : Array Receiver)
    (random : Random) (w : Watcher) : n.deliver payload (receivers, random) w =
      if (n.loss.draw random).1 || !w.consume then
        (receivers.modify w.core (·.drop), (n.loss.draw random).2)
      else
        (receivers.modify w.core (·.take w (n.time payload (n.loss.draw random).2).1),
          (n.time payload (n.loss.draw random).2).2) := by
  unfold Network.deliver Network.time
  cases payload <;> rfl

namespace Represents

variable {setups : Table CoreId Setup} {state : SharedRun} {run : Run}

/-- A packet that is taken to a sink is counted there. -/
theorem deliver?_gives (h : Represents setups state run) (hfits : run.fits = true) {core : CoreId}
    {dst : CoreId × Nat} {w : Watcher} (hreaches : Reaches setups core dst w) (n : Network)
    (payload : Bool) :
    Gives (SharedRun.deliver? n setups core payload state dst)
      ((run.sending n run.senders [⟨payload, [w]⟩]).fits = true)
      (Represents setups · (run.sending n run.senders [⟨payload, [w]⟩])) := by
  obtain ⟨s, he, hsink, hlt, hconsume, hlocal⟩ := hreaches
  obtain ⟨snd, r, recorded, c, hsnd, hr, hrecorded, hsize, hc, hnumbers⟩ := h.exists_counters he
  have hrfits : r.fits = true := by
    unfold Run.fits at hfits
    rw [Bool.and_eq_true] at hfits
    exact List.all_eq_true.1 hfits.2 r (Array.mem_toList_iff.2 (Array.mem_of_getElem? hr))
  have hwhole : ∀ f random, (run.receiving w.core f random).whole? w.core =
      some (.ofHalves snd (f r) recorded) := by
    intro f random
    refine Run.whole?_eq hsnd ?_ hrecorded
    show (run.receivers.modify w.core f)[w.core]? = _
    rw [Array.getElem?_modify, if_pos rfl, hr]
    rfl
  have hstep : run.sending n run.senders [⟨payload, [w]⟩] =
      if (n.loss.draw state.network).1 || !s.consume then
        run.receiving w.core (·.drop) (n.loss.draw state.network).2
      else
        run.receiving w.core (·.take w (n.time payload (n.loss.draw state.network).2).1)
          (n.time payload (n.loss.draw state.network).2).2 := by
    unfold Run.sending Network.deliverAll
    simp only [List.foldl_cons, List.foldl_nil, n.deliver_eq, h.network, hconsume]
    split <;> rfl
  rw [hstep]
  unfold SharedRun.deliver?
  rw [Table.get?_of_getElem? he]
  simp only [Option.bind_eq_bind, Option.bind_some, hc]
  split
  · -- the packet is lost, or the core does not take it
    have hcounts := Run.countsAt_receiving h.formed w.core (f := (·.drop)) (fun r => rfl)
      (n.loss.draw state.network).2
    refine ((WordCounters.drop?_gives hnumbers hrfits).iff
      (Run.fits_receiving_iff hfits hr _ _).symm).bind_pure fun c' hc' => ?_
    exact h.insert he hcounts ((hwhole _ _).trans (congrArg some hc'.symm))
  · have ht : r.sinks[w.sink]? = some r.sinks[w.sink] := Array.getElem?_eq_getElem (hsize ▸ hlt)
    have hcounts := Run.countsAt_receiving h.formed w.core
      (f := (·.take w (n.time payload (n.loss.draw state.network).2).1))
      (Receiver.size_take w _) (n.time payload (n.loss.draw state.network).2).2
    rw [hsink, ← hlocal]
    refine ((WordCounters.take?_gives hnumbers hrfits ht n payload _).iff
      (Run.fits_receiving_iff hfits hr _ _).symm).bind_pure fun x hx => ?_
    rw [hx.2]
    exact h.insert he hcounts ((hwhole _ _).trans (congrArg some hx.1.symm))

end Represents

/-- A step that grows fails as soon as one of its parts does. -/
theorem Checked.Gives.grown {setups : Table CoreId Setup} {x : Option SharedRun} {run run' : Run}
    (h : Gives x (run.fits = true) (Represents setups · run)) (hgrown : run.Grown run')
    {f : SharedRun → Option SharedRun}
    (hf : ∀ state, Represents setups state run → run.fits = true →
      Gives (f state) (run'.fits = true) (Represents setups · run')) :
    Gives (x >>= f) (run'.fits = true) (Represents setups · run') :=
  (h.bind fun hfits state hstate => hf state hstate hfits).iff (and_iff_right_of_imp hgrown.fits)

namespace Represents

variable {setups : Table CoreId Setup} {state : SharedRun} {run : Run}

theorem deliverTo?_gives (h : Represents setups state run) (hfits : run.fits = true)
    {core : CoreId} {dsts : List (CoreId × Nat)} {ws : List Watcher}
    (hreaches : List.Forall₂ (Reaches setups core) dsts ws) (n : Network) (payload : Bool) :
    Gives (dsts.foldlM (SharedRun.deliver? n setups core payload) state)
      ((run.sending n run.senders [⟨payload, ws⟩]).fits = true)
      (Represents setups · (run.sending n run.senders [⟨payload, ws⟩])) := by
  induction hreaches generalizing state run with
  | nil => exact .done hfits h
  | @cons dst w dsts ws hdst _ ih =>
    rw [List.foldlM_cons]
    exact (h.deliver?_gives hfits hdst n payload).grown
      (Run.grown_sending (Grows.refl Sender.Grown.refl _) [⟨payload, ws⟩])
      fun state' h' hfits' => ih h' hfits'

end Represents

/-! ## Sources -/

namespace Run

variable {run : Run} {n : Network}

/-- The run when the sources of a core, but for those before, have sent. -/
def emitting (run : Run) (n : Network) (d T : Nat) (before : List SourceRun) (out : Emitted) :
    Run :=
  run.sending n (run.senders.set d ⟨T, out.random, before ++ out.sources⟩) out.packets

theorem emitting_putSender (d T : Nat) (snd : Sender) (before : List SourceRun) (out : Emitted) :
    (run.putSender d snd).emitting n d T before out = run.emitting n d T before out := by
  unfold emitting putSender sending
  rw [List.set_set]

theorem emitting_append (d T : Nat) (before : List SourceRun) (x : SourceRun) (out : Emitted) :
    run.emitting n d T (before ++ [x]) out =
      run.emitting n d T before ⟨out.random, x :: out.sources, out.packets⟩ := by
  unfold emitting
  rw [List.append_assoc, List.singleton_append]

theorem emitting_sending (d T : Nat) (snd : Sender) (before : List SourceRun) (p : Packet)
    (out : Emitted) :
    (run.sending n (run.senders.set d snd) [p]).emitting n d T before out =
      run.emitting n d T before ⟨out.random, out.sources, p :: out.packets⟩ := by
  unfold emitting
  rw [sending_sending]
  show run.sending n ((run.senders.set d snd).set d _) _ = _
  rw [List.set_set]
  rfl

theorem grown_emitting {d T : Nat} {random : Random} {before rest : List SourceRun}
    (h : run.senders[d]? = some ⟨T, random, before ++ rest⟩) (tick left : Nat) (random' : Random) :
    run.Grown (run.emitting n d T before (sendSources tick left random' rest)) := by
  have hsources : Sender.Grown ⟨T, random, before ++ rest⟩
      ⟨T, (sendSources tick left random' rest).random,
        before ++ (sendSources tick left random' rest).sources⟩ :=
    Grows.append_left SourceRun.Grown.refl (emits_sendSources tick left random' rest).grows before
  exact grown_sending (Grows.set Sender.Grown.refl h hsources) _

end Run

namespace Represents

variable {setups : Table CoreId Setup} {state : SharedRun} {run : Run}
  (h : Represents setups state run) {d : Nat} {e : CoreId × Setup}
  (he : setups.entries[d]? = some e)

include h he

/-- A core draws from its own random words. -/
theorem insert_random {snd : Sender} (hsnd : run.senders[d]? = some snd) (random : Random) :
    Represents setups { state with randoms := state.randoms.insert e.1 random }
      (run.putSender d { snd with random }) := by
  refine ⟨h.formed.putSender hsnd rfl, h.network, fun i e' he' => ?_, h.keys, fun i e' he' => ?_⟩
  · by_cases hi : i = d
    · subst hi
      obtain rfl := Option.some_inj.1 (he.symm.trans he')
      rw [Table.get?_insert_self, Run.getElem?_putSender hsnd]
      rfl
    · rw [Table.get?_insert_of_ne _ (Table.key_ne he he' hi)]
      show _ = (run.senders.set d _)[i]?.map _
      rw [List.getElem?_set_ne (Ne.symm hi)]
      exact h.randoms i e' he'
  · rw [h.counters i e' he']
    by_cases hi : i = d
    · subst hi
      unfold Run.whole?
      rw [Run.getElem?_putSender hsnd _, hsnd]
      rfl
    · exact (Run.whole?_putSender_of_ne hi _).symm

/-- A source is due when it is in the halves of its core, and draws the same word. -/
theorem isDue_eq {snd : Sender} (hsnd : run.senders[d]? = some snd) (tick : Nat)
    (src : SourceSetup) :
    (state.isDue tick e.1 src).1 = (src.isDue tick snd.random).1 ∧
      Represents setups (state.isDue tick e.1 src).2
        (run.putSender d { snd with random := (src.isDue tick snd.random).2 }) := by
  have hsame : Represents setups state (run.putSender d { snd with random := snd.random }) := by
    rwa [Run.putSender_same hsnd]
  have hrandom : state.randoms.get? e.1 = some snd.random := by
    rw [h.randoms d e he, hsnd]
    rfl
  unfold SharedRun.isDue SourceSetup.isDue
  by_cases hactive : src.isActive tick = true
  · rw [if_pos hactive, if_pos hactive]
    cases src.emission with
    | idle => exact ⟨rfl, hsame⟩
    | every ticks => exact ⟨rfl, hsame⟩
    | bernoulli threshold =>
      unfold SharedRun.draw
      rw [hrandom]
      exact ⟨rfl, h.insert_random he hsnd _⟩
  · rw [if_neg hactive, if_neg hactive]
    exact ⟨rfl, hsame⟩

section
variable (hfits : run.fits = true) {T : Nat} {random : Random} {before rest : List SourceRun}
  {x : SourceRun} (hsnd : run.senders[d]? = some ⟨T, random, before ++ x :: rest⟩)

include hfits hsnd

/-- What is counted of a source is counted in its core's counters. -/
theorem countSource?_gives (x' : SourceRun) {f : WordCounters → Option WordCounters} {ok : Prop}
    (hf : ∀ {c : WordCounters} {r recorded},
      c.numbers = .ofHalves ⟨T, random, before ++ x :: rest⟩ r recorded →
      Gives (f c) ok fun c' => c'.numbers = .ofHalves ⟨T, random, before ++ x' :: rest⟩ r recorded)
    (hok : x.fits = true → (ok ↔ x'.fits = true)) :
    Gives (state.count? e.1 f)
      ((run.putSender d ⟨T, random, before ++ x' :: rest⟩).fits = true)
      (Represents setups · (run.putSender d ⟨T, random, before ++ x' :: rest⟩)) := by
  obtain ⟨snd, r, recorded, c, hsnd', hr, hrecorded, -⟩ := h.exists_counters he
  obtain rfl := Option.some_inj.1 (hsnd'.symm.trans hsnd)
  have hall : (before ++ x :: rest).all (·.fits) = true := by
    rw [← Run.fits_putSender_iff hfits hsnd ⟨T, random, before ++ x :: rest⟩,
      Run.putSender_same hsnd]
    exact hfits
  have hiff : (before ++ x' :: rest).all (·.fits) = true ↔ x'.fits = true := by
    rw [List.all_append, List.all_cons] at hall ⊢
    simp only [Bool.and_eq_true] at hall ⊢
    exact ⟨fun hx => hx.2.1, fun hx => ⟨hall.1, hx, hall.2.2⟩⟩
  have hxfits : x.fits = true := List.all_eq_true.1 hall x (by simp)
  have hcounts := Run.countsAt_putSender h.formed ⟨T, random, before ++ x' :: rest⟩ hsnd rfl
    (by simp)
  rw [Run.fits_putSender_iff hfits hsnd, hiff, ← hok hxfits]
  refine h.count?_gives he hcounts rfl fun c hc => ?_
  rw [Run.whole?_eq hsnd hr hrecorded, Option.some_inj] at hc
  refine (hf hc.symm).imp fun c' hc' => ?_
  rw [Run.whole?_eq (Run.getElem?_putSender hsnd _) hr hrecorded, hc']

theorem countBlocked?_gives :
    Gives (state.count? e.1 (·.countBlocked? before.length))
      ((run.putSender d
        ⟨T, random, before ++ { x with blocked := x.blocked + 1 } :: rest⟩).fits = true)
      (Represents setups ·
        (run.putSender d ⟨T, random, before ++ { x with blocked := x.blocked + 1 } :: rest⟩)) := by
  refine h.countSource?_gives he hfits hsnd _
    (fun hc => WordCounters.countBlocked?_gives hc) fun hx => ?_
  rw [SourceRun.fits_iff] at hx ⊢
  exact (and_iff_right hx.1).symm

/-- A source that sends counts the packet, and it is taken to all its watchers. -/
theorem send?_gives (hcores : ∀ e ∈ setups.entries, e.2.core = e.1)
    (hwatchers : x.watchers = watchers setups.values e.1 x.setup.key) (n : Network) :
    Gives (SharedRun.send? n setups (Watching.ofSetups setups) e.1 before.length x.setup state)
      ((run.sending n (run.senders.set d
        ⟨T, random, before ++ { x with sent := x.sent + 1 } :: rest⟩)
        [⟨x.setup.payload, x.watchers⟩]).fits = true)
      (Represents setups · (run.sending n (run.senders.set d
        ⟨T, random, before ++ { x with sent := x.sent + 1 } :: rest⟩)
        [⟨x.setup.payload, x.watchers⟩])) := by
  have hcount := h.countSource?_gives he hfits hsnd { x with sent := x.sent + 1 }
    (fun hc => WordCounters.countSent?_gives hc) fun hx => by
      rw [SourceRun.fits_iff] at hx ⊢
      exact (and_iff_left hx.2).symm
  have hreaches := Watching.reaches hcores e.1 x.setup.key
  rw [← hwatchers] at hreaches
  unfold SharedRun.send?
  refine hcount.grown (Run.grown_sending (Grows.refl Sender.Grown.refl _) _)
    fun state' h' hfits' => ?_
  have hdeliver := h'.deliverTo?_gives hfits' hreaches n x.setup.payload
  cases hwatching : (Watching.ofSetups setups).get? (e.1, x.setup.key) with
  | none =>
    rw [hwatching] at hdeliver
    exact hdeliver
  | some dsts =>
    rw [hwatching] at hdeliver
    exact hdeliver

end

end Represents

end TrafficLab
