import Mathlib.Algebra.BigOperators.Group.List.Basic
import Mathlib.Algebra.GroupWithZero.Nat
import TrafficLab.Chip.Simulation
import TrafficLab.Proofs.Checked

/-!
# Conservation of packets

What a sink can have received is bounded by what was offered to it: the packets that sources have
sent, counted once for each time the sink is among their watchers.  A tick adds to both sides, and
nothing is received that was not offered, whatever the random words are.

    offered after a tick = offered before + copies of the packets sent      (offered_sendAll)
    received after a delivery = received before + at most the copies        (deliverAll_spec)
    run.Sound ... elapsed → (run.tick ...).Sound ... (elapsed + 1)          (Sound.tick)
-/

namespace TrafficLab

/-! ## What is offered and received -/

/-- Whether a watcher is the sink with the given number on the core at the given position. -/
def Watcher.isAt (e j : Nat) (w : Watcher) : Bool := w.core == e && w.sink == j

/-- How often a packet goes to a sink. -/
def Packet.copies (e j : Nat) (p : Packet) : Nat := p.watchers.countP (·.isAt e j)

/-- How many packets of a source were to go to a sink. -/
def SourceRun.offered (e j : Nat) (s : SourceRun) : Nat := s.sent * s.watchers.countP (·.isAt e j)

/-- How often a source has been due. -/
def SourceRun.wanted (s : SourceRun) : Nat := s.sent + s.blocked

/-- How many packets were to go to a sink. -/
def offered (e j : Nat) (senders : List Sender) : Nat :=
  (senders.map fun s => (s.sources.map (·.offered e j)).sum).sum

/-- How many packets a sink has received, if there is such a sink. -/
def received? (receivers : Array Receiver) (e j : Nat) : Option Nat :=
  (receivers[e]?.bind fun r => r.sinks[j]?).map (·.received)

/-- What may have been received of what was offered. -/
structure Accounted (loss : Loss) (consume : Bool) (offered received : Nat) : Prop where
  le : received ≤ offered
  /-- Nothing gets lost on the way to a core that takes packets. -/
  all : loss = .never → consume = true → received = offered
  none : consume = false → received = 0

namespace Accounted

variable {loss : Loss} {consume : Bool} {a b x y : Nat}

theorem zero : Accounted loss consume 0 0 := ⟨Nat.le_refl 0, fun _ _ => rfl, fun _ => rfl⟩

theorem add (h : Accounted loss consume a x) (h' : Accounted loss consume b y) :
    Accounted loss consume (a + b) (x + y) where
  le := Nat.add_le_add h.le h'.le
  all hl hc := by rw [h.all hl hc, h'.all hl hc]
  none hc := by rw [h.none hc, h'.none hc]

end Accounted

/-! ## Sending -/

/-- What sources can do in a tick: wait, be blocked, or send one packet each. -/
inductive Emits : List SourceRun → List SourceRun → List Packet → Prop
  | nil : Emits [] [] []
  | wait {s rest rest' packets} : Emits rest rest' packets → Emits (s :: rest) (s :: rest') packets
  | block {s rest rest' packets} : Emits rest rest' packets →
    Emits (s :: rest) ({ s with blocked := s.blocked + 1 } :: rest') packets
  | send {s rest rest' packets} : Emits rest rest' packets →
    Emits (s :: rest) ({ s with sent := s.sent + 1 } :: rest')
      (⟨s.setup.payload, s.watchers⟩ :: packets)

theorem emits_sendSources (tick capacity : Nat) (r : Random) (sources : List SourceRun) :
    Emits sources (sendSources tick capacity r sources).sources
      (sendSources tick capacity r sources).packets := by
  induction sources generalizing capacity r with
  | nil => exact .nil
  | cons s rest ih =>
    unfold sendSources
    obtain ⟨due, r'⟩ := s.setup.isDue tick r
    cases due with
    | false => exact .wait (ih capacity r')
    | true =>
      cases capacity with
      | zero => exact .block (ih 0 r')
      | succ left => exact .send (ih left r')

namespace Emits

variable {sources sources' : List SourceRun} {packets : List Packet}

theorem refl (sources : List SourceRun) : Emits sources sources [] := by
  induction sources with
  | nil => exact .nil
  | cons s rest ih => exact .wait ih

/-- What a source is does not change. -/
theorem frame (h : Emits sources sources' packets) :
    (sources'.map fun x => (x.setup, x.watchers)) = sources.map fun x => (x.setup, x.watchers) := by
  induction h with
  | nil => rfl
  | wait _ ih => rw [List.map_cons, List.map_cons, ih]
  | block _ ih => rw [List.map_cons, List.map_cons, ih]
  | send _ ih => rw [List.map_cons, List.map_cons, ih]

theorem offered_eq (h : Emits sources sources' packets) (e j : Nat) :
    (sources'.map (·.offered e j)).sum =
      (sources.map (·.offered e j)).sum + (packets.map (·.copies e j)).sum := by
  induction h with
  | nil => rfl
  | wait _ ih =>
    rw [List.map_cons, List.map_cons, List.sum_cons, List.sum_cons, ih, Nat.add_assoc]
  | @block s _ _ _ _ ih =>
    have hs : SourceRun.offered e j { s with blocked := s.blocked + 1 } = s.offered e j := rfl
    rw [List.map_cons, List.map_cons, List.sum_cons, List.sum_cons, ih, hs, Nat.add_assoc]
  | @send s _ _ _ _ ih =>
    have hs : SourceRun.offered e j { s with sent := s.sent + 1 } =
        s.offered e j + s.watchers.countP (·.isAt e j) := Nat.succ_mul _ _
    have hp : Packet.copies e j ⟨s.setup.payload, s.watchers⟩ =
        s.watchers.countP (·.isAt e j) := rfl
    simp only [List.map_cons, List.sum_cons, ih, hs, hp]
    omega

/-- A source is at most once more sent or blocked. -/
theorem wanted_le (h : Emits sources sources' packets) {k : Nat}
    (hk : ∀ s ∈ sources, s.wanted ≤ k) : ∀ s ∈ sources', s.wanted ≤ k + 1 := by
  induction h with
  | nil => simp
  | @wait s _ _ _ _ ih =>
    intro x hx
    rcases List.mem_cons.1 hx with rfl | hx
    · exact Nat.le_succ_of_le (hk x (by simp))
    · exact ih (fun y hy => hk y (by simp [hy])) x hx
  | @block s _ _ _ _ ih =>
    intro x hx
    rcases List.mem_cons.1 hx with rfl | hx
    · exact Nat.succ_le_succ (hk s (by simp))
    · exact ih (fun y hy => hk y (by simp [hy])) x hx
  | @send s _ _ _ _ ih =>
    intro x hx
    rcases List.mem_cons.1 hx with rfl | hx
    · have hs := hk s (by simp)
      unfold SourceRun.wanted at hs ⊢
      simp only
      omega
    · exact ih (fun y hy => hk y (by simp [hy])) x hx

/-- A packet is one of its source's, and goes to the watchers of the source. -/
theorem exists_source (h : Emits sources sources' packets) {p : Packet} (hp : p ∈ packets) :
    ∃ s ∈ sources, p.payload = s.setup.payload ∧ p.watchers = s.watchers := by
  induction h with
  | nil => simp at hp
  | wait _ ih =>
    obtain ⟨s, hs, e⟩ := ih hp
    exact ⟨s, by simp [hs], e⟩
  | block _ ih =>
    obtain ⟨s, hs, e⟩ := ih hp
    exact ⟨s, by simp [hs], e⟩
  | @send s _ _ _ _ ih =>
    rcases List.mem_cons.1 hp with rfl | hp
    · exact ⟨s, by simp, rfl, rfl⟩
    · obtain ⟨t, ht, e⟩ := ih hp
      exact ⟨t, by simp [ht], e⟩

end Emits

theorem emits_send (capacity tick : Nat) (s : Sender) :
    (s.send capacity tick).1.runTicks = s.runTicks ∧
      Emits s.sources (s.send capacity tick).1.sources (s.send capacity tick).2 := by
  unfold Sender.send
  split
  · exact ⟨rfl, emits_sendSources tick capacity s.random s.sources⟩
  · exact ⟨rfl, Emits.refl s.sources⟩

/-- What does not change about a sender. -/
def Sender.shape (s : Sender) : Nat × List (SourceSetup × List Watcher) :=
  (s.runTicks, s.sources.map fun x => (x.setup, x.watchers))

section
variable (capacity tick : Nat) (senders : List Sender)

theorem shape_sendAll :
    (sendAll capacity tick senders).1.map Sender.shape = senders.map Sender.shape := by
  induction senders with
  | nil => rfl
  | cons s rest ih =>
    obtain ⟨hrun, hemits⟩ := emits_send capacity tick s
    unfold sendAll
    simp only [List.map_cons, ih]
    congr 1
    unfold Sender.shape
    rw [hrun, hemits.frame]

theorem offered_sendAll (e j : Nat) :
    offered e j (sendAll capacity tick senders).1 =
      offered e j senders + ((sendAll capacity tick senders).2.map (·.copies e j)).sum := by
  induction senders with
  | nil => rfl
  | cons s rest ih =>
    obtain ⟨-, hemits⟩ := emits_send capacity tick s
    have hs := hemits.offered_eq e j
    unfold sendAll
    unfold offered at ih ⊢
    simp only [List.map_cons, List.sum_cons, List.map_append, List.sum_append, hs, ih]
    omega

theorem wanted_le_sendAll {k : Nat} (hk : ∀ s ∈ senders, ∀ x ∈ s.sources, x.wanted ≤ k) :
    ∀ s ∈ (sendAll capacity tick senders).1, ∀ x ∈ s.sources, x.wanted ≤ k + 1 := by
  induction senders with
  | nil => simp [sendAll]
  | cons s rest ih =>
    obtain ⟨-, hemits⟩ := emits_send capacity tick s
    unfold sendAll
    intro t ht
    rcases List.mem_cons.1 ht with rfl | ht
    · exact hemits.wanted_le (hk s (by simp))
    · exact ih (fun u hu => hk u (by simp [hu])) t ht

theorem exists_source_of_sendAll {p : Packet} (hp : p ∈ (sendAll capacity tick senders).2) :
    ∃ s ∈ senders, ∃ x ∈ s.sources, p.payload = x.setup.payload ∧ p.watchers = x.watchers := by
  induction senders with
  | nil => simp [sendAll] at hp
  | cons s rest ih =>
    obtain ⟨-, hemits⟩ := emits_send capacity tick s
    unfold sendAll at hp
    rcases List.mem_append.1 hp with hp | hp
    · obtain ⟨x, hx, e⟩ := hemits.exists_source hp
      exact ⟨s, by simp, x, hx, e⟩
    · obtain ⟨t, ht, x, hx, e⟩ := ih hp
      exact ⟨t, by simp [ht], x, hx, e⟩

end

/-! ## Receiving -/

/-- What a sink has counted, if there is such a sink. -/
def tally? (receivers : Array Receiver) (e j : Nat) : Option SinkTally :=
  receivers[e]?.bind fun r => r.sinks[j]?

theorem received?_eq (receivers : Array Receiver) (e j : Nat) :
    received? receivers e j = (tally? receivers e j).map (·.received) :=
  rfl

theorem tally?_modify (receivers : Array Receiver) (d e j : Nat) (f : Receiver → Receiver) :
    tally? (receivers.modify d f) e j =
      if d = e then receivers[e]?.bind fun r => (f r).sinks[j]? else tally? receivers e j := by
  unfold tally?
  rw [Array.getElem?_modify]
  split
  · cases receivers[e]? <;> rfl
  · rfl

theorem tally?_drop (receivers : Array Receiver) (d e j : Nat) :
    tally? (receivers.modify d (·.drop)) e j = tally? receivers e j := by
  rw [tally?_modify]
  split <;> rfl

/-- A packet that is taken changes what its sink has counted, and nothing else. -/
theorem tally?_take (receivers : Array Receiver) (w : Watcher) (latency : Option Nat) (e j : Nat) :
    tally? (receivers.modify w.core (·.take w latency)) e j =
      (tally? receivers e j).map fun t => if w.isAt e j then t.take latency else t := by
  rw [tally?_modify]
  unfold tally? Watcher.isAt
  by_cases hcore : w.core = e
  · rw [if_pos hcore]
    cases receivers[e]? with
    | none => rfl
    | some r =>
      simp only [Option.bind_some, Receiver.take, Array.getElem?_modify]
      by_cases hsink : w.sink = j
      · cases r.sinks[j]? <;> simp [hcore, hsink]
      · cases r.sinks[j]? <;> simp [hsink]
  · rw [if_neg hcore]
    cases receivers[e]?.bind fun r => r.sinks[j]? <;> simp [hcore]

theorem received?_drop (receivers : Array Receiver) (d e j : Nat) :
    received? (receivers.modify d (·.drop)) e j = received? receivers e j := by
  rw [received?_eq, tally?_drop, received?_eq]

theorem received?_take (receivers : Array Receiver) (w : Watcher) (latency : Option Nat)
    (e j : Nat) :
    received? (receivers.modify w.core (·.take w latency)) e j =
      (received? receivers e j).map (· + if w.isAt e j then 1 else 0) := by
  rw [received?_eq, tally?_take, received?_eq, Option.map_map, Option.map_map]
  congr 1
  funext t
  cases w.isAt e j <;> cases latency <;> rfl

namespace Network

variable (n : Network)

/-- One delivery adds at most one packet, to the sink it is for. -/
theorem deliver_spec (payload : Bool) (state : Array Receiver × Random) (w : Watcher) (e j : Nat) :
    ∃ k, received? (n.deliver payload state w).1 e j = (received? state.1 e j).map (· + k) ∧
      Accounted n.loss w.consume (if w.isAt e j then 1 else 0) k := by
  obtain ⟨receivers, r⟩ := state
  have hdraw : n.loss = .never → (n.loss.draw r).1 = false := fun hl => by rw [hl]; rfl
  unfold deliver
  simp only
  split
  · next hlost =>
    -- the packet is lost, or the core does not take it
    refine ⟨0, ?_, Nat.zero_le _, fun hl hc => ?_, fun _ => rfl⟩
    · rw [received?_drop]
      cases received? receivers e j <;> rfl
    · rw [hdraw hl, hc] at hlost
      cases hlost
  · next hlost =>
    have htakes : w.consume ≠ false := by
      intro hc
      rw [hc] at hlost
      simp at hlost
    split
    all_goals
      exact ⟨_, received?_take _ w _ e j, Nat.le_refl _, fun _ _ => rfl, fun hc => absurd hc htakes⟩

/-- A packet is lost, or taken with the time that it took if it carries one; and nothing happens on
other cores. -/
theorem deliver_draws (payload : Bool) (state : Array Receiver × Random) (w : Watcher) :
    (n.deliver payload state w).1 = state.1.modify w.core (·.drop) ∨
      ∃ r, (n.deliver payload state w).1 =
        state.1.modify w.core (·.take w (if payload then some (n.latency r).1 else none)) := by
  unfold deliver
  simp only
  split
  · exact .inl rfl
  · cases payload with
    | true => exact .inr ⟨_, rfl⟩
    | false => exact .inr ⟨state.2, rfl⟩

/-- A packet is lost or taken. -/
theorem deliver_cases (payload : Bool) (state : Array Receiver × Random) (w : Watcher) :
    (n.deliver payload state w).1 = state.1.modify w.core (·.drop) ∨
      ∃ latency, (n.deliver payload state w).1 = state.1.modify w.core (·.take w latency) :=
  (n.deliver_draws payload state w).imp id fun ⟨_, h⟩ => ⟨_, h⟩

theorem size_deliver (payload : Bool) (state : Array Receiver × Random) (w : Watcher) :
    (n.deliver payload state w).1.size = state.1.size := by
  obtain h | ⟨latency, h⟩ := n.deliver_cases payload state w
  · rw [h, Array.size_modify]
  · rw [h, Array.size_modify]

/-- What each delivery keeps, all deliveries of a tick keep. -/
theorem deliverAll_induction {P : Array Receiver → Prop} {packets : List Packet}
    (hstep : ∀ p ∈ packets, ∀ w ∈ p.watchers, ∀ state,
      P state.1 → P (n.deliver p.payload state w).1)
    {state : Array Receiver × Random} (h : P state.1) : P (n.deliverAll state packets).1 := by
  have hwatchers : ∀ p ∈ packets, ∀ state : Array Receiver × Random, P state.1 →
      P (p.watchers.foldl (n.deliver p.payload) state).1 := by
    intro p hp state h
    exact List.foldlRecOn (motive := fun state => P state.1) p.watchers _ h
      fun state h w hw => hstep p hp w hw state h
  exact List.foldlRecOn (motive := fun state => P state.1) packets _ h
    fun state h p hp => hwatchers p hp state h

theorem size_deliverAll (packets : List Packet) (state : Array Receiver × Random) :
    (n.deliverAll state packets).1.size = state.1.size :=
  n.deliverAll_induction (P := fun receivers => receivers.size = state.1.size)
    (fun p _ w _ state' h => (n.size_deliver p.payload state' w).trans h) rfl

variable {consume : Bool}

theorem foldl_deliver_spec (payload : Bool) (ws : List Watcher) (state : Array Receiver × Random)
    (hws : ∀ w ∈ ws, w.consume = consume) (e j : Nat) :
    ∃ k, received? (ws.foldl (n.deliver payload) state).1 e j =
        (received? state.1 e j).map (· + k) ∧
      Accounted n.loss consume (ws.countP (·.isAt e j)) k := by
  induction ws generalizing state with
  | nil => exact ⟨0, by simp, .zero⟩
  | cons w rest ih =>
    obtain ⟨k, hk, haccounted⟩ := n.deliver_spec payload state w e j
    obtain ⟨l, hl, haccounted'⟩ :=
      ih (n.deliver payload state w) fun x hx => hws x (by simp [hx])
    rw [hws w (by simp)] at haccounted
    refine ⟨k + l, ?_, ?_⟩
    · rw [List.foldl_cons, hl, hk, Option.map_map]
      congr 1
      funext x
      exact Nat.add_assoc x k l
    · rw [List.countP_cons, Nat.add_comm (rest.countP _)]
      exact haccounted.add haccounted'

/-- All deliveries of a tick. -/
theorem deliverAll_spec (packets : List Packet) (state : Array Receiver × Random)
    (hws : ∀ p ∈ packets, ∀ w ∈ p.watchers, w.consume = consume) (e j : Nat) :
    ∃ k, received? (n.deliverAll state packets).1 e j = (received? state.1 e j).map (· + k) ∧
      Accounted n.loss consume (packets.map (·.copies e j)).sum k := by
  unfold deliverAll
  induction packets generalizing state with
  | nil => exact ⟨0, by simp, .zero⟩
  | cons p rest ih =>
    obtain ⟨k, hk, haccounted⟩ :=
      n.foldl_deliver_spec p.payload p.watchers state (hws p (by simp)) e j
    obtain ⟨l, hl, haccounted'⟩ := ih (p.watchers.foldl (n.deliver p.payload) state)
      fun q hq => hws q (by simp [hq])
    refine ⟨k + l, ?_, ?_⟩
    · rw [List.foldl_cons, hl, hk, Option.map_map]
      congr 1
      funext x
      exact Nat.add_assoc x k l
    · exact haccounted.add haccounted'

end Network

/-! ## Runs -/

/-- A watcher is a sink that watches the key and the core, on one of the cores that run. -/
theorem exists_of_mem_watchers {setups : List Setup} {core : CoreId} {key : UInt32} {w : Watcher}
    (hw : w ∈ watchers setups core key) :
    ∃ s sink, setups[w.core]? = some s ∧ s.sinks[w.sink]? = some sink ∧ sink.source = core ∧
      sink.key = key ∧ w.consume = s.consume ∧ w.isLocal = (s.core == core) := by
  unfold watchers at hw
  obtain ⟨⟨s, d⟩, hs, hw⟩ := List.mem_flatMap.1 hw
  obtain ⟨⟨sink, j⟩, hsink, hw⟩ := List.mem_filterMap.1 hw
  have hsink := List.mk_mem_zipIdx_iff_getElem?.1 hsink
  rw [Array.getElem?_toList] at hsink
  simp only at hw
  split at hw
  · next hwatches =>
    cases hw
    exact ⟨s, sink, List.mk_mem_zipIdx_iff_getElem?.1 hs, hsink, hwatches.1, hwatches.2, rfl, rfl⟩
  · cases hw

namespace Run

theorem record_frame (elapsed : Nat) (run : Run) (x : Setup × Nat) :
    (run.record elapsed x).senders = run.senders ∧
      (run.record elapsed x).receivers = run.receivers ∧
      (run.record elapsed x).recorded.size = run.recorded.size := by
  unfold record
  split
  · split
    · exact ⟨rfl, rfl, Array.size_modify⟩
    · exact ⟨rfl, rfl, rfl⟩
  · exact ⟨rfl, rfl, rfl⟩

theorem random_record (elapsed : Nat) (run : Run) (x : Setup × Nat) :
    (run.record elapsed x).random = run.random := by
  unfold record
  split
  · split <;> rfl
  · rfl

/-- Recording changes what is recorded and nothing else. -/
theorem foldl_record_frame (elapsed : Nat) (recorders : List (Setup × Nat)) (run : Run) :
    (recorders.foldl (record elapsed) run).senders = run.senders ∧
      (recorders.foldl (record elapsed) run).receivers = run.receivers ∧
      (recorders.foldl (record elapsed) run).recorded.size = run.recorded.size := by
  induction recorders generalizing run with
  | nil => exact ⟨rfl, rfl, rfl⟩
  | cons x rest ih =>
    obtain ⟨hs, hr, hn⟩ := record_frame elapsed run x
    obtain ⟨hs', hr', hn'⟩ := ih (run.record elapsed x)
    exact ⟨hs'.trans hs, hr'.trans hr, hn'.trans hn⟩

/-- In a tick all cores send, and then all packets are delivered. -/
theorem tick_frame (capacity : Nat) (n : Network) (recorders : List (Setup × Nat)) (now : Nat)
    (run : Run) :
    (run.tick capacity n recorders now).senders = (sendAll capacity now run.senders).1 ∧
      (run.tick capacity n recorders now).receivers =
        (n.deliverAll (run.receivers, run.random) (sendAll capacity now run.senders).2).1 ∧
      (run.tick capacity n recorders now).recorded.size = run.recorded.size := by
  obtain ⟨senders, receivers, random, recorded⟩ := run
  exact foldl_record_frame (now + 1) recorders
    ⟨(sendAll capacity now senders).1,
      (n.deliverAll (receivers, random) (sendAll capacity now senders).2).1,
      (n.deliverAll (receivers, random) (sendAll capacity now senders).2).2, recorded⟩

/-- The shapes of the senders that setups make. -/
def shapes (setups : List Setup) : List (Nat × List (SourceSetup × List Watcher)) :=
  setups.map fun s => (s.runTicks, s.sources.toList.map fun x => (x, watchers setups s.core x.key))

/-- A run of the given setups, so many ticks after its start, in which every packet that has been
received was sent to its sink. -/
structure Sound (setups : List Setup) (loss : Loss) (consume : Bool) (elapsed : Nat)
    (run : Run) : Prop where
  shape : run.senders.map Sender.shape = setups.map fun s =>
    (s.runTicks, s.sources.toList.map fun x => (x, watchers setups s.core x.key))
  wanted_le : ∀ s ∈ run.senders, ∀ x ∈ s.sources, x.wanted ≤ elapsed
  receivers_size : run.receivers.size = setups.length
  recorded_size : run.recorded.size = setups.length
  received : ∀ {e j s}, setups[e]? = some s → j < s.sinks.size → ∃ r,
    received? run.receivers e j = some r ∧ Accounted loss consume (offered e j run.senders) r

variable {setups : List Setup} {consume : Bool}

theorem consume_of_mem_watchers (hc : ∀ s ∈ setups, s.consume = consume) {core : CoreId}
    {key : UInt32} {w : Watcher} (hw : w ∈ watchers setups core key) : w.consume = consume := by
  obtain ⟨s, -, hs, -, -, -, hconsume, -⟩ := exists_of_mem_watchers hw
  exact hconsume.trans (hc s (List.mem_of_getElem? hs))

/-- The watchers of a source are those that the setups have for it. -/
theorem watchers_of_shape {run : Run} (hshape : run.senders.map Sender.shape = shapes setups)
    {snd : Sender} (hsnd : snd ∈ run.senders) {x : SourceRun} (hx : x ∈ snd.sources) :
    ∃ core key, x.watchers = watchers setups core key := by
  have hmem : snd.shape ∈ run.senders.map Sender.shape := List.mem_map_of_mem hsnd
  rw [hshape] at hmem
  obtain ⟨t, -, e⟩ := List.mem_map.1 hmem
  have hx' : (x.setup, x.watchers) ∈ snd.shape.2 := List.mem_map.2 ⟨x, hx, rfl⟩
  rw [← e] at hx'
  obtain ⟨src, -, e⟩ := List.mem_map.1 hx'
  exact ⟨t.core, src.key, (congrArg Prod.snd e).symm⟩

theorem Sound.consumes {loss : Loss} {elapsed : Nat} {run : Run}
    (h : run.Sound setups loss consume elapsed) (hc : ∀ s ∈ setups, s.consume = consume) :
    ∀ s ∈ run.senders, ∀ x ∈ s.sources, ∀ w ∈ x.watchers, w.consume = consume := by
  intro s hs x hx w hw
  obtain ⟨core, key, hwatchers⟩ := watchers_of_shape h.shape hs hx
  exact consume_of_mem_watchers hc (hwatchers ▸ hw)

/-- A run starts with the sources of the setups. -/
theorem shape_ofSetups (seed : UInt64) (setups : List Setup) :
    (ofSetups seed setups).senders.map Sender.shape = shapes setups := by
  show (setups.map (Sender.ofSetup setups)).map Sender.shape = _
  rw [List.map_map]
  refine List.map_congr_left fun s _ => ?_
  show (s.runTicks, (s.sources.toList.map _).map _) = _
  rw [List.map_map]
  rfl

theorem wanted_ofSetups {seed : UInt64} : ∀ s ∈ (ofSetups seed setups).senders, ∀ x ∈ s.sources,
    x.wanted = 0 := by
  intro s hs x hx
  obtain ⟨t, -, rfl⟩ := List.mem_map.1 hs
  obtain ⟨src, -, rfl⟩ := List.mem_map.1 hx
  rfl

theorem offered_ofSetups (seed : UInt64) (setups : List Setup) (e j : Nat) :
    offered e j (ofSetups seed setups).senders = 0 := by
  unfold offered
  rw [List.sum_eq_zero]
  intro k hk
  obtain ⟨s, hs, rfl⟩ := List.mem_map.1 hk
  rw [List.sum_eq_zero]
  intro l hl
  obtain ⟨x, hx, rfl⟩ := List.mem_map.1 hl
  unfold SourceRun.offered
  rw [(Nat.add_eq_zero_iff.1 (wanted_ofSetups s hs x hx)).1, Nat.zero_mul]

/-- At the start nothing has been sent or received. -/
theorem sound_ofSetups (seed : UInt64) (loss : Loss) :
    (ofSetups seed setups).Sound setups loss consume 0 := by
  refine ⟨shape_ofSetups seed setups, fun s hs x hx => Nat.le_of_eq (wanted_ofSetups s hs x hx),
    ?_, ?_, ?_⟩
  · show (setups.map Receiver.ofSetup).toArray.size = _
    rw [List.size_toArray, List.length_map]
  · exact Array.size_replicate
  · intro e j s hs hj
    have hreceived : received? (ofSetups seed setups).receivers e j = some 0 := by
      show received? (setups.map Receiver.ofSetup).toArray e j = some 0
      unfold received?
      rw [List.getElem?_toArray, List.getElem?_map, hs]
      simp only [Option.map_some, Option.bind_some, Receiver.ofSetup, Array.getElem?_replicate, hj,
        if_true]
    refine ⟨0, hreceived, ?_⟩
    rw [offered_ofSetups]
    exact .zero

/-- A tick keeps a run sound. -/
theorem Sound.tick {n : Network} {elapsed : Nat} {run : Run}
    (h : run.Sound setups n.loss consume elapsed) (hc : ∀ s ∈ setups, s.consume = consume)
    (capacity now : Nat)
    (recorders : List (Setup × Nat)) :
    (run.tick capacity n recorders now).Sound setups n.loss consume (elapsed + 1) := by
  obtain ⟨hsenders, hreceivers, hrecorded⟩ := run.tick_frame capacity n recorders now
  have hshape := shape_sendAll capacity now run.senders
  constructor
  · rw [hsenders, hshape]
    exact h.shape
  · rw [hsenders]
    exact wanted_le_sendAll capacity now run.senders h.wanted_le
  · rw [hreceivers, n.size_deliverAll]
    exact h.receivers_size
  · rw [hrecorded]
    exact h.recorded_size
  · intro e j s hs hj
    have hws : ∀ p ∈ (sendAll capacity now run.senders).2, ∀ w ∈ p.watchers,
        w.consume = consume := by
      intro p hp w hw
      obtain ⟨t, ht, x, hx, -, e⟩ := exists_source_of_sendAll capacity now run.senders hp
      exact h.consumes hc t ht x hx w (e ▸ hw)
    obtain ⟨r, hr, haccounted⟩ := h.received hs hj
    obtain ⟨k, hk, haccounted'⟩ := n.deliverAll_spec _ (run.receivers, run.random) hws e j
    rw [hsenders, hreceivers, offered_sendAll]
    refine ⟨r + k, ?_, haccounted.add haccounted'⟩
    rw [hk, hr]
    rfl

/-- The state of a run after so many ticks. -/
def after (capacity : Nat) (n : Network) (seed : UInt64) (setups : List Setup)
    (recorders : List (Setup × Nat)) : Nat → Run
  | 0 => ofSetups seed setups
  | elapsed + 1 =>
    (after capacity n seed setups recorders elapsed).tick capacity n recorders elapsed

theorem ticks_after (capacity : Nat) (n : Network) (seed : UInt64) (setups : List Setup)
    (recorders : List (Setup × Nat)) (left now : Nat) :
    ticks capacity n recorders left now (after capacity n seed setups recorders now) =
      after capacity n seed setups recorders (now + left) := by
  induction left generalizing now with
  | zero => rfl
  | succ left ih =>
    unfold ticks
    show ticks capacity n recorders left (now + 1)
      (after capacity n seed setups recorders (now + 1)) = _
    rw [ih (now + 1), Nat.add_right_comm, Nat.add_assoc]

/-- The sources of a run stay those of the setups. -/
theorem shape_after (capacity : Nat) (n : Network) (seed : UInt64) (setups : List Setup)
    (recorders : List (Setup × Nat)) (elapsed : Nat) :
    (after capacity n seed setups recorders elapsed).senders.map Sender.shape =
      shapes setups := by
  induction elapsed with
  | zero => exact shape_ofSetups seed setups
  | succ elapsed ih =>
    obtain ⟨hsenders, -, -⟩ := tick_frame capacity n recorders elapsed
      (after capacity n seed setups recorders elapsed)
    show ((after capacity n seed setups recorders elapsed).tick capacity n recorders
      elapsed).senders.map _ = _
    rw [hsenders, shape_sendAll, ih]

/-- A run is sound after every tick. -/
theorem sound_after (capacity : Nat) (n : Network) (seed : UInt64)
    (recorders : List (Setup × Nat)) (hc : ∀ s ∈ setups, s.consume = consume) (elapsed : Nat) :
    (after capacity n seed setups recorders elapsed).Sound setups n.loss consume elapsed := by
  induction elapsed with
  | zero => exact sound_ofSetups seed n.loss
  | succ elapsed ih => exact ih.tick hc capacity elapsed recorders

end Run

end TrafficLab
