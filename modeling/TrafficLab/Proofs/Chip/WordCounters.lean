import TrafficLab.Proofs.Chip.Words

/-!
# Counters of words

The counters of a core as they are held during a run: arrays of 64-bit words that are added to in
place.  An addition is checked, and so is the sum of a packet's delay and what it takes longer,
which is a word of 32 bits.  What is added beyond a word, or to a source or sink that is not there,
gives nothing.

Read as numbers, such counters are those of the two halves of a core (`numbers`).  What is counted
in one half is counted in the other kind of counters as well, exactly as long as the half stays
within its words (`Checked.Gives`).

    a packet that is sent or blocked counts in its sender   (countSent?_gives, countBlocked?_gives)
    a packet that is lost counts as dropped                 (drop?_gives)
    a packet that arrives counts as taken                   (take?_gives)
    the row of words = the row of numbers                   (row?_numbers)
-/

namespace TrafficLab

/-! ## Checked steps -/

namespace Checked

/-- A computation gives a result with a property if a condition holds, and nothing otherwise. -/
structure Gives {α : Type} (x : Option α) (ok : Prop) (P : α → Prop) : Prop where
  gives : ok → ∃ a, x = some a ∧ P a
  stops : ¬ok → x = none

namespace Gives

variable {α β : Type} {x : Option α} {ok ok' : Prop} {P P' : α → Prop} {Q : β → Prop}

theorem done (hok : ok) {a : α} (h : P a) : Gives (some a) ok P :=
  ⟨fun _ => ⟨a, rfl, h⟩, fun no => absurd hok no⟩

/-- Two steps give a result if both do. -/
theorem bind (h : Gives x ok P) {f : α → Option β} (hf : ok → ∀ a, P a → Gives (f a) ok' Q) :
    Gives (x >>= f) (ok ∧ ok') Q := by
  constructor
  · rintro ⟨hok, hok'⟩
    obtain ⟨a, rfl, ha⟩ := h.gives hok
    exact (hf hok a ha).gives hok'
  · intro no
    by_cases hok : ok
    · obtain ⟨a, rfl, ha⟩ := h.gives hok
      exact (hf hok a ha).stops fun hok' => no ⟨hok, hok'⟩
    · rw [h.stops hok]
      rfl

theorem iff (h : Gives x ok P) (hok : ok ↔ ok') : Gives x ok' P := by
  rwa [← propext hok]

theorem imp (h : Gives x ok P) (hP : ∀ a, P a → P' a) : Gives x ok P' := by
  refine ⟨fun hok => ?_, h.stops⟩
  obtain ⟨a, ha, hp⟩ := h.gives hok
  exact ⟨a, ha, hP a hp⟩

/-- A step that can only succeed makes no new condition. -/
theorem bind_pure (h : Gives x ok P) {f : α → β} (hf : ∀ a, P a → Q (f a)) :
    Gives (x >>= fun a => some (f a)) ok Q :=
  (h.bind fun _ a ha => .done trivial (hf a ha)).iff (iff_of_eq (and_true ok))

end Gives

/-! ## Words -/

def add64? (a b : UInt64) : Option UInt64 :=
  if a.toNat + b.toNat < UInt64.size then some (a + b) else none

def mul64? (a b : UInt64) : Option UInt64 :=
  if a.toNat * b.toNat < UInt64.size then some (a * b) else none

def add32? (a b : UInt32) : Option UInt32 :=
  if a.toNat + b.toNat < UInt32.size then some (a + b) else none

/-- Adds to the word at a position. -/
def addAt? (words : Array UInt64) (i : Nat) (n : UInt64) : Option (Array UInt64) := do
  let sum ← add64? (← words[i]?) n
  some (words.modify i fun _ => sum)

theorem add64?_gives (a b : UInt64) : Gives (add64? a b) (a.toNat + b.toNat < UInt64.size)
    fun c => c.toNat = a.toNat + b.toNat := by
  unfold add64?
  refine ⟨fun h => ⟨a + b, if_pos h, ?_⟩, fun h => if_neg h⟩
  rw [UInt64.toNat_add]
  exact Nat.mod_eq_of_lt h

theorem add32?_gives (a b : UInt32) : Gives (add32? a b) (a.toNat + b.toNat < UInt32.size)
    fun c => c.toNat = a.toNat + b.toNat := by
  unfold add32?
  refine ⟨fun h => ⟨a + b, if_pos h, ?_⟩, fun h => if_neg h⟩
  rw [UInt32.toNat_add]
  exact Nat.mod_eq_of_lt h

/-- The square of a word of 32 bits is a word of 64. -/
theorem mul64?_gives (time : UInt32) : Gives (mul64? time.toUInt64 time.toUInt64) True
    fun c => c.toNat = time.toNat * time.toNat := by
  have hsquare : time.toNat * time.toNat < UInt64.size :=
    Nat.lt_of_lt_of_le (Nat.mul_lt_mul'' time.toNat_lt time.toNat_lt) (by decide)
  unfold mul64?
  rw [UInt32.toNat_toUInt64, if_pos hsquare]
  refine .done trivial ?_
  rw [UInt64.toNat_mul, UInt32.toNat_toUInt64]
  exact Nat.mod_eq_of_lt hsquare

theorem map_modify {α β : Type} {g : α → β} {f : α → α} {f' : β → β} {xs : Array α} {i : Nat}
    (h : ∀ a, xs[i]? = some a → g (f a) = f' (g a)) :
    (xs.modify i f).map g = (xs.map g).modify i f' := by
  refine Array.ext_getElem? fun j => ?_
  rw [Array.getElem?_map, Array.getElem?_modify, Array.getElem?_modify, Array.getElem?_map]
  by_cases hj : i = j
  · subst hj
    rw [if_pos rfl, if_pos rfl, Option.map_map, Option.map_map]
    exact Option.map_congr h
  · rw [if_neg hj, if_neg hj]

theorem addAt?_gives {words : Array UInt64} {i x k : Nat} {n : UInt64}
    (hx : (words.map UInt64.toNat)[i]? = some x) (hn : n.toNat = k) :
    Gives (addAt? words i n) (x + k < UInt64.size) fun words' =>
      words'.map UInt64.toNat = (words.map UInt64.toNat).modify i (· + k) := by
  rw [Array.getElem?_map] at hx
  obtain ⟨word, hword, rfl⟩ := Option.map_eq_some_iff.1 hx
  subst hn
  unfold addAt?
  rw [hword]
  refine (add64?_gives word n).bind_pure fun sum hsum => map_modify fun a ha => ?_
  rw [hsum, Option.some_inj.1 (hword.symm.trans ha)]

end Checked

open Checked

/-! ## Counters -/

structure WordCounters where
  sent : Array UInt64
  blocked : Array UInt64
  received : Array UInt64
  latencySum : Array UInt64
  latencySumSq : Array UInt64
  /-- The router counters in the order of their bits. -/
  router : Array UInt64
  /-- The values recorded before the end of the run, row after row. -/
  recorded : Array UInt64

/-- What a packet that arrives counts as in the router. -/
def RouterCounter.ofArrival (isLocal : Bool) : RouterCounter :=
  if isLocal then .localMulticast else .externalMulticast

/-- What a packet takes longer than the delay. -/
def Network.extra (n : Network) (r : Random) : UInt32 × Random :=
  if n.jitter = 0 then (0, r)
  else
    let (extra, r) := r.upTo n.jitter
    (UInt32.ofNat extra, r)

namespace WordCounters

def ofSetup (s : Setup) : WordCounters where
  sent := Array.replicate s.sources.size 0
  blocked := Array.replicate s.sources.size 0
  received := Array.replicate s.sinks.size 0
  latencySum := Array.replicate s.sinks.size 0
  latencySumSq := Array.replicate s.sinks.size 0
  router := Array.replicate RouterCounter.all.length 0
  recorded := #[]

variable (c : WordCounters)

def countSent? (i : Nat) : Option WordCounters := do
  some { c with sent := ← addAt? c.sent i 1 }

def countBlocked? (i : Nat) : Option WordCounters := do
  some { c with blocked := ← addAt? c.blocked i 1 }

/-- Counts a packet that is lost on the way or that the core does not take. -/
def drop? : Option WordCounters := do
  some { c with router := ← addAt? c.router RouterCounter.droppedMulticast.index 1 }

/-- Counts a packet and, if it carries a time, how long it took. -/
def take? (n : Network) (sink : Nat) (isLocal payload : Bool) (r : Random) :
    Option (WordCounters × Random) := do
  let router ← addAt? c.router (RouterCounter.ofArrival isLocal).index 1
  let received ← addAt? c.received sink 1
  if payload then
    let (extra, r) := n.extra r
    let time ← add32? n.delay extra
    let latencySum ← addAt? c.latencySum sink time.toUInt64
    let square ← mul64? time.toUInt64 time.toUInt64
    let latencySumSq ← addAt? c.latencySumSq sink square
    some ({ c with router, received, latencySum, latencySumSq }, r)
  else some ({ c with router, received }, r)

/-- The value of a slot.  A router counter that is not recorded reads as zero. -/
def slot? (record : CounterSet) (m : Metric) (role : UInt8) : Option UInt64 :=
  match m with
  | .sent => c.sent[role.toNat]?
  | .blocked => c.blocked[role.toNat]?
  | .received => c.received[role.toNat]?
  | .latencySum => c.latencySum[role.toNat]?
  | .latencySumSq => c.latencySumSq[role.toNat]?
  | .router counter => if record.contains counter then c.router[counter.index]? else some 0

/-- The values in the order of the slots. -/
def row? (s : Setup) : Option (List UInt64) :=
  s.counters.toList.mapM fun (m, role) => c.slot? s.record m role

/-- Records the current row. -/
def record? (s : Setup) : Option WordCounters := do
  let row ← c.row? s
  some { c with recorded := c.recorded ++ row.toArray }

/-- The counters as numbers. -/
def numbers : Counters where
  sent := c.sent.map UInt64.toNat
  blocked := c.blocked.map UInt64.toNat
  received := c.received.map UInt64.toNat
  latencySum := c.latencySum.map UInt64.toNat
  latencySumSq := c.latencySumSq.map UInt64.toNat
  router := c.router.map UInt64.toNat
  recorded := c.recorded.map UInt64.toNat

/-! ## Rows -/

theorem slot?_numbers (record : CounterSet) (m : Metric) (role : UInt8) :
    c.numbers.slot? record m role = (c.slot? record m role).map UInt64.toNat := by
  cases m with
  | sent | blocked | received | latencySum | latencySumSq => exact Array.getElem?_map
  | router counter =>
    unfold Counters.slot? slot?
    dsimp only
    split
    · exact Array.getElem?_map
    · rfl

theorem row?_numbers (s : Setup) : c.numbers.row? s = (c.row? s).map (·.map UInt64.toNat) := by
  unfold Counters.row? row?
  induction s.counters.toList with
  | nil => rfl
  | cons x rest ih =>
    rw [List.mapM_cons, List.mapM_cons, ih]
    dsimp only
    rw [slot?_numbers]
    cases c.slot? s.record x.1 x.2 with
    | none => rfl
    | some w =>
      cases List.mapM (fun (m, role) => c.slot? s.record m role) rest <;> rfl

theorem record?_numbers (s : Setup) : (c.record? s).map numbers = c.numbers.record? s := by
  unfold record? Counters.record?
  rw [row?_numbers]
  cases c.row? s with
  | none => rfl
  | some row => simp [numbers]

/-! ## The halves of a core -/

theorem numbers_ofSetup (setups : List Setup) (s : Setup) :
    (ofSetup s).numbers = .ofHalves (.ofSetup setups s) (.ofSetup s) #[] := by
  simp [ofSetup, numbers, Counters.ofHalves, Sender.ofSetup, Receiver.ofSetup, Receiver.router,
    Function.comp_def, RouterCounter.all]
  rfl

end WordCounters

/-- An entry that becomes another decides whether all entries have a property. -/
theorem forall_mem_modify_iff {α : Type} {P : α → Prop} {xs : Array α} {f : α → α} {i : Nat} {a : α}
    (hxs : ∀ x ∈ xs, P x) (ha : xs[i]? = some a) : (∀ x ∈ xs.modify i f, P x) ↔ P (f a) := by
  constructor
  · intro h
    refine h (f a) (Array.mem_of_getElem? (i := i) ?_)
    rw [Array.getElem?_modify, if_pos rfl, ha]
    rfl
  · intro h x hx
    obtain ⟨j, hx⟩ := Array.getElem?_of_mem hx
    rw [Array.getElem?_modify] at hx
    split at hx
    · next hij =>
      rw [← hij, ha] at hx
      exact Option.some_inj.1 hx ▸ h
    · exact hxs x (Array.mem_of_getElem? hx)

theorem Receiver.fits_take_iff {r : Receiver} {w : Watcher} {t : SinkTally} (hr : r.fits = true)
    (ht : r.sinks[w.sink]? = some t) (latency : Option Nat) : (r.take w latency).fits = true ↔
      (if w.isLocal then r.localPackets else r.externalPackets) + 1 < UInt64.size ∧
        (t.take latency).fits = true ∧ ∀ l ∈ latency, l < UInt32.size := by
  have hwithin := Receiver.fits_iff.1 hr
  have hsinks := forall_mem_modify_iff (f := (·.take latency))
    (fun t h => SinkTally.fits_iff.2 (hwithin.sinks t (Array.mem_toList_iff.2 h))) ht
  have honTime : (r.take w latency).overdue = false ↔ ∀ l ∈ latency, l < UInt32.size := by
    show (r.overdue || latency.any (UInt32.size ≤ ·)) = false ↔ _
    rw [hwithin.onTime]
    cases latency <;> simp
  have hcounts : (r.take w latency).localPackets < UInt64.size ∧
      (r.take w latency).externalPackets < UInt64.size ↔
      (if w.isLocal then r.localPackets else r.externalPackets) + 1 < UInt64.size := by
    unfold Receiver.take
    cases w.isLocal with
    | true => exact and_iff_left hwithin.externalPackets
    | false => exact and_iff_right hwithin.localPackets
  rw [← hcounts, ← hsinks, ← honTime, Receiver.fits_iff]
  constructor
  · exact fun h => ⟨⟨h.localPackets, h.externalPackets⟩,
      fun t ht => SinkTally.fits_iff.2 (h.sinks t (Array.mem_toList_iff.2 ht)), h.onTime⟩
  · rintro ⟨⟨hlocal, hexternal⟩, htallies, hover⟩
    exact ⟨hover, fun t ht => SinkTally.fits_iff.1 (htallies t (Array.mem_toList_iff.1 ht)), hlocal,
      hexternal, hwithin.droppedPackets⟩

theorem Receiver.router_take (r : Receiver) (w : Watcher) (latency : Option Nat) :
    (r.take w latency).router =
      r.router.modify (RouterCounter.ofArrival w.isLocal).index (· + 1) := by
  unfold Receiver.take
  cases w.isLocal <;> rfl

/-- What a packet adds to one of the sums of its sink. -/
theorem Receiver.map_take (r : Receiver) (w : Watcher) (latency : Option Nat) {f : SinkTally → Nat}
    {g : Nat → Nat} (h : ∀ t : SinkTally, f (t.take latency) = g (f t)) :
    (r.take w latency).sinks.map f = (r.sinks.map f).modify w.sink g :=
  map_modify fun t _ => h t

/-- What a packet without a time changes in the counters of its core. -/
theorem Counters.ofHalves_take_none (snd : Sender) (r : Receiver) (w : Watcher)
    (recorded : Array Nat) : ofHalves snd (r.take w none) recorded =
      { ofHalves snd r recorded with
        router := r.router.modify (RouterCounter.ofArrival w.isLocal).index (· + 1)
        received := (r.sinks.map (·.received)).modify w.sink (· + 1) } := by
  have hsame : ∀ f : SinkTally → Nat, (∀ t : SinkTally, f (t.take none) = f t) →
      (r.take w none).sinks.map f = r.sinks.map f := by
    intro f hf
    rw [r.map_take w none (g := id) hf]
    refine Array.ext_getElem? fun i => ?_
    rw [Array.getElem?_modify, Option.map_id, id, ite_self]
  unfold ofHalves
  rw [r.router_take, r.map_take w none (f := (·.received)) (g := (· + 1)) fun _ => rfl,
    hsame (·.latencySum) fun _ => rfl, hsame (·.latencySumSq) fun _ => rfl]

/-- What a packet with a time changes in the counters of its core. -/
theorem Counters.ofHalves_take_some (snd : Sender) (r : Receiver) (w : Watcher) (l : Nat)
    (recorded : Array Nat) : ofHalves snd (r.take w (some l)) recorded =
      { ofHalves snd r recorded with
        router := r.router.modify (RouterCounter.ofArrival w.isLocal).index (· + 1)
        received := (r.sinks.map (·.received)).modify w.sink (· + 1)
        latencySum := (r.sinks.map (·.latencySum)).modify w.sink (· + l)
        latencySumSq := (r.sinks.map (·.latencySumSq)).modify w.sink (· + l * l) } := by
  unfold ofHalves
  rw [r.router_take, r.map_take w (some l) (f := (·.received)) (g := (· + 1)) fun _ => rfl,
    r.map_take w (some l) (f := (·.latencySum)) (g := (· + l)) fun _ => rfl,
    r.map_take w (some l) (f := (·.latencySumSq)) (g := (· + l * l)) fun _ => rfl]

/-- How long a packet takes, if it carries a time. -/
def Network.time (n : Network) (payload : Bool) (r : Random) : Option Nat × Random :=
  if payload then
    let (l, r) := n.latency r
    (some l, r)
  else (none, r)

theorem Network.latency_eq (n : Network) (r : Random) :
    n.latency r = (n.delay.toNat + (n.extra r).1.toNat, (n.extra r).2) := by
  unfold latency extra
  split
  · rfl
  · have hle : (r.upTo n.jitter).1 < UInt32.size :=
      Nat.lt_of_le_of_lt (Random.upTo_le n.jitter r) n.jitter.toNat_lt
    simp only [UInt32.toNat_ofNat_of_lt' hle]

namespace WordCounters

variable {c : WordCounters} {r : Receiver} {recorded : Array Nat}

theorem modify_middle {α : Type} (xs ys : List α) (a : α) (f : α → α) :
    (xs ++ a :: ys).toArray.modify xs.length f = (xs ++ f a :: ys).toArray := by
  simp [List.modify_eq_take_cons_drop]

/-- A count of one source among others goes up by one. -/
theorem addAt?_middle {words : Array UInt64} {before rest : List SourceRun} {x : SourceRun}
    {f : SourceRun → Nat} (h : words.map UInt64.toNat = ((before ++ x :: rest).map f).toArray) :
    Gives (addAt? words before.length 1) (f x + 1 < UInt64.size) fun words' =>
      words'.map UInt64.toNat = (before.map f ++ (f x + 1) :: rest.map f).toArray := by
  have hx : (words.map UInt64.toNat)[before.length]? = some (f x) := by
    rw [h]
    simp
  refine (addAt?_gives hx (k := 1) rfl).imp fun words' h' => ?_
  rw [h', h, List.map_append, List.map_cons, ← List.length_map, modify_middle]

section
variable {T : Nat} {random : Random} {before rest : List SourceRun} {x : SourceRun}
  (hc : c.numbers = .ofHalves ⟨T, random, before ++ x :: rest⟩ r recorded)

include hc

theorem countSent?_gives : Gives (c.countSent? before.length) (x.sent + 1 < UInt64.size) fun c' =>
    c'.numbers = .ofHalves ⟨T, random, before ++ { x with sent := x.sent + 1 } :: rest⟩ r
      recorded := by
  refine (addAt?_middle (congrArg Counters.sent hc)).bind_pure fun sent h => ?_
  show { c.numbers with sent := sent.map UInt64.toNat } = _
  rw [h, hc]
  simp [Counters.ofHalves]

theorem countBlocked?_gives :
    Gives (c.countBlocked? before.length) (x.blocked + 1 < UInt64.size) fun c' =>
      c'.numbers = .ofHalves ⟨T, random, before ++ { x with blocked := x.blocked + 1 } :: rest⟩ r
        recorded := by
  refine (addAt?_middle (congrArg Counters.blocked hc)).bind_pure fun blocked h => ?_
  show { c.numbers with blocked := blocked.map UInt64.toNat } = _
  rw [h, hc]
  simp [Counters.ofHalves]

end

section
variable {snd : Sender} (hc : c.numbers = .ofHalves snd r recorded)

include hc

theorem drop?_gives (hr : r.fits = true) :
    Gives c.drop? (r.drop.fits = true) fun c' => c'.numbers = .ofHalves snd r.drop recorded := by
  have hrouter : c.router.map UInt64.toNat = r.router := congrArg Counters.router hc
  have hdropped : (c.router.map UInt64.toNat)[RouterCounter.droppedMulticast.index]? =
      some r.droppedPackets := by
    rw [hrouter]
    rfl
  have hfits : r.droppedPackets + 1 < UInt64.size ↔ r.drop.fits = true := by
    rw [Receiver.fits_iff] at hr ⊢
    exact ⟨fun h => { hr with droppedPackets := h }, fun h => h.droppedPackets⟩
  refine ((addAt?_gives hdropped rfl).bind_pure fun router h => ?_).iff hfits
  rw [hrouter] at h
  show { c.numbers with router := router.map UInt64.toNat } = _
  rw [h, hc]
  rfl

theorem take?_gives (hr : r.fits = true) {w : Watcher} {t : SinkTally}
    (ht : r.sinks[w.sink]? = some t) (n : Network) (payload : Bool) (random : Random) :
    Gives (c.take? n w.sink w.isLocal payload random)
      ((r.take w (n.time payload random).1).fits = true) fun x =>
        x.1.numbers = .ofHalves snd (r.take w (n.time payload random).1) recorded ∧
          x.2 = (n.time payload random).2 := by
  have hrouter : c.router.map UInt64.toNat = r.router := congrArg Counters.router hc
  have hreceived : c.received.map UInt64.toNat = r.sinks.map (·.received) :=
    congrArg Counters.received hc
  have hsum : c.latencySum.map UInt64.toNat = r.sinks.map (·.latencySum) :=
    congrArg Counters.latencySum hc
  have hsumSq : c.latencySumSq.map UInt64.toNat = r.sinks.map (·.latencySumSq) :=
    congrArg Counters.latencySumSq hc
  have hcounter : (c.router.map UInt64.toNat)[(RouterCounter.ofArrival w.isLocal).index]? =
      some (if w.isLocal then r.localPackets else r.externalPackets) := by
    rw [hrouter]
    cases w.isLocal <;> rfl
  have hsink : ∀ f : SinkTally → Nat, (r.sinks.map f)[w.sink]? = some (f t) := by
    intro f
    rw [Array.getElem?_map, ht]
    rfl
  have htally : t.fits = true :=
    SinkTally.fits_iff.2 ((Receiver.fits_iff.1 hr).sinks t (Array.mem_toList_iff.2
      (Array.mem_of_getElem? ht)))
  have hfits := Receiver.fits_take_iff hr ht (n.time payload random).1
  rw [SinkTally.fits_iff] at hfits htally
  unfold take?
  cases payload with
  | false =>
    refine Gives.iff ((addAt?_gives hcounter rfl).bind fun _ router hrouter' =>
      (addAt?_gives (hreceived ▸ hsink (·.received)) rfl).bind fun _ received hreceived' =>
        .done trivial ⟨?_, rfl⟩) ?_
    · show { c.numbers with
        router := router.map UInt64.toNat
        received := received.map UInt64.toNat } = _
      rw [hrouter', hreceived', hc, hrouter, hreceived]
      exact (Counters.ofHalves_take_none snd r w recorded).symm
    · rw [hfits]
      simp [Network.time, SinkTally.take, htally]
  | true =>
    have hlatency : (n.time true random) =
        (some (n.delay.toNat + (n.extra random).1.toNat), (n.extra random).2) := by
      unfold Network.time
      rw [n.latency_eq]
      rfl
    rw [hlatency] at hfits ⊢
    refine Gives.iff ((addAt?_gives hcounter rfl).bind fun _ router hrouter' =>
      (addAt?_gives (hreceived ▸ hsink (·.received)) rfl).bind fun _ received hreceived' =>
      (add32?_gives _ _).bind fun _ time htime =>
      (addAt?_gives (hsum ▸ hsink (·.latencySum)) ((UInt32.toNat_toUInt64 time).trans htime)).bind
        fun _ sum hsum' =>
      (mul64?_gives time).bind fun _ square hsquare =>
      (addAt?_gives (hsumSq ▸ hsink (·.latencySumSq)) (hsquare.trans (by rw [htime]))).bind_pure
        fun sumSq hsumSq' => ⟨?_, rfl⟩) ?_
    · show { c.numbers with
        router := router.map UInt64.toNat
        received := received.map UInt64.toNat
        latencySum := sum.map UInt64.toNat
        latencySumSq := sumSq.map UInt64.toNat } = _
      rw [hrouter', hreceived', hsum', hsumSq', hc, hrouter, hreceived, hsum, hsumSq]
      exact (Counters.ofHalves_take_some snd r w _ recorded).symm
    · rw [hfits]
      simp only [SinkTally.take, Option.mem_def, Option.some_inj, forall_eq']
      constructor
      · rintro ⟨hcount, hreceived, htime, hsum, -, hsumSq⟩
        exact ⟨hcount, ⟨hreceived, hsum, hsumSq⟩, htime⟩
      · rintro ⟨hcount, ⟨hreceived, hsum, hsumSq⟩, htime⟩
        exact ⟨hcount, hreceived, htime, hsum, trivial, hsumSq⟩

end

end WordCounters

end TrafficLab
