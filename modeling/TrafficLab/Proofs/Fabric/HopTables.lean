import TrafficLab.Proofs.Fabric.ShortestRoutes
import TrafficLab.Proofs.Table

/-!
# Tables of next hops

Routes can be read off a table that is filled once for a fabric: for each region and each target,
the regions that a shortest chain of links can go on to.  A search from every target fills it.  The
search keeps a queue, the regions that it has discovered and how far away they are, and whenever a
link leads one farther away, it enters the link's near end for the far end.

The queue holds regions of one distance and then regions of the next (`Searched`), so each region is
discovered at its distance, and the entries of a region are the links over which it is left on the
way to the target.  Which neighbours are visited first does not matter, since entries are sorted.

    x is entered for r and target t ↔ a link from r to x comes nearer to t    (foldlM_search)
    the walk over lowest entries = the route down through the levels          (walk_eq)
    walk over the table = between, for every start                            (read_hopMatrix)
-/

namespace TrafficLab

namespace Route

/-! ## Table -/

/-- For each region and each target, the regions to go on to. -/
abbrev HopMatrix := Table RegionId (Table RegionId (List RegionId))

namespace HopMatrix

def nextHops? (m : HopMatrix) (r target : RegionId) : Option (List RegionId) :=
  (m.get? r).bind (·.get? target)

/-- Enters one more region for `r` and a target. -/
def push (m : HopMatrix) (r target next : RegionId) : HopMatrix :=
  let hops := (m.get? r).getD .empty
  m.insert r (hops.insert target ((hops.get? target).getD [] ++ [next]))

/-- Leaves out what is listed twice in a row. -/
def squeeze : List RegionId → List RegionId
  | r :: s :: rest => if r = s then squeeze (s :: rest) else r :: squeeze (s :: rest)
  | rest => rest

/-- The entries in ascending order, each once. -/
def settle (m : HopMatrix) : HopMatrix :=
  m.map fun _ hops => hops.map fun _ entries =>
    squeeze (entries.mergeSort fun r s => r.val ≤ s.val)

/-- Goes on from `r` over the lowest entries, until the target is met or there is no entry.  It
stops with `none` when it has taken all the steps that it may. -/
def walk (m : HopMatrix) (target : RegionId) :
    Nat → List RegionId → RegionId → Option (Option (List RegionId))
  | 0, _, _ => none
  | steps + 1, path, r =>
    if r = target then some (some path)
    else
      match (m.nextHops? r target).bind List.head? with
      | none => some none
      | some s => walk m target steps (path ++ [s]) s

end HopMatrix

/-! ## Search -/

/-- What a search goes on with. -/
structure Search where
  discovered : KeySet RegionId
  queue : List RegionId
  distances : Table RegionId Nat
  hops : HopMatrix

namespace Search

variable (target : RegionId) (neighbours : RegionId → List RegionId)

def start (hops : HopMatrix) : Search where
  discovered := KeySet.ofList [target]
  queue := [target]
  distances := Table.empty.insert target 0
  hops := hops

def discover (state : Search) (s : RegionId) (d : Nat) : Search :=
  { state with
    discovered := state.discovered.add s
    distances := state.distances.insert s d
    queue := state.queue ++ [s] }

/-- Takes in the neighbour `s` of `r`, which is `d` links away. -/
def visit (r : RegionId) (d : Nat) (state : Search) (s : RegionId) : Option Search :=
  let state := if state.discovered.contains s then state else state.discover s (d + 1)
  (state.distances.get? s).map fun e =>
    if e = d + 1 then { state with hops := state.hops.push s target r } else state

/-- Takes regions from the queue until it is empty. -/
def run : Nat → Search → Option Search
  | 0, _ => none
  | steps + 1, state =>
    match state.queue with
    | [] => some state
    | r :: rest => do
      let d ← state.distances.get? r
      let state ← (neighbours r).foldlM (visit target r d) { state with queue := rest }
      run steps state

end Search

/-- The table of some regions, by a search from each of them. -/
def hopMatrix (regions : List RegionId) (neighbours : RegionId → List RegionId) :
    Option HopMatrix := do
  let hops ← regions.foldlM
    (fun hops target =>
      (Search.run target neighbours (regions.length + 1) (.start target hops)).map (·.hops))
    .empty
  some hops.settle

/-! ## Entries -/

namespace HopMatrix

/-- What is entered for `r` and a target; without an entry, nothing. -/
def choices (m : HopMatrix) (r target : RegionId) : List RegionId := (m.nextHops? r target).getD []

@[simp] theorem choices_empty (r t : RegionId) : choices .empty r t = [] := rfl

theorem choices_push (m : HopMatrix) (r t next r' t' : RegionId) :
    (m.push r t next).choices r' t' =
      if r' = r ∧ t' = t then m.choices r t ++ [next] else m.choices r' t' := by
  unfold choices nextHops? push
  by_cases hr : r' = r
  · subst hr
    rw [Table.get?_insert_self, Option.bind_some]
    by_cases ht : t' = t
    · subst ht
      rw [Table.get?_insert_self, if_pos ⟨rfl, rfl⟩]
      cases m.get? r' <;> rfl
    · rw [Table.get?_insert_of_ne _ ht, if_neg fun h => ht h.2]
      cases m.get? r' <;> rfl
  · rw [Table.get?_insert_of_ne _ hr, if_neg fun h => hr h.1]

theorem head?_squeeze (l : List RegionId) : (squeeze l).head? = l.head? := by
  induction l with
  | nil => rfl
  | cons r rest ih =>
    cases rest with
    | nil => rfl
    | cons s rest =>
      unfold squeeze
      split
      · next h => rw [ih, h]; rfl
      · rfl

/-- The first of the sorted entries is the lowest. -/
theorem head?_settled (l : List RegionId) :
    (squeeze (l.mergeSort fun r s => r.val ≤ s.val)).head? = lowest? l := by
  have hperm := List.mergeSort_perm l fun r s => decide (r.val ≤ s.val)
  have hsorted : (l.mergeSort fun r s => r.val ≤ s.val).Pairwise fun r s => r.val ≤ s.val := by
    refine (List.pairwise_mergeSort (fun a b c hab hbc => ?_) (fun a b => ?_) l).imp
      of_decide_eq_true
    · exact decide_eq_true
        (UInt32.le_trans (of_decide_eq_true hab) (of_decide_eq_true hbc))
    · rw [Bool.or_eq_true, decide_eq_true_iff, decide_eq_true_iff]
      exact UInt32.le_total a.val b.val
  rw [head?_squeeze]
  cases hlow : lowest? l with
  | none =>
    rw [lowest?_eq_none.1 hlow, List.mergeSort_nil]
    rfl
  | some r =>
    obtain ⟨s, rest, hs⟩ := List.exists_cons_of_ne_nil
      (List.ne_nil_of_mem (hperm.mem_iff.2 (lowest?_mem hlow)))
    rw [hs] at hperm hsorted ⊢
    have hle := lowest?_le hlow s (hperm.mem_iff.1 List.mem_cons_self)
    -- the other way round, the head comes before the lowest
    have hge : s.val ≤ r.val := by
      rcases List.mem_cons.1 (hperm.mem_iff.2 (lowest?_mem hlow)) with rfl | hmem
      · exact UInt32.le_refl _
      · exact List.rel_of_pairwise_cons hsorted hmem
    exact congrArg some (congrArg Id.mk (UInt32.le_antisymm hge hle))

theorem head?_nextHops?_settle (m : HopMatrix) (r target : RegionId) :
    (m.settle.nextHops? r target).bind List.head? = lowest? (m.choices r target) := by
  unfold choices nextHops? settle
  rw [Table.get?_map]
  cases m.get? r with
  | none => rfl
  | some hops =>
    simp only [Option.map_some, Option.bind_some]
    rw [Table.get?_map]
    cases hops.get? target with
    | none => rfl
    | some entries => exact head?_settled entries

end HopMatrix

/-! ## A search goes by distance -/

section
variable {links : List Link} {target : RegionId} {before : HopMatrix}

/-- Where there is a chain, there is a shortest one. -/
theorem exists_away {r : RegionId} {path : List RegionId} (h : Leads links r target path) :
    ∃ n, n < path.length ∧ Away links target n r := by
  induction hlen : path.length using Nat.strong_induction_on generalizing path with
  | h len ih =>
    by_cases hshorter : ∃ other, Leads links r target other ∧ other.length < len
    · obtain ⟨other, hother, hlt⟩ := hshorter
      obtain ⟨n, hn, haway⟩ := ih _ hlt hother rfl
      exact ⟨n, by omega, haway⟩
    · have hpos := h.length_pos
      refine ⟨len - 1, by omega, ⟨path, h, by omega⟩, fun other hother => ?_⟩
      by_contra hlt
      exact hshorter ⟨other, hother, by omega⟩

/-- Where a search of the regions at distance `d` stands.  It is done with some regions, has others
to go on from at this distance and at the next, and has looked along some links. -/
structure Searched (links : List Link) (target : RegionId) (before : HopMatrix) (d : Nat)
    (done near far : List RegionId) (looked : List (RegionId × RegionId)) (state : Search) :
    Prop where
  queue : state.queue = near ++ far
  discovered : ∀ r, r ∈ state.discovered.keys ↔ r ∈ done ++ near ++ far
  distances : ∀ r e, state.distances.get? r = some e ↔
    r ∈ done ++ near ++ far ∧ Away links target e r
  nodup : (done ++ near ++ far).Nodup
  away : ∀ r ∈ done ++ near ++ far, ∃ e, Away links target e r
  near_away : ∀ r ∈ near, Away links target d r
  far_away : ∀ r ∈ far, Away links target (d + 1) r
  /-- What is no farther away has been discovered. -/
  inside : ∀ r e, e ≤ d → Away links target e r → r ∈ done ++ near ++ far
  looked_found : ∀ r s, (r, s) ∈ looked → Linked links r s ∧ s ∈ done ++ near ++ far
  /-- Entered are the links that have been looked along and lead one farther away. -/
  choices : ∀ r t x, x ∈ state.hops.choices r t ↔ x ∈ before.choices r t ∨
    t = target ∧ (x, r) ∈ looked ∧ ∃ e, Away links target e x ∧ Away links target (e + 1) r

variable (before) in
theorem searched_start :
    Searched links target before 0 [] [target] [] [] (.start target before) where
  queue := rfl
  discovered := by
    intro r
    rw [Search.start, KeySet.mem_keys_ofList]
    rfl
  distances := by
    intro r e
    show (Table.empty.insert target 0).get? r = some e ↔ r ∈ [target] ∧ _
    rw [List.mem_singleton]
    by_cases hr : r = target
    · subst hr
      rw [Table.get?_insert_self]
      constructor
      · rintro ⟨⟩
        exact ⟨rfl, Away.zero_iff.2 rfl⟩
      · rintro ⟨-, haway⟩
        rw [(Away.zero_iff.2 rfl).unique haway]
    · rw [Table.get?_insert_of_ne _ hr]
      simp [hr]
  nodup := List.nodup_singleton _
  away := by
    intro r hr
    rw [List.mem_singleton.1 hr]
    exact ⟨0, Away.zero_iff.2 rfl⟩
  near_away := by
    intro r hr
    rw [List.mem_singleton.1 hr]
    exact Away.zero_iff.2 rfl
  far_away := fun r hr => nomatch hr
  inside := by
    intro r e he haway
    obtain rfl : e = 0 := by omega
    rw [Away.zero_iff.1 haway]
    exact List.mem_singleton_self _
  looked_found := fun r s hlooked => nomatch hlooked
  choices := by
    intro r t x
    simp [Search.start]

namespace Searched

variable {d : Nat} {done near far : List RegionId} {looked : List (RegionId × RegionId)}
  {state : Search} {r s : RegionId}

/-- A search goes on from the first region in its queue. -/
theorem pop (h : Searched links target before d done (r :: near) far looked state) :
    Searched links target before d (done ++ [r]) near far looked
      { state with queue := near ++ far } := by
  have hfound := List.append_cons done r near
  have hdiscovered := h.discovered
  have hdistances := h.distances
  have hnodup := h.nodup
  have haway := h.away
  have hinside := h.inside
  have hlooked := h.looked_found
  rw [hfound] at hdiscovered hdistances hnodup haway hinside hlooked
  exact ⟨rfl, hdiscovered, hdistances, hnodup, haway,
    fun r hr => h.near_away r (List.mem_cons_of_mem _ hr), h.far_away, hinside, hlooked, h.choices⟩

/-- A region that has not been discovered yet is one farther away than the one it is next to. -/
theorem away_of_new (h : Searched links target before d done near far looked state)
    (hr : Away links target d r) (hlink : Linked links r s) (hs : s ∉ done ++ near ++ far) :
    Away links target (d + 1) s := by
  obtain ⟨path, hpath, hlen⟩ := hr.reached
  refine ⟨⟨s :: path, hpath.cons hlink.symm, by simp [hlen]⟩, fun other hother => ?_⟩
  by_contra hlt
  obtain ⟨e, he, haway⟩ := exists_away hother
  exact hs (h.inside s e (by omega) haway)

theorem discover (h : Searched links target before d done near far looked state)
    (hs : s ∉ done ++ near ++ far) (haway : Away links target (d + 1) s) :
    Searched links target before d done near (far ++ [s]) looked (state.discover s (d + 1)) where
  queue := by rw [Search.discover, h.queue, List.append_assoc]
  discovered := by
    intro t
    rw [Search.discover, KeySet.add, Table.mem_keys_insert, h.discovered, ← List.append_assoc,
      List.mem_append (s := done ++ near ++ far), List.mem_singleton, or_comm]
  distances := by
    intro t e
    rw [Search.discover, ← List.append_assoc, List.mem_append, List.mem_singleton]
    by_cases ht : t = s
    · subst ht
      rw [Table.get?_insert_self]
      constructor
      · rintro ⟨⟩
        exact ⟨.inr rfl, haway⟩
      · rintro ⟨-, he⟩
        rw [haway.unique he]
    · rw [Table.get?_insert_of_ne _ ht, h.distances]
      simp [ht]
  nodup := by
    rw [← List.append_assoc, List.nodup_append]
    refine ⟨h.nodup, List.nodup_singleton s, fun t ht u hu he => hs ?_⟩
    rw [← List.mem_singleton.1 hu, ← he]
    exact ht
  away := by
    intro t ht
    rw [← List.append_assoc, List.mem_append, List.mem_singleton] at ht
    rcases ht with ht | rfl
    · exact h.away t ht
    · exact ⟨_, haway⟩
  near_away := h.near_away
  far_away := by
    intro t ht
    rcases List.mem_append.1 ht with ht | ht
    · exact h.far_away t ht
    · rw [List.mem_singleton.1 ht]
      exact haway
  inside := by
    intro t e he ht
    rw [← List.append_assoc]
    exact List.mem_append_left _ (h.inside t e he ht)
  looked_found := by
    intro t u hlooked
    rw [← List.append_assoc]
    exact (h.looked_found t u hlooked).imp_right (List.mem_append_left _)
  choices := h.choices

/-- Along a link to a discovered region, the link is entered if it leads one farther away. -/
theorem enter (h : Searched links target before d done near far looked state)
    (hr : Away links target d r) (hlink : Linked links r s) (hs : s ∈ done ++ near ++ far) {e : Nat}
    (he : Away links target e s) :
    Searched links target before d done near far ((r, s) :: looked)
      (if e = d + 1 then { state with hops := state.hops.push s target r } else state) := by
  have hlooked : ∀ t u, (t, u) ∈ (r, s) :: looked → Linked links t u ∧ u ∈ done ++ near ++ far := by
    intro t u htu
    rcases List.mem_cons.1 htu with htu | htu
    · obtain ⟨rfl, rfl⟩ := Prod.mk.inj htu
      exact ⟨hlink, hs⟩
    · exact h.looked_found t u htu
  -- the link leads one farther away exactly if this is the distance of its far end
  have hfarther : (∃ k, Away links target k r ∧ Away links target (k + 1) s) ↔ e = d + 1 := by
    constructor
    · rintro ⟨k, hk, hk'⟩
      rw [he.unique hk', hk.unique hr]
    · rintro rfl
      exact ⟨d, hr, he⟩
  split
  · next heq =>
    refine ⟨h.queue, h.discovered, h.distances, h.nodup, h.away, h.near_away, h.far_away, h.inside,
      hlooked, fun t u x => ?_⟩
    rw [HopMatrix.choices_push]
    by_cases htu : t = s ∧ u = target
    · obtain ⟨rfl, rfl⟩ := htu
      rw [if_pos ⟨rfl, rfl⟩, List.mem_append, h.choices, List.mem_singleton, List.mem_cons,
        Prod.mk.injEq]
      constructor
      · rintro ((hx | hx) | rfl)
        · exact .inl hx
        · exact .inr ⟨rfl, .inr hx.2.1, hx.2.2⟩
        · exact .inr ⟨rfl, .inl ⟨rfl, rfl⟩, hfarther.2 heq⟩
      · rintro (hx | ⟨-, ⟨rfl, -⟩ | hx, haway⟩)
        · exact .inl (.inl hx)
        · exact .inr rfl
        · exact .inl (.inr ⟨rfl, hx, haway⟩)
    · rw [if_neg htu, h.choices]
      refine or_congr_right (and_congr_right fun hu => and_congr_left fun _ => ?_)
      rw [List.mem_cons, Prod.mk.injEq]
      exact ⟨.inr, fun hx => hx.resolve_left fun hx => htu ⟨hx.2, hu⟩⟩
  · next hne =>
    refine ⟨h.queue, h.discovered, h.distances, h.nodup, h.away, h.near_away, h.far_away, h.inside,
      hlooked, fun t u x => ?_⟩
    rw [h.choices]
    refine or_congr_right (and_congr_right fun _ => and_congr_left fun haway => ?_)
    rw [List.mem_cons, Prod.mk.injEq]
    refine ⟨.inr, fun hx => hx.resolve_left ?_⟩
    rintro ⟨rfl, rfl⟩
    exact hne (hfarther.1 haway)

theorem visit (h : Searched links target before d done near far looked state)
    (hr : Away links target d r) (hlink : Linked links r s) :
    ∃ far' state', Search.visit target r d state s = some state' ∧
      Searched links target before d done near far' ((r, s) :: looked) state' := by
  unfold Search.visit
  dsimp only
  by_cases hs : s ∈ done ++ near ++ far
  · obtain ⟨e, he⟩ := h.away s hs
    rw [if_pos (Table.contains_eq_true.2 ((h.discovered s).2 hs)),
      (h.distances s e).2 ⟨hs, he⟩, Option.map_some]
    exact ⟨far, _, rfl, h.enter hr hlink hs he⟩
  · have haway := h.away_of_new hr hlink hs
    have hnew := h.discover hs haway
    have hfound : s ∈ done ++ near ++ (far ++ [s]) := by simp
    rw [if_neg fun hc => hs ((h.discovered s).1 (Table.contains_eq_true.1 hc)),
      (hnew.distances s (d + 1)).2 ⟨hfound, haway⟩, Option.map_some]
    exact ⟨far ++ [s], _, rfl, hnew.enter hr hlink hfound haway⟩

theorem visits {ss : List RegionId}
    (h : Searched links target before d done near far looked state) (hr : Away links target d r)
    (hlinks : ∀ s ∈ ss, Linked links r s) :
    ∃ far' looked' state', ss.foldlM (Search.visit target r d) state = some state' ∧
      Searched links target before d done near far' looked' state' ∧ looked ⊆ looked' ∧
      ∀ s ∈ ss, (r, s) ∈ looked' := by
  induction ss generalizing far looked state with
  | nil => exact ⟨far, looked, state, rfl, h, List.Subset.refl _, fun s hs => nomatch hs⟩
  | cons s rest ih =>
    obtain ⟨far', state', hstate, h'⟩ := h.visit hr (hlinks s List.mem_cons_self)
    obtain ⟨far'', looked', state'', hstates, h'', hsub, hrest⟩ :=
      ih h' fun t ht => hlinks t (List.mem_cons_of_mem _ ht)
    refine ⟨far'', looked', state'', ?_, h'', fun p hp => hsub (List.mem_cons_of_mem _ hp), ?_⟩
    · rw [List.foldlM_cons, hstate]
      exact hstates
    · intro t ht
      rcases List.mem_cons.1 ht with rfl | ht
      · exact hsub List.mem_cons_self
      · exact hrest t ht

/-- A search that is done with the regions at one distance goes on to those at the next. -/
theorem advance (h : Searched links target before d done [] far looked state)
    (hclosed : ∀ r ∈ done, ∀ s, Linked links r s → (r, s) ∈ looked) :
    Searched links target before (d + 1) done far [] looked state := by
  have hfound : done ++ [] ++ far = done ++ far ++ [] := by simp
  have hdiscovered := h.discovered
  have hdistances := h.distances
  have hnodup := h.nodup
  have haway := h.away
  have hlooked := h.looked_found
  have hinside : ∀ r e, e ≤ d + 1 → Away links target e r → r ∈ done ++ [] ++ far := by
    intro r e he hr
    rcases Nat.lt_or_eq_of_le he with hlt | rfl
    · exact h.inside r e (by omega) hr
    · obtain ⟨path, hpath, hlen⟩ := hr.reached
      obtain ⟨s, rest, -, hlink, -, hs⟩ := hr.tail hpath hlen
      have hmem := h.inside s d (Nat.le_refl d) hs
      rw [List.append_nil] at hmem
      rcases List.mem_append.1 hmem with hdone | hfar
      · exact (hlooked s r (hclosed s hdone r hlink.symm)).2
      · have := (h.far_away s hfar).unique hs
        omega
  rw [hfound] at hdiscovered hdistances hnodup haway hlooked hinside
  exact ⟨by rw [h.queue, List.nil_append, List.append_nil], hdiscovered, hdistances, hnodup, haway,
    h.far_away, fun r hr => (nomatch hr), hinside, hlooked, h.choices⟩

/-- A search with an empty queue has been everywhere that the target can be reached from. -/
theorem exhausted (h : Searched links target before d done [] [] looked state)
    (hclosed : ∀ r ∈ done, ∀ s, Linked links r s → (r, s) ∈ looked) {e : Nat}
    (hr : Away links target e r) : r ∈ done := by
  induction e generalizing r with
  | zero => simpa using h.inside r 0 (Nat.zero_le d) hr
  | succ e ih =>
    obtain ⟨path, hpath, hlen⟩ := hr.reached
    obtain ⟨s, rest, -, hlink, -, hs⟩ := hr.tail hpath hlen
    simpa using (h.looked_found s r (hclosed s (ih hs) r hlink.symm)).2

end Searched

/-! ## The whole table -/

variable {regions : List RegionId} {neighbours : RegionId → List RegionId}

theorem mem_of_away (hlinks : ∀ l ∈ links, l.a ∈ regions ∧ l.b ∈ regions)
    (htarget : target ∈ regions) {n : Nat} {r : RegionId} (h : Away links target n r) :
    r ∈ regions := by
  obtain ⟨path, hpath, -⟩ := h.reached
  rcases hpath.cases with ⟨-, rfl⟩ | ⟨s, rest, -, hlink, -⟩
  · exact htarget
  · exact of_mem_neighbours (· ∈ regions) hlinks (mem_neighbours.2 hlink.symm)

/-- The links over which `r` is left on the way to a target. -/
def Nearer (links : List Link) (target r x : RegionId) : Prop :=
  Linked links x r ∧ ∃ e, Away links target e x ∧ Away links target (e + 1) r

/-- A search comes to an end, and has entered every link that leads one farther away. -/
theorem run_search (hneighbours : ∀ r s, s ∈ neighbours r ↔ Linked links r s)
    (hlinks : ∀ l ∈ links, l.a ∈ regions ∧ l.b ∈ regions) (htarget : target ∈ regions)
    {steps d : Nat} {done near far : List RegionId} {looked : List (RegionId × RegionId)}
    {state : Search} (h : Searched links target before d done near far looked state)
    (hclosed : ∀ r ∈ done, ∀ s, Linked links r s → (r, s) ∈ looked)
    (hsteps : regions.length < steps + done.length) :
    ∃ state', Search.run target neighbours steps state = some state' ∧
      ∀ r t x, x ∈ state'.hops.choices r t ↔
        x ∈ before.choices r t ∨ t = target ∧ Nearer links target r x := by
  induction steps generalizing d done near far looked state with
  | zero =>
    -- every region that is done with is another declared one
    have hle := (h.nodup.subperm fun r hr =>
      (h.away r hr).elim fun e => mem_of_away hlinks htarget).length_le
    rw [List.length_append, List.length_append] at hle
    omega
  | succ steps ih =>
    have hgo : ∀ {d near far r}, Searched links target before d done (r :: near) far looked state →
        ∃ state', Search.run target neighbours (steps + 1) state = some state' ∧
          ∀ r t x, x ∈ state'.hops.choices r t ↔
            x ∈ before.choices r t ∨ t = target ∧ Nearer links target r x := by
      intro d near far r h
      have hr := h.near_away r List.mem_cons_self
      have hmem : r ∈ done ++ (r :: near) ++ far := by simp
      obtain ⟨far', looked', state', hstate, h', hsub, hall⟩ :=
        h.pop.visits hr fun s => (hneighbours r s).1
      obtain ⟨final, hfinal, hchoices⟩ := ih h' (by
          intro t ht s hlink
          rcases List.mem_append.1 ht with ht | ht
          · exact hsub (hclosed t ht s hlink)
          · obtain rfl := List.mem_singleton.1 ht
            exact hall s ((hneighbours t s).2 hlink))
        (by rw [List.length_append, List.length_singleton]; omega)
      refine ⟨final, ?_, hchoices⟩
      unfold Search.run
      rw [h.queue, List.cons_append]
      simp only [(h.distances r d).2 ⟨hmem, hr⟩, Option.bind_eq_bind, Option.bind_some, hstate]
      exact hfinal
    cases near with
    | cons r near => exact hgo h
    | nil =>
      cases far with
      | cons r far => exact hgo (h.advance hclosed)
      | nil =>
        refine ⟨state, ?_, fun r t x => ?_⟩
        · unfold Search.run
          rw [h.queue]
          rfl
        · rw [h.choices]
          refine or_congr_right (and_congr_right fun _ => ?_)
          constructor
          · rintro ⟨hlooked, haway⟩
            exact ⟨(h.looked_found x r hlooked).1, haway⟩
          · rintro ⟨hlink, e, hx, hr⟩
            exact ⟨hclosed x (h.exhausted hclosed hx) r hlink, e, hx, hr⟩

variable (before) in
/-- Searching from one region after another enters the links that lead nearer to each of them. -/
theorem foldlM_search (hneighbours : ∀ r s, s ∈ neighbours r ↔ Linked links r s)
    (hlinks : ∀ l ∈ links, l.a ∈ regions ∧ l.b ∈ regions) {targets : List RegionId}
    (htargets : targets ⊆ regions) :
    ∃ m, targets.foldlM (fun hops target =>
        (Search.run target neighbours (regions.length + 1) (.start target hops)).map (·.hops))
        before = some m ∧
      ∀ r t x, x ∈ m.choices r t ↔
        x ∈ before.choices r t ∨ t ∈ targets ∧ Nearer links t r x := by
  induction targets generalizing before with
  | nil => exact ⟨before, rfl, fun r t x => by simp⟩
  | cons target rest ih =>
    obtain ⟨state, hstate, hchoices⟩ := run_search hneighbours hlinks
      (htargets List.mem_cons_self) (searched_start before) (fun r hr => nomatch hr)
      (Nat.lt_add_one regions.length : regions.length < regions.length + 1 + 0)
    obtain ⟨m, hm, hrest⟩ := ih state.hops fun t ht => htargets (List.mem_cons_of_mem _ ht)
    refine ⟨m, ?_, fun r t x => ?_⟩
    · rw [List.foldlM_cons, hstate]
      exact hm
    · rw [hrest, hchoices, List.mem_cons, or_assoc]
      refine or_congr_right ?_
      constructor
      · rintro (⟨rfl, hnearer⟩ | ⟨ht, hnearer⟩)
        · exact ⟨.inl rfl, hnearer⟩
        · exact ⟨.inr ht, hnearer⟩
      · rintro ⟨rfl | ht, hnearer⟩
        · exact .inl ⟨rfl, hnearer⟩
        · exact .inr ⟨ht, hnearer⟩

/-- The walk over the lowest entries goes down through the levels. -/
theorem walk_eq {m : HopMatrix} (hm : ∀ r x, x ∈ m.choices r target ↔ Nearer links target r x)
    {inner : List (List RegionId)} (h : Layers links target inner) {r : RegionId}
    (hr : Away links target inner.length r) {steps : Nat} (hsteps : inner.length < steps)
    (front : List RegionId) :
    m.settle.walk target steps (front ++ [r]) r =
      some (some (front ++ descend links r inner)) := by
  induction h generalizing r steps front with
  | nil =>
    obtain ⟨steps, rfl⟩ := Nat.exists_eq_add_of_lt hsteps
    obtain rfl : r = target := Away.zero_iff.1 hr
    unfold HopMatrix.walk
    rw [if_pos rfl]
    rfl
  | @cons level inner hlevel hinner ih =>
    obtain ⟨steps, rfl⟩ : ∃ n, steps = n + 1 := ⟨steps - 1, by omega⟩
    obtain ⟨s, hdescend, hlink, hs, hlowest⟩ := descend_succ (.cons hlevel hinner) hr
    have hne : r ≠ target := by
      rintro rfl
      exact nomatch hr.unique (Away.zero_iff.2 rfl)
    have hentered : s ∈ m.choices r target := (hm r s).2 ⟨hlink.symm, _, hs, hr⟩
    have hhead : lowest? (m.choices r target) = some s := by
      cases hlow : lowest? (m.choices r target) with
      | none =>
        rw [lowest?_eq_none.1 hlow] at hentered
        exact nomatch hentered
      | some t =>
        obtain ⟨hlink', e, he, he'⟩ := (hm r t).1 (lowest?_mem hlow)
        obtain rfl : e = inner.length := Nat.succ.inj (he'.unique hr)
        exact congrArg some (congrArg Id.mk (UInt32.le_antisymm (lowest?_le hlow s hentered)
          (hlowest t hlink'.symm he)))
    unfold HopMatrix.walk
    rw [if_neg hne, HopMatrix.head?_nextHops?_settle, hhead]
    dsimp only
    rw [ih hs (by simpa using hsteps), hdescend, List.append_assoc]
    rfl

end

theorem Leads.connected {links : List Link} {a b : RegionId} {path : List RegionId}
    (h : Leads links a b path) : Connected links a b := by
  induction path generalizing a with
  | nil => exact nomatch h.first
  | cons r rest ih =>
    rcases h.cases with ⟨-, rfl⟩ | ⟨s, others, heq, hlink, hrest⟩
    · exact .refl
    · obtain ⟨-, rfl⟩ := List.cons.inj heq
      exact .head hlink (ih hrest)

/-- On regions and links without a fault, the table of next hops is filled whatever the order in
which neighbours are visited, and routes can be read off it. -/
theorem read_hopMatrix {p : Placement}
    (h : (regionFault? [] p.regions).or (linkFault? p.regionIds [] p.links) = none)
    {neighbours : RegionId → List RegionId}
    (hneighbours : ∀ r s, s ∈ neighbours r ↔ Linked p.links r s) :
    ∃ m, hopMatrix p.regionIds neighbours = some m ∧ ∀ a, ∀ b ∈ p.regionIds,
      m.walk b (p.regionIds.length + 1) [a] a = some (between p.regionIds p.links a b) := by
  obtain ⟨-, hlinks⟩ := Option.or_eq_none_iff.1 h
  have hdeclared : ∀ l ∈ p.links, l.a ∈ p.regionIds ∧ l.b ∈ p.regionIds :=
    fun l hl => ((linkFault?_eq_none.1 hlinks).1 l hl).2
  obtain ⟨m, hm, hchoices⟩ :=
    foldlM_search .empty hneighbours hdeclared (List.Subset.refl _)
  refine ⟨m.settle, by rw [hopMatrix, hm]; rfl, fun a b hb => ?_⟩
  have hentered : ∀ r x, x ∈ m.choices r b ↔ Nearer p.links b r x := by
    intro r x
    simp [hchoices, hb]
  cases hbetween : between p.regionIds p.links a b with
  | none =>
    have hconnected : ¬Connected p.links a b := by
      rw [← isSome_between hdeclared hb, hbetween]
      exact Bool.false_ne_true
    have hne : a ≠ b := by
      rintro rfl
      exact hconnected .refl
    have hnone : m.choices a b = [] := by
      refine List.eq_nil_iff_forall_not_mem.2 fun x hx => hconnected ?_
      obtain ⟨-, e, -, ha⟩ := (hentered a x).1 hx
      obtain ⟨path, hpath, -⟩ := ha.reached
      exact hpath.connected
    unfold HopMatrix.walk
    rw [if_neg hne, HopMatrix.head?_nextHops?_settle, hnone]
    rfl
  | some path =>
    obtain ⟨inner, hlayers, ha, rfl⟩ := exists_layers_of_levels layered_init hbetween
    -- the route passes through declared regions, and through none of them twice
    have hlen := ((nodup_descend hlayers ha).subperm fun r hr =>
      (away_of_mem_descend hlayers ha hr).elim fun n hn =>
        mem_of_away hdeclared hb hn.2).length_le
    rw [(leads_descend hlayers ha).2] at hlen
    exact walk_eq hentered hlayers ha (by omega) []

end Route

end TrafficLab
