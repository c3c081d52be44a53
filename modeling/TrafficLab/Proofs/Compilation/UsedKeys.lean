import TrafficLab.Proofs.Compilation.LeastKeys

/-!
# Keys from the sets of used indices

Keys can be given out with a set of used indices for each region.  A flow takes the first index that
is in none of the sets of its regions, and puts it into all of them.

The set of a region holds what earlier flows have there (`Tracks`), so an index is in none of the
sets of a flow if and only if no earlier flow with a common region has it.

    no region uses an index ↔ it is not taken in the regions     (Tracks.free_iff)
    the narrowest of all regions = narrowest?                    (fewest?_eq)
    the first index that no region uses = leastFree?             (find?_free)
    allocate = assign, with the keys in a table                  (allocate_eq_assign)
-/

namespace TrafficLab

open Checked

instance : Keyed UInt32 where
  rank := UInt32.toNat
  rank_inj := UInt32.toNat_inj.1

namespace UsedKeys

/-! ## Algorithm -/

/-- The indices that are used in a region. -/
abbrev Used := Table RegionId (KeySet UInt32)

/-- No region uses the index. -/
def free (used : Used) (regions : List RegionId) (index : UInt32) : Bool :=
  regions.all fun r => match used.get? r with
    | none => true
    | some indices => !indices.contains index

def use (index : UInt32) (used : Used) (r : RegionId) : Used :=
  used.insert r (((used.get? r).getD .empty).add index)

/-- Fewer bits, or as many and a lower number. -/
def narrower (x y : RegionId × UInt8) : Bool :=
  x.2 < y.2 || (x.2 == y.2 && x.1.val < y.1.val)

def narrowerOf (best x : RegionId × UInt8) : RegionId × UInt8 := if narrower x best then x else best

/-- The narrowest of some regions with their bits; the first is kept until one is narrower. -/
def fewest? : List (RegionId × UInt8) → Option (RegionId × UInt8)
  | [] => none
  | first :: rest => some (rest.foldl narrowerOf first)

def choose (fabric : Fabric) (used : Used) (flow : RoutedFlow) : Except CompileError UInt32 :=
  let regions := flow.route.regions.keys
  match fewest? (regions.filterMap fun r => (fabric.keyBits r).map fun bits => (r, bits)) with
  | none => .error (.keySpaceExhausted flow.id ⟨0⟩ 0)
  | some (region, bits) =>
    let capacity : UInt64 := 1 <<< bits.toUInt64
    match ((List.range capacity.toNat).map UInt32.ofNat).find? (free used regions) with
    | none => .error (.keySpaceExhausted flow.id region bits)
    | some index => .ok index

/-- Gives every flow its key, and keeps the keys under the flows' identifiers. -/
def allocate (fabric : Fabric) :
    Used → Table FlowId RoutingKey → List RoutedFlow →
      Except CompileError (Table FlowId RoutingKey)
  | _, keys, [] => .ok keys
  | used, keys, flow :: rest => do
    let index ← choose fabric used flow
    allocate fabric (flow.route.regions.keys.foldl (use index) used)
      (keys.insert flow.id (.ofIndex index)) rest

/-! ## The narrowest region -/

theorem narrower_iff {x y : RegionId × UInt8} :
    narrower x y = true ↔ x.2 < y.2 ∨ x.2 = y.2 ∧ x.1.val < y.1.val := by
  unfold narrower
  rw [Bool.or_eq_true, Bool.and_eq_true, decide_eq_true_iff, beq_iff_eq, decide_eq_true_iff]

theorem not_narrower_self (x : RegionId × UInt8) : narrower x x = false := by
  rw [Bool.eq_false_iff, ne_eq, narrower_iff]
  rintro (h | ⟨-, h⟩)
  · exact UInt8.lt_irrefl _ h
  · exact UInt32.lt_irrefl _ h

theorem not_narrower_trans {x y z : RegionId × UInt8} (hxy : narrower x y = false)
    (hyz : narrower y z = false) : narrower x z = false := by
  rw [Bool.eq_false_iff, ne_eq, narrower_iff] at *
  simp only [UInt8.lt_iff_toNat_lt, UInt32.lt_iff_toNat_lt, ← UInt8.toNat_inj] at *
  omega

theorem not_narrower_narrowerOf (best x : RegionId × UInt8) :
    narrower best (narrowerOf best x) = false ∧ narrower x (narrowerOf best x) = false := by
  unfold narrowerOf
  split
  · next h =>
    refine ⟨?_, not_narrower_self x⟩
    rw [narrower_iff] at h
    rw [Bool.eq_false_iff, ne_eq, narrower_iff]
    simp only [UInt8.lt_iff_toNat_lt, UInt32.lt_iff_toNat_lt, ← UInt8.toNat_inj] at *
    omega
  · next h => exact ⟨not_narrower_self best, Bool.eq_false_iff.2 h⟩

theorem foldl_narrowerOf (rest : List (RegionId × UInt8)) (first : RegionId × UInt8) :
    rest.foldl narrowerOf first ∈ first :: rest ∧
      ∀ x ∈ first :: rest, narrower x (rest.foldl narrowerOf first) = false := by
  induction rest generalizing first with
  | nil =>
    refine ⟨List.mem_singleton_self first, fun x hx => ?_⟩
    rw [List.mem_singleton.1 hx]
    exact not_narrower_self first
  | cons y rest ih =>
    obtain ⟨hmem, hleast⟩ := ih (narrowerOf first y)
    obtain ⟨hfirst, hy⟩ := not_narrower_narrowerOf first y
    have hkept := hleast _ List.mem_cons_self
    rw [List.foldl_cons]
    refine ⟨?_, fun x hx => ?_⟩
    · rcases List.mem_cons.1 hmem with he | hmem
      · rw [he, narrowerOf]
        split <;> simp
      · exact List.mem_cons_of_mem _ (List.mem_cons_of_mem _ hmem)
    · rcases List.mem_cons.1 hx with rfl | hx
      · exact not_narrower_trans hfirst hkept
      · rcases List.mem_cons.1 hx with rfl | hx
        · exact not_narrower_trans hy hkept
        · exact hleast x (List.mem_cons_of_mem _ hx)

/-- The scan over the regions of a flow that has been placed finds the narrowest. -/
theorem fewest?_eq {fabric : Fabric} {flow : RoutedFlow} (hp : flow.route.Placed fabric) :
    fewest? (flow.route.regions.keys.filterMap fun r =>
        (fabric.keyBits r).map fun bits => (r, bits)) =
      Keys.narrowest? fabric.keyBits flow.route.regions.keys := by
  obtain ⟨region, bits, hbest, hnarrowest⟩ := Keys.exists_narrowest hp
  rw [hbest]
  generalize hcandidates : flow.route.regions.keys.filterMap (fun r =>
    (fabric.keyBits r).map fun bits => (r, bits)) = candidates
  have hmem : ∀ r n, (r, n) ∈ candidates ↔
      r ∈ flow.route.regions.keys ∧ fabric.keyBits r = some n := by
    intro r n
    simp only [← hcandidates, List.mem_filterMap, Option.map_eq_some_iff, Prod.mk.injEq]
    constructor
    · rintro ⟨_, hr, _, hbits, rfl, rfl⟩
      exact ⟨hr, hbits⟩
    · rintro ⟨hr, hbits⟩
      exact ⟨r, hr, n, hbits, rfl, rfl⟩
  have hregion : (region, bits) ∈ candidates :=
    (hmem region bits).2 ⟨hnarrowest.mem, hnarrowest.keyBits⟩
  cases candidates with
  | nil => exact nomatch hregion
  | cons first rest =>
    obtain ⟨hfound, hleast⟩ := foldl_narrowerOf rest first
    show some (rest.foldl narrowerOf first) = _
    generalize rest.foldl narrowerOf first = found at hfound hleast
    obtain ⟨r, n⟩ := found
    obtain ⟨hr, hn⟩ := (hmem r n).1 hfound
    have hfound : Keys.Narrowest fabric flow r n := by
      refine ⟨hr, hn, fun s hs m hm => ?_, fun s hs hm => ?_⟩
      · have hnot := hleast (s, m) ((hmem s m).2 ⟨hs, hm⟩)
        rw [Bool.eq_false_iff, ne_eq, narrower_iff] at hnot
        exact UInt8.not_lt.1 fun hlt => hnot (.inl hlt)
      · have hnot := hleast (s, n) ((hmem s n).2 ⟨hs, hm⟩)
        rw [Bool.eq_false_iff, ne_eq, narrower_iff] at hnot
        exact UInt32.not_lt.1 fun hlt => hnot (.inr ⟨rfl, hlt⟩)
    obtain ⟨rfl, rfl⟩ := hfound.unique hnarrowest
    rfl

/-! ## The sets of the regions -/

/-- The regions use what is held in them. -/
def Tracks (used : Used) (held : List Keys.Holding) : Prop :=
  ∀ r index, (∃ indices, used.get? r = some indices ∧ index ∈ indices.keys) ↔
    ∃ h ∈ held, r ∈ h.regions.keys ∧ h.index = index.toNat

theorem tracks_empty : Tracks .empty [] := by
  intro r index
  simp

theorem mem_use {index i : UInt32} {used : Used} {r s : RegionId} :
    (∃ indices, (use index used s).get? r = some indices ∧ i ∈ indices.keys) ↔
      (r = s ∧ i = index) ∨ ∃ indices, used.get? r = some indices ∧ i ∈ indices.keys := by
  unfold use
  by_cases hr : r = s
  · subst hr
    rw [Table.get?_insert_self]
    simp only [Option.some.injEq, exists_eq_left', true_and, KeySet.add, Table.mem_keys_insert]
    refine or_congr_right ?_
    cases used.get? r <;> simp
  · rw [Table.get?_insert_of_ne _ hr]
    simp [hr]

theorem mem_foldl_use {index i : UInt32} {used : Used} {r : RegionId} (regions : List RegionId) :
    (∃ indices, (regions.foldl (use index) used).get? r = some indices ∧ i ∈ indices.keys) ↔
      (r ∈ regions ∧ i = index) ∨ ∃ indices, used.get? r = some indices ∧ i ∈ indices.keys := by
  induction regions generalizing used with
  | nil => simp
  | cons s rest ih =>
    rw [List.foldl_cons, ih, mem_use, List.mem_cons, or_and_right, or_left_comm, or_assoc]

/-- What a flow puts into the sets of its regions is what it then holds in them. -/
theorem Tracks.foldl_use {used : Used} {held : List Keys.Holding} (h : Tracks used held)
    (regions : KeySet RegionId) (index : UInt32) :
    Tracks (regions.keys.foldl (use index) used) (⟨regions, index.toNat⟩ :: held) := by
  intro r i
  rw [mem_foldl_use, h r i]
  simp only [List.mem_cons, or_and_right, exists_or, exists_eq_left]
  exact or_congr_left (and_congr_right fun _ => by rw [UInt32.toNat_inj, eq_comm])

theorem Tracks.free_iff {used : Used} {held : List Keys.Holding} (h : Tracks used held)
    {regions : KeySet RegionId} {index : UInt32} :
    free used regions.keys index = true ↔ index.toNat ∉ Keys.taken held regions := by
  have hset : ∀ r, (match used.get? r with
      | none => true
      | some indices => !indices.contains index) = true ↔
      ¬∃ indices, used.get? r = some indices ∧ index ∈ indices.keys := by
    intro r
    cases used.get? r with
    | none => simp
    | some indices => simp [← Table.contains_eq_true]
  unfold free Keys.taken
  simp only [List.all_eq_true, hset, h _ index, List.mem_map, List.mem_filter, Keys.overlap_iff]
  constructor
  · rintro hfree ⟨o, ⟨ho, r, hro, hr⟩, hindex⟩
    exact hfree r hr ⟨o, ho, hro, hindex⟩
  · rintro hfree r hr ⟨o, ho, hro, hindex⟩
    exact hfree ⟨o, ⟨ho, r, hro, hr⟩, hindex⟩

end UsedKeys

/-! ## The first index that no region uses -/

theorem Keys.find?_range {taken : List Nat} {limit : Nat} :
    (List.range limit).find? (fun i => !taken.contains i) = leastFree? taken limit := by
  cases hleast : leastFree? taken limit with
  | none =>
    have hall := leastFree?_eq_none_iff.1 hleast
    rw [List.find?_eq_none]
    intro i hi
    simpa using hall i (List.mem_range.1 hi)
  | some i =>
    obtain ⟨⟨hlt, hfree⟩, hbelow⟩ := leastFree?_eq_some_iff.1 hleast
    rw [List.find?_range_eq_some]
    refine ⟨by simpa using hfree, List.mem_range.2 hlt, fun j hj => ?_⟩
    by_contra htaken
    have hle : i ≤ j := hbelow ⟨by omega, by simpa using htaken⟩
    omega

namespace UsedKeys

theorem capacity_eq {bits : UInt8} (h : bits ≤ 24) :
    ((1 : UInt64) <<< bits.toUInt64).toNat = 2 ^ bits.toNat := by
  have hbits : bits.toNat ≤ 24 := UInt8.le_iff_toNat_le.1 h
  have hpow : 2 ^ bits.toNat ≤ 2 ^ 24 := Nat.pow_le_pow_right (by decide) hbits
  rw [UInt64.toNat_shiftLeft, UInt8.toNat_toUInt64, Nat.mod_eq_of_lt (by omega : bits.toNat < 64),
    Nat.shiftLeft_eq, UInt64.toNat_one, Nat.one_mul]
  exact Nat.mod_eq_of_lt (by omega)

theorem find?_free {used : Used} {held : List Keys.Holding} (h : Tracks used held)
    (regions : KeySet RegionId) {limit : Nat} (hlimit : limit ≤ UInt32.size) :
    ((List.range limit).map UInt32.ofNat).find? (free used regions.keys) =
      (Keys.leastFree? (Keys.taken held regions) limit).map UInt32.ofNat := by
  rw [List.find?_map, ← Keys.find?_range]
  have hfree : ∀ i ∈ List.range limit, (free used regions.keys ∘ UInt32.ofNat) i =
      !(Keys.taken held regions).contains i := by
    intro i hi
    have hlt := List.mem_range.1 hi
    have htoNat : (UInt32.ofNat i).toNat = i :=
      UInt32.toNat_ofNat_of_lt' (Nat.lt_of_lt_of_le hlt hlimit)
    rw [Bool.eq_iff_iff, Function.comp_apply, h.free_iff, htoNat]
    simp
  rw [← List.head?_filter, ← List.head?_filter, List.filter_congr hfree]

/-! ## Main result -/

section
variable {fabric : Fabric}

theorem choose_eq {used : Used} {held : List Keys.Holding} (h : Tracks used held)
    {flow : RoutedFlow} (hp : flow.route.Placed fabric) :
    choose fabric used flow = (Keys.choose fabric held flow).map UInt32.ofNat := by
  obtain ⟨region, bits, hbest, hnarrowest⟩ := Keys.exists_narrowest hp
  have hbits : bits ≤ 24 := fabric.keyBits_le hnarrowest.keyBits
  have hlimit : 2 ^ bits.toNat ≤ UInt32.size :=
    Nat.le_trans (Nat.pow_le_pow_right (by decide) (UInt8.le_iff_toNat_le.1 hbits)) (by decide)
  unfold choose Keys.choose
  simp only [fewest?_eq hp, hbest, capacity_eq hbits, find?_free h _ hlimit]
  cases Keys.leastFree? (Keys.taken held flow.route.regions) (2 ^ bits.toNat) <;> rfl

theorem allocate_eq {used : Used} {held : List Keys.Holding} (h : Tracks used held)
    {flows : List RoutedFlow} (hp : ∀ f ∈ flows, f.route.Placed fabric)
    (keys : Table FlowId RoutingKey) :
    allocate fabric used keys flows = (Keys.assign fabric held flows).map fun keyed =>
      keyed.foldl (fun t f => t.insert f.id f.key) keys := by
  induction flows generalizing used held keys with
  | nil => rfl
  | cons flow rest ih =>
    have hflow := hp flow List.mem_cons_self
    rw [allocate, Keys.assign, choose_eq h hflow]
    cases hchoose : Keys.choose fabric held flow with
    | error e => rfl
    | ok i =>
      obtain ⟨hfits, hindex⟩ := Keys.fits_of_choose hflow hchoose
      have htoNat : (UInt32.ofNat i).toNat = i := by
        refine UInt32.toNat_ofNat_of_lt' (Nat.lt_trans ?_ (by decide : 2 ^ 24 < UInt32.size))
        rw [← hindex]
        exact hfits.lt
      have hnext := h.foldl_use flow.route.regions (UInt32.ofNat i)
      rw [htoNat] at hnext
      refine (ih hnext (fun g hg => hp g (List.mem_cons_of_mem flow hg)) _).trans ?_
      simp only [bind, Except.bind]
      cases Keys.assign fabric (⟨flow.route.regions, i⟩ :: held) rest <;> rfl

/-- The flows of a valid specification get the same keys, or the same error, from sets of used
indices. -/
theorem allocate_eq_assign {s : Spec} {v : ValidSpec} (hv : s.validate = .ok v) :
    allocate v.fabric .empty .empty v.flows.values =
      (Keys.assign v.fabric [] v.flows.values).map fun keyed =>
        .ofList (keyed.map fun f => (f.id, f.key)) := by
  obtain ⟨-, hsound⟩ := Spec.sound_of_validate hv
  rw [allocate_eq tracks_empty fun f hf => (hsound.sound_of_mem hf).placed]
  unfold Table.ofList
  simp only [List.foldl_map]

end

end UsedKeys

end TrafficLab
