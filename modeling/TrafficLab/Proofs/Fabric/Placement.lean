import Mathlib.Data.List.Nodup
import Mathlib.Data.Sym.Sym2
import TrafficLab.Fabric
import TrafficLab.Proofs.Checked
import TrafficLab.Proofs.Table

/-!
# Placements without faults

What a fabric may rely on, and all that its check asks for: regions have between 1 and 24 key bits,
links join declared regions, cores are in declared regions and endpoints on declared cores, and
nothing is listed twice.  Every region on a route is therefore declared, and has key bits.

    p.fault? = none ↔ p.Sound                                           (fault?_eq_none)
    f.coreOf e = some c ↔ ⟨e, c⟩ ∈ f.placement.endpoints                (coreOf_eq_some)
    r ∈ path between a and b → r = a ∨ r = b ∨ r is an end of a link    (mem_between)
    f.multicastRegions src dsts = some rs → rs are all declared         (multicastRegions_eq_some)
-/

namespace TrafficLab

/-! ## The checks -/

/-- A check that goes along a list and remembers what it has seen finds no fault if every entry is
good by itself and clashes with none before it. -/
theorem fault?_eq_none_of_cons {α κ ε : Type} (fault? : List κ → List α → Option ε)
    (good : α → Prop) (key : α → κ) (clash : κ → κ → Prop) (hnil : ∀ seen, fault? seen [] = none)
    (hcons : ∀ seen a rest, fault? seen (a :: rest) = none ↔
      good a ∧ (∀ k ∈ seen, ¬clash k (key a)) ∧ fault? (key a :: seen) rest = none)
    (seen : List κ) (l : List α) :
    fault? seen l = none ↔ (∀ a ∈ l, good a) ∧ (∀ k ∈ seen, ∀ a ∈ l, ¬clash k (key a)) ∧
      (l.map key).Pairwise fun j k => ¬clash j k := by
  induction l generalizing seen with
  | nil => simp [hnil]
  | cons a rest ih =>
    rw [hcons, ih, List.map_cons, List.pairwise_cons]
    constructor
    · rintro ⟨hgood, hnew, hrest, hseen, hapart⟩
      refine ⟨?_, ?_, ?_, hapart⟩
      · intro b hb
        rcases List.mem_cons.1 hb with rfl | hb
        · exact hgood
        · exact hrest b hb
      · intro k hk b hb
        rcases List.mem_cons.1 hb with rfl | hb
        · exact hnew k hk
        · exact hseen k (List.mem_cons_of_mem _ hk) b hb
      · intro j hj
        obtain ⟨b, hb, rfl⟩ := List.mem_map.1 hj
        exact hseen (key a) List.mem_cons_self b hb
    · rintro ⟨hgood, hseen, hfirst, hapart⟩
      refine ⟨hgood a List.mem_cons_self, fun k hk => hseen k hk a List.mem_cons_self,
        fun b hb => hgood b (List.mem_cons_of_mem _ hb), ?_, hapart⟩
      intro k hk b hb
      rcases List.mem_cons.1 hk with rfl | hk
      · exact hfirst _ (List.mem_map_of_mem hb)
      · exact hseen k hk b (List.mem_cons_of_mem _ hb)

theorem regionFault?_eq_none {rs : List Region} : regionFault? [] rs = none ↔
    (∀ r ∈ rs, r.keyBits ≠ 0 ∧ r.keyBits ≤ maxKeyBits) ∧ (rs.map (·.id)).Nodup := by
  have hcons : ∀ seen r rest, regionFault? seen (r :: rest) = none ↔
      (r.keyBits ≠ 0 ∧ r.keyBits ≤ maxKeyBits) ∧ (∀ k ∈ seen, ¬k = r.id) ∧
        regionFault? (r.id :: seen) rest = none := by
    intro seen r rest
    rw [regionFault?]
    grind
  have h := fault?_eq_none_of_cons regionFault? _ _ _ (fun _ => rfl) hcons [] rs
  simpa [List.Nodup] using h

/-- The regions that a link joins. -/
def Link.ends (l : Link) : Sym2 RegionId := s(l.a, l.b)

theorem Link.sameEnds_eq_true {l m : Link} : l.sameEnds m = true ↔ m.ends = l.ends := by
  unfold sameEnds ends
  rw [decide_eq_true_iff, Sym2.eq_iff]
  constructor
  · rintro (⟨ha, hb⟩ | ⟨ha, hb⟩) <;> simp [ha, hb]
  · rintro (⟨ha, hb⟩ | ⟨ha, hb⟩) <;> simp [ha, hb]

theorem linkFault?_eq_none {declared : List RegionId} {ls : List Link} :
    linkFault? declared [] ls = none ↔
      (∀ l ∈ ls, l.a ≠ l.b ∧ l.a ∈ declared ∧ l.b ∈ declared) ∧ (ls.map Link.ends).Nodup := by
  have hcons : ∀ seen l rest, linkFault? declared seen (l :: rest) = none ↔
      (l.a ≠ l.b ∧ l.a ∈ declared ∧ l.b ∈ declared) ∧ (∀ k ∈ seen, ¬k.ends = l.ends) ∧
        linkFault? declared (l :: seen) rest = none := by
    intro seen l rest
    have hseen : seen.any l.sameEnds = true ↔ ∃ k ∈ seen, k.ends = l.ends := by
      simp only [List.any_eq_true, Link.sameEnds_eq_true]
    rw [linkFault?]
    grind
  have h := fault?_eq_none_of_cons (linkFault? declared) _ id (fun k l => k.ends = l.ends)
    (fun _ => rfl) hcons [] ls
  simpa [List.Nodup, List.pairwise_map] using h

theorem coreFault?_eq_none {declared : List RegionId} {cs : List Core} :
    coreFault? declared [] cs = none ↔
      (∀ c ∈ cs, c.region ∈ declared) ∧ (cs.map (·.id)).Nodup := by
  have hcons : ∀ seen c rest, coreFault? declared seen (c :: rest) = none ↔
      c.region ∈ declared ∧ (∀ k ∈ seen, ¬k = c.id) ∧
        coreFault? declared (c.id :: seen) rest = none := by
    intro seen c rest
    rw [coreFault?]
    grind
  have h := fault?_eq_none_of_cons (coreFault? declared) _ _ _ (fun _ => rfl) hcons [] cs
  simpa [List.Nodup] using h

theorem endpointFault?_eq_none {declared : List CoreId} {es : List Endpoint} :
    endpointFault? declared [] es = none ↔
      (∀ e ∈ es, e.core ∈ declared) ∧ (es.map (·.id)).Nodup := by
  have hcons : ∀ seen e rest, endpointFault? declared seen (e :: rest) = none ↔
      e.core ∈ declared ∧ (∀ k ∈ seen, ¬k = e.id) ∧
        endpointFault? declared (e.id :: seen) rest = none := by
    intro seen e rest
    rw [endpointFault?]
    grind
  have h := fault?_eq_none_of_cons (endpointFault? declared) _ _ _ (fun _ => rfl) hcons [] es
  simpa [List.Nodup] using h

/-- A placement in which nothing is wrong. -/
structure Placement.Sound (p : Placement) : Prop where
  keyBits : ∀ r ∈ p.regions, r.keyBits ≠ 0 ∧ r.keyBits ≤ maxKeyBits
  regions : p.regionIds.Nodup
  links : ∀ l ∈ p.links, l.a ≠ l.b ∧ l.a ∈ p.regionIds ∧ l.b ∈ p.regionIds
  /-- No two regions are linked twice. -/
  ends : (p.links.map Link.ends).Nodup
  cores : ∀ c ∈ p.cores, c.region ∈ p.regionIds
  coreIds : p.coreIds.Nodup
  endpoints : ∀ e ∈ p.endpoints, e.core ∈ p.coreIds
  endpointIds : (p.endpoints.map (·.id)).Nodup

theorem Placement.fault?_eq_none {p : Placement} : p.fault? = none ↔ p.Sound := by
  unfold Placement.fault?
  rw [Option.or_eq_none_iff, Option.or_eq_none_iff, Option.or_eq_none_iff, regionFault?_eq_none,
    linkFault?_eq_none, coreFault?_eq_none, endpointFault?_eq_none]
  constructor
  · rintro ⟨⟨hbits, hregions⟩, ⟨hlinks, hends⟩, ⟨hcores, hcoreIds⟩, hendpoints, hendpointIds⟩
    exact ⟨hbits, hregions, hlinks, hends, hcores, hcoreIds, hendpoints, hendpointIds⟩
  · intro h
    exact ⟨⟨h.keyBits, h.regions⟩, ⟨h.links, h.ends⟩, ⟨h.cores, h.coreIds⟩, h.endpoints,
      h.endpointIds⟩

/-! ## Routes -/

namespace Route

variable {links : List Link} (P : RegionId → Prop)

theorem lowest?_mem {rs : List RegionId} {r : RegionId} (h : lowest? rs = some r) : r ∈ rs := by
  induction rs generalizing r with
  | nil => simp [lowest?] at h
  | cons s rest ih =>
    unfold lowest? at h
    split at h
    · next t ht =>
      have := ih ht
      cases h
      split <;> simp [this]
    · cases h
      simp

theorem mem_neighbours {r s : RegionId} :
    s ∈ neighbours links r ↔ s(r, s) ∈ links.map Link.ends := by
  have hacross : ∀ l : Link, across r l = some s ↔ l.ends = s(r, s) := by
    intro l
    unfold across Link.ends
    rw [Sym2.eq_iff]
    grind
  unfold neighbours
  rw [List.mem_filterMap, List.mem_map]
  simp only [hacross]

theorem of_mem_neighbours (hends : ∀ l ∈ links, P l.a ∧ P l.b) {r s : RegionId}
    (h : s ∈ neighbours links r) : P s := by
  obtain ⟨l, hl, he⟩ := List.mem_map.1 (mem_neighbours.1 h)
  rcases Sym2.eq_iff.1 he with ⟨-, rfl⟩ | ⟨rfl, -⟩
  · exact (hends l hl).2
  · exact (hends l hl).1

theorem mem_descend {r s : RegionId} {inner : List (List RegionId)}
    (hin : ∀ level ∈ inner, ∀ t ∈ level, P t) (h : s ∈ descend links r inner) :
    s = r ∨ P s := by
  induction inner generalizing r with
  | nil => exact .inl (by simpa [descend] using h)
  | cons level nearer ih =>
    unfold descend at h
    split at h
    · next t ht =>
      have hPt : P t := hin level (by simp) t (List.mem_filter.1 (lowest?_mem ht)).1
      rcases List.mem_cons.1 h with h | h
      · exact .inl h
      · rcases ih (fun l hl => hin l (by simp [hl])) h with rfl | h
        · exact .inr hPt
        · exact .inr h
    · exact .inl (by simpa using h)

/-- Spreading out over links stays within what the links' ends satisfy. -/
theorem mem_levels (hends : ∀ l ∈ links, P l.a ∧ P l.b) {start s : RegionId} {fuel : Nat}
    {seen level : List RegionId} {inner : List (List RegionId)} {path : List RegionId}
    (hin : ∀ l ∈ inner, ∀ t ∈ l, P t) (hlevel : ∀ t ∈ level, P t)
    (h : levels links start fuel seen inner level = some path) (hs : s ∈ path) :
    s = start ∨ P s := by
  induction fuel generalizing seen inner level with
  | zero => simp [levels] at h
  | succ fuel ih =>
    unfold levels at h
    split at h
    · cases h
      exact mem_descend P hin hs
    · split at h
      · cases h
      · refine ih ?_ ?_ h
        · intro l hl
          rcases List.mem_cons.1 hl with rfl | hl
          · exact hlevel
          · exact hin l hl
        · intro t ht
          have ht := List.mem_eraseDups.1 ht
          obtain ⟨r, -, hr⟩ := List.mem_flatMap.1 (List.mem_filter.1 ht).1
          exact of_mem_neighbours P hends hr

theorem mem_between (hends : ∀ l ∈ links, P l.a ∧ P l.b) {regions path : List RegionId}
    {a b s : RegionId} (hb : P b) (h : between regions links a b = some path) (hs : s ∈ path) :
    s = a ∨ P s :=
  mem_levels P hends (by simp) (by simpa using hb) h hs

end Route

/-! ## Fabrics -/

/-- What is looked up by an identifier that entries do not share is that of the entry which has it.
-/
theorem map_find?_eq_some {α β : Type} {k : Named} {key : α → Id k} {val : α → β} {l : List α}
    (h : (l.map key).Nodup) {i : Id k} {b : β} :
    (l.find? fun x => key x = i).map val = some b ↔ ∃ a ∈ l, key a = i ∧ val a = b := by
  rw [Option.map_eq_some_iff]
  constructor
  · rintro ⟨a, hfind, rfl⟩
    exact ⟨a, List.mem_of_find?_eq_some hfind, by simpa using List.find?_some hfind, rfl⟩
  · rintro ⟨a, hm, rfl, rfl⟩
    cases hfind : l.find? fun x => key x = key a with
    | none => exact absurd (List.find?_eq_none.1 hfind a hm) (by simp)
    | some c =>
      have hc : key c = key a := by simpa using List.find?_some hfind
      exact ⟨c, rfl, by rw [List.inj_on_of_nodup_map h (List.mem_of_find?_eq_some hfind) hm hc]⟩

namespace Fabric

variable (f : Fabric)

theorem ofPlacement_eq_ok {p : Placement} {f : Fabric} :
    ofPlacement p = .ok f ↔ f.placement = p := by
  unfold ofPlacement
  split
  · next e he =>
    constructor
    · intro h
      cases h
    · rintro rfl
      rw [f.faultless] at he
      cases he
  · next hnone =>
    constructor
    · intro h
      cases h
      rfl
    · rintro rfl
      rfl

theorem sound : f.placement.Sound := Placement.fault?_eq_none.1 f.faultless

theorem coreOf_eq_some {e : EndpointId} {c : CoreId} :
    f.coreOf e = some c ↔ ⟨e, c⟩ ∈ f.placement.endpoints := by
  rw [coreOf, map_find?_eq_some f.sound.endpointIds]
  constructor
  · rintro ⟨endpoint, hm, rfl, rfl⟩
    exact hm
  · exact fun hm => ⟨_, hm, rfl, rfl⟩

theorem regionOf_eq_some {c : CoreId} {r : RegionId} :
    f.regionOf c = some r ↔ ⟨c, r⟩ ∈ f.placement.cores := by
  rw [regionOf, map_find?_eq_some f.sound.coreIds]
  constructor
  · rintro ⟨core, hm, rfl, rfl⟩
    exact hm
  · exact fun hm => ⟨_, hm, rfl, rfl⟩

theorem keyBits_eq_some {r : RegionId} {bits : UInt8} :
    f.keyBits r = some bits ↔ ⟨r, bits⟩ ∈ f.placement.regions := by
  rw [keyBits, map_find?_eq_some f.sound.regions]
  constructor
  · rintro ⟨region, hm, rfl, rfl⟩
    exact hm
  · exact fun hm => ⟨_, hm, rfl, rfl⟩

theorem regionOf_declared {c : CoreId} {r : RegionId} (h : f.regionOf c = some r) :
    r ∈ f.placement.regionIds :=
  f.sound.cores _ (f.regionOf_eq_some.1 h)

theorem keyBits_le {r : RegionId} {bits : UInt8} (h : f.keyBits r = some bits) :
    bits ≤ maxKeyBits :=
  (f.sound.keyBits _ (f.keyBits_eq_some.1 h)).2

theorem exists_keyBits {r : RegionId} (h : r ∈ f.placement.regionIds) :
    ∃ bits, f.keyBits r = some bits := by
  obtain ⟨region, hm, rfl⟩ := List.mem_map.1 h
  exact ⟨region.keyBits, f.keyBits_eq_some.2 hm⟩

theorem regionsBetween_declared {src dst : CoreId} {path : List RegionId}
    (h : f.regionsBetween src dst = some path) : ∀ r ∈ path, r ∈ f.placement.regionIds := by
  simp only [regionsBetween, Option.bind_eq_bind, Option.bind_eq_some_iff] at h
  obtain ⟨a, ha, b, hb, h⟩ := h
  intro r hr
  have hends : ∀ l ∈ f.placement.links,
      l.a ∈ f.placement.regionIds ∧ l.b ∈ f.placement.regionIds :=
    fun l hl => (f.sound.links l hl).2
  rcases Route.mem_between (· ∈ f.placement.regionIds) hends (f.regionOf_declared hb) h hr
    with rfl | hr
  · exact f.regionOf_declared ha
  · exact hr

/-- Multicast regions hold the region of the source, and declared regions alone. -/
theorem multicastRegions_eq_some {src : CoreId} {dsts : List CoreId} {rs : KeySet RegionId}
    (h : f.multicastRegions src dsts = some rs) :
    (∃ a ∈ rs.keys, f.regionOf src = some a) ∧ ∀ r ∈ rs.keys, r ∈ f.placement.regionIds := by
  simp only [multicastRegions, Option.bind_eq_bind, Option.bind_eq_some_iff] at h
  obtain ⟨a, ha, routes, hroutes, h⟩ := h
  cases h
  refine ⟨⟨a, by simp, ha⟩, fun r hr => ?_⟩
  rcases List.mem_cons.1 (KeySet.mem_keys_ofList.1 hr) with rfl | hr
  · exact f.regionOf_declared ha
  · obtain ⟨path, hpath, hr⟩ := List.mem_flatten.1 hr
    obtain ⟨dst, -, hdst⟩ := Checked.mem_of_mapM_eq_some hroutes hpath
    exact f.regionsBetween_declared hdst r hr

end Fabric

end TrafficLab
