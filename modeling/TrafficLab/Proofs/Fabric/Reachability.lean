import Mathlib.Data.List.Perm.Subperm
import Mathlib.Logic.Relation
import TrafficLab.Proofs.Fabric.Placement

/-!
# Connected regions

There is a route between two declared regions if and only if a chain of links leads from one to the
other, and a route passes through the region that it starts from.

A search spreads out from the target, and what it has seen is closed under links except at the
outermost level.  So it has met the start, or goes on to regions that it has not seen, or has seen
everything that is connected to the target.  Levels do not run out, as each holds another declared
region.

    regions and their links are declared →
      ((between regions links a b).isSome ↔ Connected links a b)        (isSome_between)
    between regions links a b = some path → a ∈ path                    (start_mem_between)
    the regions of a multicast are those on the routes to its targets   (mem_multicastRegions)
-/

namespace TrafficLab

namespace Route

/-! ## Chains of links -/

/-- A link joins the two regions. -/
def Linked (links : List Link) (r s : RegionId) : Prop := s(r, s) ∈ links.map Link.ends

/-- A chain of links leads from one region to the other. -/
def Connected (links : List Link) : RegionId → RegionId → Prop :=
  Relation.ReflTransGen (Linked links)

variable {links : List Link}

theorem Linked.symm {r s : RegionId} (h : Linked links r s) : Linked links s r := by
  unfold Linked
  rw [Sym2.eq_swap]
  exact h

theorem Connected.symm {r s : RegionId} (h : Connected links r s) : Connected links s r := by
  induction h with
  | refl => exact .refl
  | tail _ hlast ih => exact .head hlast.symm ih

/-- What is closed under links holds everything that is connected to what it holds. -/
theorem Connected.mem {seen : List RegionId}
    (hclosed : ∀ r ∈ seen, ∀ s, Linked links r s → s ∈ seen) {r s : RegionId} (hr : r ∈ seen)
    (h : Connected links r s) : s ∈ seen := by
  induction h with
  | refl => exact hr
  | tail _ hlast ih => exact hclosed _ ih _ hlast

/-! ## Levels -/

theorem mem_nextLevel {seen level : List RegionId} {s : RegionId} :
    s ∈ nextLevel links seen level ↔ (∃ r ∈ level, Linked links r s) ∧ s ∉ seen := by
  unfold nextLevel
  simp [mem_neighbours, Linked]

theorem nodup_eraseDups : (l : List RegionId) → l.eraseDups.Nodup
  | [] => by simp
  | r :: rest => by
    rw [List.eraseDups_cons, List.nodup_cons, List.mem_eraseDups, List.mem_filter]
    refine ⟨?_, nodup_eraseDups (rest.filter fun s => !s == r)⟩
    rintro ⟨-, hr⟩
    simp at hr
termination_by l => l.length
decreasing_by exact Nat.lt_succ_of_le (List.length_filter_le _ _)

/-- Where a search stands that has spread out from the target up to `level`. -/
structure Spread (regions : List RegionId) (links : List Link) (start target : RegionId)
    (seen level : List RegionId) : Prop where
  nodup : seen.Nodup
  declared : seen ⊆ regions
  target_seen : target ∈ seen
  level_seen : level ⊆ seen
  connected : ∀ r ∈ level, Connected links r target
  /-- Regions inside the level are not the start, and their links lead to what has been seen. -/
  inside : ∀ r ∈ seen, r ∉ level → r ≠ start ∧ ∀ s, Linked links r s → s ∈ seen

namespace Spread

variable {regions : List RegionId} {start target : RegionId} {seen level : List RegionId}

theorem init (h : target ∈ regions) : Spread regions links start target [target] [target] where
  nodup := List.nodup_singleton _
  declared := by simpa using h
  target_seen := List.mem_cons_self
  level_seen := List.Subset.refl _
  connected := by
    intro r hr
    rw [List.mem_singleton.1 hr]
    exact .refl
  inside := fun r hr hlevel => absurd hr hlevel

variable (h : Spread regions links start target seen level)

include h

theorem length_seen_le : seen.length ≤ regions.length :=
  (h.nodup.subperm h.declared).length_le

/-- The links of a seen region lead to what has been seen or to the next level. -/
theorem seen_or_next {r s : RegionId} (hr : r ∈ seen) (hlink : Linked links r s) :
    s ∈ nextLevel links seen level ++ seen := by
  by_cases hs : s ∈ seen
  · exact List.mem_append_right _ hs
  · by_cases hlevel : r ∈ level
    · exact List.mem_append_left _ (mem_nextLevel.2 ⟨⟨r, hlevel, hlink⟩, hs⟩)
    · exact absurd ((h.inside r hr hlevel).2 s hlink) hs

theorem next (hlinks : ∀ l ∈ links, l.a ∈ regions ∧ l.b ∈ regions) (hstart : start ∉ level) :
    Spread regions links start target (nextLevel links seen level ++ seen)
      (nextLevel links seen level) where
  nodup := by
    rw [List.nodup_append]
    refine ⟨nodup_eraseDups _, h.nodup, fun r hr s hs he => ?_⟩
    exact (mem_nextLevel.1 hr).2 (he ▸ hs)
  declared := by
    intro s hs
    rcases List.mem_append.1 hs with hs | hs
    · obtain ⟨⟨r, -, hlink⟩, -⟩ := mem_nextLevel.1 hs
      exact of_mem_neighbours (· ∈ regions) hlinks (mem_neighbours.2 hlink)
    · exact h.declared hs
  target_seen := List.mem_append_right _ h.target_seen
  level_seen := List.subset_append_left _ _
  connected := by
    intro s hs
    obtain ⟨⟨r, hr, hlink⟩, -⟩ := mem_nextLevel.1 hs
    exact .head hlink.symm (h.connected r hr)
  inside := by
    intro r hr hnext
    have hr : r ∈ seen := (List.mem_append.1 hr).resolve_left hnext
    refine ⟨?_, fun s => h.seen_or_next hr⟩
    by_cases hlevel : r ∈ level
    · rintro rfl
      exact hstart hlevel
    · exact (h.inside r hr hlevel).1

/-- A search that cannot go on has missed the start because no chain of links leads to it. -/
theorem not_connected (hstart : start ∉ level) (hnext : nextLevel links seen level = []) :
    ¬Connected links start target := by
  intro hconnected
  have hclosed : ∀ r ∈ seen, ∀ s, Linked links r s → s ∈ seen := by
    intro r hr s hlink
    have hs := h.seen_or_next hr hlink
    rwa [hnext, List.nil_append] at hs
  have hseen : start ∈ seen := hconnected.symm.mem hclosed h.target_seen
  exact (h.inside start hseen hstart).1 rfl

end Spread

theorem isSome_levels {regions : List RegionId}
    (hlinks : ∀ l ∈ links, l.a ∈ regions ∧ l.b ∈ regions) {start target : RegionId}
    {fuel : Nat} {seen level : List RegionId} {inner : List (List RegionId)}
    (h : Spread regions links start target seen level)
    (hfuel : regions.length < fuel + seen.length) :
    (levels links start fuel seen inner level).isSome ↔ Connected links start target := by
  induction fuel generalizing seen level inner with
  | zero =>
    have := h.length_seen_le
    omega
  | succ fuel ih =>
    unfold levels
    by_cases hstart : start ∈ level
    · simp only [hstart, if_true, Option.isSome_some, true_iff]
      exact h.connected start hstart
    · simp only [hstart, if_false]
      split
      · next hnext => simpa using h.not_connected hstart hnext
      · next hnext =>
        -- a level that is not empty makes up for the step
        have hpos := List.length_pos_of_ne_nil hnext
        refine ih (h.next hlinks hstart) ?_
        rw [List.length_append]
        omega

theorem isSome_between {regions : List RegionId} {a b : RegionId}
    (hlinks : ∀ l ∈ links, l.a ∈ regions ∧ l.b ∈ regions) (hb : b ∈ regions) :
    (between regions links a b).isSome ↔ Connected links a b :=
  isSome_levels hlinks (.init hb) (by rw [List.length_singleton]; omega)

/-! ## The first region of a route -/

theorem start_mem_descend {r : RegionId} {inner : List (List RegionId)} :
    r ∈ descend links r inner := by
  cases inner with
  | nil => simp [descend]
  | cons level nearer =>
    unfold descend
    split <;> simp

theorem start_mem_levels {start : RegionId} {fuel : Nat} {seen level path : List RegionId}
    {inner : List (List RegionId)} (h : levels links start fuel seen inner level = some path) :
    start ∈ path := by
  induction fuel generalizing seen inner level with
  | zero => cases h
  | succ fuel ih =>
    unfold levels at h
    split at h
    · cases h
      exact start_mem_descend
    · split at h
      · cases h
      · exact ih h

theorem start_mem_between {regions path : List RegionId} {a b : RegionId}
    (h : between regions links a b = some path) : a ∈ path :=
  start_mem_levels h

end Route

/-! ## Connected cores -/

/-- A chain of links leads from the region of one core to that of the other. -/
def Placement.Connects (p : Placement) (src dst : CoreId) : Prop :=
  ∃ a b, ⟨src, a⟩ ∈ p.cores ∧ ⟨dst, b⟩ ∈ p.cores ∧ Route.Connected p.links a b

namespace Fabric

variable (f : Fabric)

theorem regionsBetween_eq_some {src dst : CoreId} {path : List RegionId} :
    f.regionsBetween src dst = some path ↔
      ∃ a b, ⟨src, a⟩ ∈ f.placement.cores ∧ ⟨dst, b⟩ ∈ f.placement.cores ∧
        Route.between f.placement.regionIds f.placement.links a b = some path := by
  simp only [regionsBetween, Option.bind_eq_bind, Option.bind_eq_some_iff, regionOf_eq_some]
  grind

theorem isSome_regionsBetween {src dst : CoreId} :
    (f.regionsBetween src dst).isSome ↔ f.placement.Connects src dst := by
  have hbetween : ∀ {a b}, ⟨dst, b⟩ ∈ f.placement.cores →
      ((Route.between f.placement.regionIds f.placement.links a b).isSome ↔
        Route.Connected f.placement.links a b) :=
    fun hb => Route.isSome_between (fun l hl => (f.sound.links l hl).2) (f.sound.cores _ hb)
  rw [Option.isSome_iff_exists]
  constructor
  · rintro ⟨path, hpath⟩
    obtain ⟨a, b, ha, hb, hpath⟩ := f.regionsBetween_eq_some.1 hpath
    exact ⟨a, b, ha, hb, (hbetween hb).1 (Option.isSome_of_eq_some hpath)⟩
  · rintro ⟨a, b, ha, hb, hconnected⟩
    obtain ⟨path, hpath⟩ := Option.isSome_iff_exists.1 ((hbetween hb).2 hconnected)
    exact ⟨path, f.regionsBetween_eq_some.2 ⟨a, b, ha, hb, hpath⟩⟩

theorem exists_multicastRegions {src : CoreId} {dsts : List CoreId} (hsome : dsts ≠ [])
    (h : ∀ dst ∈ dsts, f.placement.Connects src dst) :
    ∃ rs, f.multicastRegions src dsts = some rs := by
  obtain ⟨first, hfirst⟩ := List.exists_mem_of_ne_nil dsts hsome
  obtain ⟨a, -, ha, -⟩ := h first hfirst
  obtain ⟨routes, hroutes, -⟩ :=
    Checked.exists_mapM fun dst hdst => f.isSome_regionsBetween.2 (h dst hdst)
  refine ⟨KeySet.ofList (a :: routes.flatten), ?_⟩
  simp [multicastRegions, f.regionOf_eq_some.2 ha, hroutes]

/-- A multicast passes through the regions on the routes to its targets, and no others. -/
theorem mem_multicastRegions {src : CoreId} {dsts : List CoreId} (hsome : dsts ≠ [])
    {rs : KeySet RegionId} (h : f.multicastRegions src dsts = some rs) {r : RegionId} :
    r ∈ rs.keys ↔ ∃ dst ∈ dsts, ∃ path, f.regionsBetween src dst = some path ∧ r ∈ path := by
  simp only [multicastRegions, Option.bind_eq_bind, Option.bind_eq_some_iff] at h
  obtain ⟨a, ha, routes, hroutes, h⟩ := h
  cases h
  rw [KeySet.mem_keys_ofList, List.mem_cons, List.mem_flatten]
  constructor
  · rintro (rfl | ⟨path, hpath, hr⟩)
    · -- the region of the source is on the route to any target
      obtain ⟨first, hfirst⟩ := List.exists_mem_of_ne_nil dsts hsome
      obtain ⟨path, hpath⟩ :=
        Option.isSome_iff_exists.1 (Checked.isSome_of_mapM_eq_some hroutes first hfirst)
      refine ⟨first, hfirst, path, hpath, ?_⟩
      obtain ⟨a, b, ha', -, hpath⟩ := f.regionsBetween_eq_some.1 hpath
      rw [← f.regionOf_eq_some, ha] at ha'
      cases ha'
      exact Route.start_mem_between hpath
    · obtain ⟨dst, hdst, hroute⟩ := Checked.mem_of_mapM_eq_some hroutes hpath
      exact ⟨dst, hdst, path, hroute, hr⟩
  · rintro ⟨dst, hdst, path, hpath, hr⟩
    obtain ⟨route, hroute, he⟩ :=
      Checked.exists_of_forall₂ (Checked.mapM_eq_some.1 hroutes).flip hdst
    rw [hpath] at he
    cases he
    exact .inr ⟨path, hroute, hr⟩

end Fabric

end TrafficLab
