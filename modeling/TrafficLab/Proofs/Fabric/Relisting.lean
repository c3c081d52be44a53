import Mathlib.Data.List.Perm.Basic
import TrafficLab.Proofs.Fabric.Placement

/-!
# Placements listed in another order

No answer of a fabric depends on the order in which its placement lists regions, links, cores and
endpoints, or on which end of a link is named first.  Routes in particular do not: each level that
they spread out to has the same regions, and each step down goes to the lowest-numbered.

    p.Relisted q → p.Sound → q.Sound                                  (Relisted.sound)
    the links join the same regions → between … = between …           (between_congr)
    the placements are relisted → every answer is the same            (multicastRegions_congr)
-/

namespace TrafficLab

/-! ## Routes -/

namespace Route

/-- Two lists of regions with the same members. -/
def Alike (l m : List RegionId) : Prop := ∀ r, r ∈ l ↔ r ∈ m

theorem Alike.eq_nil_iff {l m : List RegionId} (h : Alike l m) : l = [] ↔ m = [] := by
  rw [List.eq_nil_iff_forall_not_mem, List.eq_nil_iff_forall_not_mem]
  simp only [h _]

theorem adjacent_iff {links : List Link} {r s : RegionId} :
    adjacent links r s = true ↔ s(r, s) ∈ links.map Link.ends := by
  have hends : ∀ l : Link, ((l.a = r ∧ l.b = s) ∨ (l.b = r ∧ l.a = s)) ↔ l.ends = s(r, s) := by
    intro l
    unfold Link.ends
    rw [Sym2.eq_iff]
    grind
  unfold adjacent
  rw [List.any_eq_true, List.mem_map]
  simp only [decide_eq_true_iff, hends]

theorem lowest?_eq_none {l : List RegionId} : lowest? l = none ↔ l = [] := by
  cases l with
  | nil => simp [lowest?]
  | cons a rest =>
    unfold lowest?
    split <;> simp

theorem lowest?_le {l : List RegionId} {r : RegionId} (h : lowest? l = some r) :
    ∀ s ∈ l, r.val ≤ s.val := by
  induction l generalizing r with
  | nil => simp
  | cons a rest ih =>
    intro s hs
    unfold lowest? at h
    split at h
    · next t ht =>
      have hrest := ih ht
      cases h
      split
      · next hlt =>
        rcases List.mem_cons.1 hs with rfl | hs
        · exact UInt32.le_of_lt hlt
        · exact hrest s hs
      · next hle =>
        rcases List.mem_cons.1 hs with rfl | hs
        · exact UInt32.le_refl _
        · exact UInt32.le_trans (UInt32.not_lt.1 hle) (hrest s hs)
    · next hnone =>
      cases h
      rw [lowest?_eq_none.1 hnone, List.mem_singleton] at hs
      rw [hs]
      exact UInt32.le_refl _

theorem Alike.lowest?_eq {l m : List RegionId} (h : Alike l m) : lowest? l = lowest? m := by
  cases hlow : lowest? l with
  | none => exact (lowest?_eq_none.2 (h.eq_nil_iff.1 (lowest?_eq_none.1 hlow))).symm
  | some r =>
    cases hlow' : lowest? m with
    | none =>
      rw [lowest?_eq_none.2 (h.eq_nil_iff.2 (lowest?_eq_none.1 hlow'))] at hlow
      cases hlow
    | some s =>
      have hrs : r.val ≤ s.val := lowest?_le hlow s ((h s).2 (lowest?_mem hlow'))
      have hsr : s.val ≤ r.val := lowest?_le hlow' r ((h r).1 (lowest?_mem hlow))
      rw [show r = s from congrArg Id.mk (UInt32.le_antisymm hrs hsr)]

section
variable {links others : List Link}
  (hl : ∀ e, e ∈ links.map Link.ends ↔ e ∈ others.map Link.ends)

include hl

theorem adjacent_congr : adjacent links = adjacent others := by
  funext r s
  rw [Bool.eq_iff_iff, adjacent_iff, adjacent_iff, hl]

theorem alike_nextLevel {seen seen' level level' : List RegionId} (hseen : Alike seen seen')
    (hlevel : Alike level level') :
    Alike (nextLevel links seen level) (nextLevel others seen' level') := by
  intro r
  unfold nextLevel
  have hnew : seen.contains r = seen'.contains r := by
    rw [Bool.eq_iff_iff, List.contains_iff_mem, List.contains_iff_mem]
    exact hseen r
  simp only [List.mem_eraseDups, List.mem_filter, List.mem_flatMap, mem_neighbours, hl,
    hlevel _, hnew]

theorem descend_congr (r : RegionId) {inner inner' : List (List RegionId)}
    (h : List.Forall₂ Alike inner inner') : descend links r inner = descend others r inner' := by
  induction h generalizing r with
  | nil => rfl
  | @cons level level' nearer nearer' hlevel _ ih =>
    have hnear : Alike (level.filter (adjacent links r)) (level'.filter (adjacent others r)) := by
      intro s
      rw [List.mem_filter, List.mem_filter, hlevel s, adjacent_congr hl]
    unfold descend
    rw [hnear.lowest?_eq]
    split
    · next s hs => rw [ih]
    · rfl

/-- A level may list its regions in another order, but they are the same, as are all inside it. -/
theorem levels_congr {start : RegionId} {fuel : Nat} {seen seen' level level' : List RegionId}
    {inner inner' : List (List RegionId)} (hseen : Alike seen seen')
    (hinner : List.Forall₂ Alike inner inner') (hlevel : Alike level level') :
    levels links start fuel seen inner level = levels others start fuel seen' inner' level' := by
  induction fuel generalizing seen seen' level level' inner inner' with
  | zero => rfl
  | succ fuel ih =>
    have hnext := alike_nextLevel hl hseen hlevel
    unfold levels
    by_cases hstart : start ∈ level
    · rw [if_pos hstart, if_pos ((hlevel start).1 hstart), descend_congr hl start hinner]
    · rw [if_neg hstart, if_neg fun h => hstart ((hlevel start).2 h)]
      cases hn : nextLevel links seen level with
      | nil => rw [hnext.eq_nil_iff.1 hn]
      | cons s rest =>
        cases hn' : nextLevel others seen' level' with
        | nil =>
          rw [hnext.eq_nil_iff.2 hn'] at hn
          cases hn
        | cons s' rest' =>
          rw [hn, hn'] at hnext
          refine ih ?_ (.cons hlevel hinner) hnext
          intro r
          rw [List.mem_append, List.mem_append, hnext r, hseen r]

end

theorem between_congr {regions regions' : List RegionId} {links links' : List Link}
    (hr : regions.length = regions'.length)
    (hl : ∀ e, e ∈ links.map Link.ends ↔ e ∈ links'.map Link.ends) (a b : RegionId) :
    between regions links a b = between regions' links' a b := by
  have hsame : Alike [b] [b] := fun _ => Iff.rfl
  unfold between
  rw [hr]
  exact levels_congr hl hsame .nil hsame

end Route

/-! ## Placements -/

/-- Placements that say the same and differ at most by the order in which they list it, and by the
ends of links that they name first. -/
structure Placement.Relisted (p q : Placement) : Prop where
  regions : p.regions.Perm q.regions
  links : (p.links.map Link.ends).Perm (q.links.map Link.ends)
  cores : p.cores.Perm q.cores
  endpoints : p.endpoints.Perm q.endpoints

namespace Placement.Relisted

variable {p q : Placement} (h : p.Relisted q)

include h

theorem symm : q.Relisted p :=
  ⟨h.regions.symm, h.links.symm, h.cores.symm, h.endpoints.symm⟩

theorem regionIds : p.regionIds.Perm q.regionIds := h.regions.map _

theorem coreIds : p.coreIds.Perm q.coreIds := h.cores.map _

theorem sound (hp : p.Sound) : q.Sound where
  keyBits r hr := hp.keyBits r (h.regions.mem_iff.2 hr)
  regions := h.regionIds.nodup_iff.1 hp.regions
  links l hl := by
    obtain ⟨m, hm, hends⟩ := List.mem_map.1 (h.links.mem_iff.2 (List.mem_map_of_mem hl))
    obtain ⟨hne, ha, hb⟩ := hp.links m hm
    rw [h.regionIds.mem_iff] at ha hb
    rcases Sym2.eq_iff.1 hends with ⟨hma, hmb⟩ | ⟨hma, hmb⟩
    · rw [← hma, ← hmb]
      exact ⟨hne, ha, hb⟩
    · rw [← hma, ← hmb]
      exact ⟨hne.symm, hb, ha⟩
  ends := h.links.nodup_iff.1 hp.ends
  cores c hc := h.regionIds.mem_iff.1 (hp.cores c (h.cores.mem_iff.2 hc))
  coreIds := h.coreIds.nodup_iff.1 hp.coreIds
  endpoints e he := h.coreIds.mem_iff.1 (hp.endpoints e (h.endpoints.mem_iff.2 he))
  endpointIds := (h.endpoints.map _).nodup_iff.1 hp.endpointIds

end Placement.Relisted

/-! ## Fabrics -/

namespace Fabric

/-- Nothing is wrong with a placement that is listed in another order. -/
theorem exists_ofPlacement {f : Fabric} {q : Placement} (h : f.placement.Relisted q) :
    ∃ g, ofPlacement q = .ok g ∧ f.placement.Relisted g.placement := by
  have hq : q.fault? = none := Placement.fault?_eq_none.2 (h.sound f.sound)
  exact ⟨⟨q, hq⟩, ofPlacement_eq_ok.2 rfl, h⟩

variable {f g : Fabric} (h : f.placement.Relisted g.placement)

include h

theorem coreOf_congr (e : EndpointId) : f.coreOf e = g.coreOf e := by
  refine Option.ext fun c => ?_
  rw [coreOf_eq_some, coreOf_eq_some, h.endpoints.mem_iff]

theorem regionOf_congr (c : CoreId) : f.regionOf c = g.regionOf c := by
  refine Option.ext fun r => ?_
  rw [regionOf_eq_some, regionOf_eq_some, h.cores.mem_iff]

theorem keyBits_congr : f.keyBits = g.keyBits := by
  funext r
  refine Option.ext fun bits => ?_
  rw [keyBits_eq_some, keyBits_eq_some, h.regions.mem_iff]

theorem regionsBetween_congr (src dst : CoreId) :
    f.regionsBetween src dst = g.regionsBetween src dst := by
  have hlength : f.placement.regionIds.length = g.placement.regionIds.length :=
    h.regionIds.length_eq
  unfold regionsBetween
  rw [regionOf_congr h src, regionOf_congr h dst]
  simp only [Route.between_congr hlength fun _ => h.links.mem_iff]

/-- A multicast passes through the same regions in whatever order its targets are listed. -/
theorem multicastRegions_congr {src : CoreId} {dsts dsts' : List CoreId} {rs : KeySet RegionId}
    (hd : dsts.Perm dsts') (hf : f.multicastRegions src dsts = some rs) :
    g.multicastRegions src dsts' = some rs := by
  have hbetween : f.regionsBetween src = g.regionsBetween src :=
    funext (regionsBetween_congr h src)
  simp only [multicastRegions, Option.bind_eq_bind, Option.bind_eq_some_iff] at hf ⊢
  obtain ⟨a, ha, routes, hroutes, hrs⟩ := hf
  rw [hbetween, Checked.mapM_eq_some] at hroutes
  obtain ⟨routes', hroutes', hperm⟩ := List.perm_comp_forall₂ hd.symm hroutes
  refine ⟨a, regionOf_congr h src ▸ ha, routes', Checked.mapM_eq_some.2 hroutes', ?_⟩
  rw [← hrs, Option.some_inj]
  refine KeySet.ext_keys fun r => ?_
  simp only [KeySet.mem_keys_ofList, List.mem_cons, List.mem_flatten, hperm.mem_iff]

end Fabric

end TrafficLab
