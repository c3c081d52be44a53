import Mathlib.Data.List.Forall2
import Mathlib.Data.List.Nodup
import Mathlib.Data.List.Perm.Subperm
import TrafficLab.Table

/-!
# Tables: entries, keys and look-up

A table's entries are what look-up finds, and no key occurs twice.

    (k, x) ∈ t.entries ↔ t.get? k = some x                          (mem_entries)
    the keys of l differ → ((ofList l).get? k = some x ↔ (k, x) ∈ l)    (get?_ofList)
    ofList t.entries = t                                            (ofList_entries)
    k ∈ (KeySet.ofList ks).keys ↔ k ∈ ks                            (mem_keys_ofList)
-/

namespace TrafficLab

open Keyed (rank rank_inj)

namespace Table

variable {κ α β : Type} [Keyed κ]

/-! ## Entries -/

theorem findEntry_eq_some {k : κ} {x : α} {l : List (κ × α)} (h : Ascending l) :
    findEntry k l = some x ↔ (k, x) ∈ l := by
  induction l with
  | nil => simp [findEntry]
  | cons head rest ih =>
    obtain ⟨j, y⟩ := head
    have hr := List.pairwise_cons.1 h
    have ih := ih hr.2
    simp only [findEntry, List.mem_cons, Prod.mk.injEq]
    split
    · next he =>
      have hjk : j = k := rank_inj he
      subst hjk
      have hnot : (j, x) ∉ rest := by
        intro hm
        have := hr.1 (j, x) hm
        exact Nat.lt_irrefl _ this
      simp [hnot, eq_comm]
    · next hne =>
      have hjk : k ≠ j := fun e => hne (by rw [e])
      simp [hjk, ih]

theorem mem_entries {t : Table κ α} {k : κ} {x : α} : (k, x) ∈ t.entries ↔ t.get? k = some x :=
  (findEntry_eq_some t.ascending).symm

theorem pairwise_keys (t : Table κ α) : t.keys.Pairwise fun a b => rank a < rank b := by
  unfold keys
  rw [List.pairwise_map]
  exact t.ascending

theorem keys_nodup (t : Table κ α) : t.keys.Nodup := by
  refine t.pairwise_keys.imp fun {a b} h e => ?_
  rw [e] at h
  exact Nat.lt_irrefl _ h

/-- What comes before an entry of a table is what has a lower key. -/
theorem mem_before_iff {t : Table κ α} {before after : List κ} {k : κ}
    (h : t.keys = before ++ k :: after) {j : κ} : j ∈ before ↔ j ∈ t.keys ∧ rank j < rank k := by
  have hsorted := t.pairwise_keys
  rw [h, List.pairwise_append, List.pairwise_cons] at hsorted
  obtain ⟨-, ⟨hafter, -⟩, hbefore⟩ := hsorted
  rw [h]
  constructor
  · intro hj
    exact ⟨by simp [hj], hbefore j hj k List.mem_cons_self⟩
  · rintro ⟨hj, hlt⟩
    rcases List.mem_append.1 hj with hj | hj
    · exact hj
    rcases List.mem_cons.1 hj with rfl | hj
    · exact absurd hlt (Nat.lt_irrefl _)
    · exact absurd hlt (Nat.lt_asymm (hafter j hj))

theorem mem_keys {t : Table κ α} {k : κ} : k ∈ t.keys ↔ ∃ x, t.get? k = some x := by
  unfold keys
  constructor
  · intro h
    obtain ⟨⟨j, x⟩, he, rfl⟩ := List.mem_map.1 h
    exact ⟨x, mem_entries.1 he⟩
  · rintro ⟨x, h⟩
    exact List.mem_map.2 ⟨(k, x), mem_entries.2 h, rfl⟩

theorem mem_values {t : Table κ α} {x : α} : x ∈ t.values ↔ ∃ k, t.get? k = some x := by
  unfold values
  constructor
  · intro h
    obtain ⟨⟨k, y⟩, he, rfl⟩ := List.mem_map.1 h
    exact ⟨k, mem_entries.1 he⟩
  · rintro ⟨k, h⟩
    exact List.mem_map.2 ⟨(k, x), mem_entries.2 h, rfl⟩

theorem getElem?_keys {t : Table κ α} {d : Nat} {e : κ × α} (he : t.entries[d]? = some e) :
    t.keys[d]? = some e.1 := by
  unfold keys
  rw [List.getElem?_map, he]
  rfl

theorem getElem?_values {t : Table κ α} {d : Nat} {e : κ × α} (he : t.entries[d]? = some e) :
    t.values[d]? = some e.2 := by
  unfold values
  rw [List.getElem?_map, he]
  rfl

theorem get?_of_getElem? {t : Table κ α} {d : Nat} {e : κ × α} (he : t.entries[d]? = some e) :
    t.get? e.1 = some e.2 :=
  mem_entries.1 (List.mem_of_getElem? he)

/-- Entries at different places have different keys. -/
theorem key_ne {t : Table κ α} {d i : Nat} {e e' : κ × α} (he : t.entries[d]? = some e)
    (he' : t.entries[i]? = some e') (h : i ≠ d) : e'.1 ≠ e.1 := by
  intro heq
  obtain ⟨_, hd⟩ := List.getElem?_eq_some_iff.1 (getElem?_keys he)
  obtain ⟨_, hi⟩ := List.getElem?_eq_some_iff.1 (getElem?_keys he')
  exact h (t.keys_nodup.getElem_inj_iff.1 (hi.trans (heq.trans hd.symm)))

theorem contains_eq_true {t : Table κ α} {k : κ} : t.contains k = true ↔ k ∈ t.keys := by
  rw [mem_keys, contains, Option.isSome_iff_exists]

@[simp] theorem length_keys (t : Table κ α) : t.keys.length = t.size := List.length_map _

/-- A table whose keys are all in another is not larger. -/
theorem size_le_of_keys {α β : Type} {s : Table κ α} {t : Table κ β}
    (h : ∀ k ∈ s.keys, k ∈ t.keys) : s.size ≤ t.size := by
  have hlength := (List.Nodup.subperm s.keys_nodup h).length_le
  rwa [length_keys, length_keys] at hlength

@[simp] theorem keys_empty : (empty : Table κ α).keys = [] := rfl

/-! ## Insertion -/

theorem mem_keys_insert {t : Table κ α} {j k : κ} {x : α} :
    j ∈ (t.insert k x).keys ↔ j = k ∨ j ∈ t.keys := by
  by_cases h : j = k
  · subst h
    simp [mem_keys]
  · simp [mem_keys, get?_insert_of_ne t h, h]

section
variable {γ : Type} (key : γ → κ) (val : γ → α)

/-- What insertions leave in a table is what was there and what is put in. -/
theorem get?_foldl_insert (l : List γ) (t : Table κ α) (k : κ) (x : α)
    (h : (l.map key).Nodup) :
    (l.foldl (fun t e => t.insert (key e) (val e)) t).get? k = some x ↔
      (∃ e ∈ l, key e = k ∧ val e = x) ∨ (k ∉ l.map key ∧ t.get? k = some x) := by
  induction l generalizing t with
  | nil => simp
  | cons e rest ih =>
    rw [List.map_cons, List.nodup_cons] at h
    rw [List.foldl_cons, ih _ h.2]
    by_cases hk : k = key e
    · subst hk
      have hnot : ¬∃ d ∈ rest, key d = key e ∧ val d = x := by
        rintro ⟨d, hd, he, -⟩
        exact h.1 (he ▸ List.mem_map_of_mem hd)
      simp only [hnot, false_or, get?_insert_self, List.map_cons, List.mem_cons, true_or,
        not_true_eq_false, false_and, or_false, exists_eq_or_imp, true_and]
      simp [h.1]
    · rw [get?_insert_of_ne t hk]
      have hk' : key e ≠ k := fun e => hk e.symm
      simp [hk, hk']

theorem mem_keys_foldl_insert (l : List γ) (t : Table κ α) (k : κ) :
    k ∈ (l.foldl (fun t e => t.insert (key e) (val e)) t).keys ↔ k ∈ l.map key ∨ k ∈ t.keys := by
  induction l generalizing t with
  | nil => simp
  | cons e rest ih =>
    rw [List.foldl_cons, ih, mem_keys_insert, List.map_cons, List.mem_cons]
    constructor
    · rintro (h | h | h) <;> simp [h]
    · rintro ((h | h) | h) <;> simp [h]

end

@[simp] theorem mem_keys_ofList {l : List (κ × α)} {k : κ} :
    k ∈ (ofList l).keys ↔ k ∈ l.map (·.1) := by
  unfold ofList
  simp [mem_keys_foldl_insert Prod.fst Prod.snd]

theorem ofList_map {γ : Type} (key : γ → κ) (val : γ → α) (l : List γ) :
    ofList (l.map fun e => (key e, val e)) =
      l.foldl (fun t e => t.insert (key e) (val e)) empty := by
  rw [ofList, List.foldl_map]

/-- With a key for each entry, look-up in a list's table finds the entries of the list. -/
theorem get?_ofList {l : List (κ × α)} (h : (l.map (·.1)).Nodup) {k : κ} {x : α} :
    (ofList l).get? k = some x ↔ (k, x) ∈ l := by
  unfold ofList
  rw [get?_foldl_insert Prod.fst Prod.snd l empty k x h]
  constructor
  · rintro (⟨⟨j, y⟩, he, rfl, rfl⟩ | ⟨-, hx⟩)
    · exact he
    · simp at hx
  · intro hx
    exact .inl ⟨(k, x), hx, rfl, rfl⟩

/-- A table that is filled with the values of a function has them, however often a key comes. -/
theorem get?_foldl_insert_map (f : κ → α) (ks : List κ) (t : Table κ α) (k : κ) :
    ((ks.map fun j => (j, f j)).foldl (fun t e => t.insert e.1 e.2) t).get? k = some (f k) ↔
      k ∈ ks ∨ t.get? k = some (f k) := by
  induction ks generalizing t with
  | nil => simp
  | cons j rest ih =>
    rw [List.map_cons, List.foldl_cons, ih, List.mem_cons]
    by_cases hk : k = j
    · subst hk
      simp
    · rw [get?_insert_of_ne t hk]
      simp [hk]

theorem get?_ofList_map (f : κ → α) {ks : List κ} {k : κ} (h : k ∈ ks) :
    (ofList (ks.map fun j => (j, f j))).get? k = some (f k) :=
  (get?_foldl_insert_map f ks empty k).2 (.inl h)

theorem mem_keys_ofList_map {f : κ → α} {ks : List κ} {k : κ} :
    k ∈ (ofList (ks.map fun j => (j, f j))).keys ↔ k ∈ ks := by
  rw [mem_keys_ofList, List.map_map]
  exact Iff.of_eq (congrArg (k ∈ ·) (List.map_id ks))

/-- The values of a table that is filled with those of a function. -/
theorem values_ofList_map (f : κ → α) (ks : List κ) :
    (ofList (ks.map fun j => (j, f j))).values =
      (ofList (ks.map fun j => (j, f j))).keys.map f := by
  unfold values keys
  rw [List.map_map]
  refine List.map_congr_left fun e he => ?_
  have hfound := mem_entries.1 he
  rw [get?_ofList_map f (mem_keys_ofList_map.1 (mem_keys.2 ⟨_, hfound⟩))] at hfound
  exact (Option.some_inj.1 hfound).symm

/-- Tables with the same keys, and related values under each, have related lists of values. -/
theorem forall₂_values {R : α → β → Prop} {s : Table κ α} {t : Table κ β} (hkeys : s.keys = t.keys)
    (h : ∀ k x y, s.get? k = some x → t.get? k = some y → R x y) :
    List.Forall₂ R s.values t.values := by
  have hpairs : List.Forall₂ (fun d e => d.1 = e.1) s.entries t.entries := by
    unfold keys at hkeys
    rwa [← List.forall₂_eq_eq_eq, List.forall₂_map_left_iff, List.forall₂_map_right_iff] at hkeys
  unfold values
  rw [List.forall₂_map_left_iff, List.forall₂_map_right_iff, List.forall₂_iff_zip]
  refine ⟨hpairs.length_eq, fun {d e} hmem => ?_⟩
  obtain ⟨hd, he⟩ := List.of_mem_zip hmem
  have hkey : d.1 = e.1 := List.forall₂_zip hpairs hmem
  exact h d.1 d.2 e.2 (mem_entries.1 hd) (hkey ▸ mem_entries.1 he)

theorem Ascending.nodup {l : List (κ × α)} (h : Ascending l) : (l.map (·.1)).Nodup :=
  keys_nodup ⟨l, h⟩

theorem ofList_entries (t : Table κ α) : ofList t.entries = t := by
  refine ext_get? fun k => Option.ext fun x => ?_
  rw [get?_ofList (Ascending.nodup t.ascending), ← mem_entries]

theorem entries_ofList {l : List (κ × α)} (h : Ascending l) : (ofList l).entries = l :=
  congrArg entries (ofList_entries ⟨l, h⟩)

/-- A list of entries whose keys are those of a table is a table's. -/
theorem ascending_of_keys {t : Table κ β} {l : List (κ × α)} (h : l.map (·.1) = t.keys) :
    Ascending l := by
  have ht := t.pairwise_keys
  rw [← h, List.pairwise_map] at ht
  exact ht

/-- Where the values of a function come in a table does not depend on the order in which the table
is filled. -/
theorem entries_ofList_of_perm (f : κ → α) {t : Table κ β}
    {order : List κ} (h : order.Perm t.keys) :
    (ofList (order.map fun k => (k, f k))).entries = t.keys.map fun k => (k, f k) := by
  have hfst : ∀ l : List κ, (l.map fun k => (k, f k)).map (·.1) = l := by
    intro l
    rw [List.map_map]
    exact List.map_id l
  have hsame : ofList (order.map fun k => (k, f k)) = ofList (t.keys.map fun k => (k, f k)) := by
    refine ext_get? fun k => Option.ext fun x => ?_
    rw [get?_ofList ((hfst order).symm ▸ h.nodup_iff.2 t.keys_nodup),
      get?_ofList ((hfst t.keys).symm ▸ t.keys_nodup)]
    exact (h.map _).mem_iff
  rw [hsame, entries_ofList (ascending_of_keys (hfst t.keys))]

theorem get?_override {t s : Table κ α} {k : κ} {x : α} (h : s.get? k = some x) :
    (t.override s).get? k = some x := by
  unfold override
  rw [get?_foldl_insert Prod.fst Prod.snd s.entries t k x (Ascending.nodup s.ascending)]
  exact .inl ⟨(k, x), mem_entries.2 h, rfl, rfl⟩

theorem get?_override_of_none {t s : Table κ α} {k : κ} (h : s.get? k = none) :
    (t.override s).get? k = t.get? k := by
  have hkey : k ∉ s.entries.map Prod.fst := by
    intro hk
    obtain ⟨x, hx⟩ := mem_keys.1 hk
    rw [h] at hx
    cases hx
  unfold override
  refine Option.ext fun x => ?_
  rw [get?_foldl_insert Prod.fst Prod.snd s.entries t k x (Ascending.nodup s.ascending),
    and_iff_right hkey]
  refine or_iff_right ?_
  rintro ⟨e, he, rfl, -⟩
  exact hkey (List.mem_map_of_mem he)

/-! ## Images -/

@[simp] theorem keys_map (f : κ → α → β) (t : Table κ α) : (t.map f).keys = t.keys := by
  simp [keys, map]

theorem get?_map (f : κ → α → β) (t : Table κ α) (k : κ) :
    (t.map f).get? k = (t.get? k).map (f k) := by
  apply Option.ext
  intro y
  rw [← mem_entries, Option.map_eq_some_iff]
  simp only [map, List.mem_map, Prod.mk.injEq, Prod.exists]
  constructor
  · rintro ⟨j, x, he, rfl, rfl⟩
    exact ⟨x, mem_entries.1 he, rfl⟩
  · rintro ⟨x, hx, rfl⟩
    exact ⟨k, x, mem_entries.2 hx, rfl, rfl⟩

/-- Images are put in as what they are of is. -/
theorem map_insert (f : κ → α → β) (t : Table κ α) (k : κ) (x : α) :
    (t.insert k x).map f = (t.map f).insert k (f k x) := by
  refine ext_get? fun j => ?_
  rw [get?_map]
  by_cases h : j = k
  · subst h
    rw [get?_insert_self, get?_insert_self, Option.map_some]
  · rw [get?_insert_of_ne _ h, get?_insert_of_ne _ h, get?_map]

theorem contains_map (f : κ → α → β) (t : Table κ α) (k : κ) :
    (t.map f).contains k = t.contains k := by
  unfold contains
  rw [get?_map, Option.isSome_map]

theorem mem_keys_filter {p : κ → α → Bool} {t : Table κ α} {k : κ} :
    k ∈ (t.filter p).keys ↔ ∃ x, t.get? k = some x ∧ p k x = true := by
  simp only [keys, filter, List.mem_map, List.mem_filter, Prod.exists]
  constructor
  · rintro ⟨j, x, ⟨he, hp⟩, rfl⟩
    exact ⟨x, mem_entries.1 he, hp⟩
  · rintro ⟨x, hx, hp⟩
    exact ⟨k, x, ⟨mem_entries.2 hx, hp⟩, rfl⟩

end Table

/-! ## Sets of keys -/

namespace KeySet

variable {κ : Type} [Keyed κ]

theorem mem_keys_foldl_add (ks : List κ) (s : KeySet κ) (k : κ) :
    k ∈ (ks.foldl add s).keys ↔ k ∈ ks ∨ k ∈ s.keys := by
  have h := Table.mem_keys_foldl_insert id (fun _ => ()) ks s k
  rwa [List.map_id] at h

@[simp] theorem mem_keys_ofList {ks : List κ} {k : κ} : k ∈ (ofList ks).keys ↔ k ∈ ks := by
  unfold ofList
  simp [mem_keys_foldl_add]

/-- Sets with the same members are equal. -/
theorem ext_keys {s t : KeySet κ} (h : ∀ k, k ∈ s.keys ↔ k ∈ t.keys) : s = t := by
  refine Table.ext_get? fun k => ?_
  have hk := h k
  rw [Table.mem_keys, Table.mem_keys] at hk
  cases hs : s.get? k <;> cases ht : t.get? k <;> simp_all

theorem mem_keys_without {s t : KeySet κ} {k : κ} :
    k ∈ (s.without t).keys ↔ k ∈ s.keys ∧ k ∉ t.keys := by
  unfold without
  rw [Table.mem_keys_filter, Table.mem_keys, ← Table.contains_eq_true]
  constructor
  · rintro ⟨x, hx, hp⟩
    exact ⟨⟨x, hx⟩, by simpa using hp⟩
  · rintro ⟨⟨x, hx⟩, hp⟩
    exact ⟨x, hx, by simpa using hp⟩

theorem ofList_keys (s : KeySet κ) : ofList s.keys = s := ext_keys fun _ => mem_keys_ofList

theorem keys_ofList_keys {α : Type} (t : Table κ α) : (ofList t.keys).keys = t.keys := by
  let u : KeySet κ := t.map fun _ _ => ()
  have hu : u.keys = t.keys := Table.keys_map _ t
  have : ofList t.keys = u := ext_keys fun k => by rw [mem_keys_ofList, hu]
  rw [this, hu]

/-- Tables with the same keys list them alike. -/
theorem keys_eq_of_mem {α β : Type} {s : Table κ α} {t : Table κ β}
    (h : ∀ k, k ∈ s.keys ↔ k ∈ t.keys) : s.keys = t.keys := by
  have hsets : ofList s.keys = ofList t.keys := ext_keys fun k => by
    rw [mem_keys_ofList, mem_keys_ofList]
    exact h k
  rw [← keys_ofList_keys s, ← keys_ofList_keys t, hsets]

theorem isEmpty_eq_true {s : KeySet κ} : s.isEmpty = true ↔ ∀ k, k ∉ s.keys := by
  obtain ⟨l, hl⟩ := s
  cases l with
  | nil => simp [Table.isEmpty, Table.keys]
  | cons e rest =>
    constructor
    · intro h
      simp [Table.isEmpty] at h
    · intro h
      exact absurd (List.mem_cons_self (a := e.1)) (h e.1)

end KeySet

end TrafficLab
