import TrafficLab.Ident

/-!
# Tables

Finite maps listed in ascending order of their keys.  The order is part of the type, so two tables
with the same entries are equal, and what is computed from a table never depends on how it was
filled.

    (t.insert k x).get? k = some x                           (get?_insert_self)
    j ≠ k → (t.insert k x).get? j = t.get? j                 (get?_insert_of_ne)
    (∀ k, s.get? k = t.get? k) → s = t                       (ext_get?)

A `KeySet` is a table that holds keys alone.
-/

namespace TrafficLab

open Keyed (rank rank_inj)

/-- Entries in ascending order of their keys. -/
def Ascending {κ α : Type} [Keyed κ] (entries : List (κ × α)) : Prop :=
  entries.Pairwise fun a b => rank a.1 < rank b.1

/-- A finite map from `κ` to `α`. -/
structure Table (κ α : Type) [Keyed κ] where
  entries : List (κ × α)
  ascending : Ascending entries

namespace Table

variable {κ α β : Type} [Keyed κ]

/-! ## Algorithm -/

/-- Puts an entry in its place, over the entry of the same key if there is one. -/
def insertEntry (k : κ) (x : α) : List (κ × α) → List (κ × α)
  | [] => [(k, x)]
  | (j, y) :: rest =>
    if rank k < rank j then (k, x) :: (j, y) :: rest
    else if rank j < rank k then (j, y) :: insertEntry k x rest
    else (k, x) :: rest

def findEntry (k : κ) : List (κ × α) → Option α
  | [] => none
  | (j, y) :: rest => if rank j = rank k then some y else findEntry k rest

theorem mem_insertEntry {k : κ} {x : α} {e : κ × α} {l : List (κ × α)} :
    e ∈ insertEntry k x l → e = (k, x) ∨ e ∈ l := by
  induction l with
  | nil => simp [insertEntry]
  | cons head rest ih =>
    obtain ⟨j, y⟩ := head
    simp only [insertEntry]
    split
    · simp
    · split
      · intro h
        rcases List.mem_cons.1 h with h | h
        · simp [h]
        · rcases ih h with h | h <;> simp [h]
      · intro h
        rcases List.mem_cons.1 h with h | h <;> simp [h]

theorem ascending_insertEntry (k : κ) (x : α) {l : List (κ × α)} (h : Ascending l) :
    Ascending (insertEntry k x l) := by
  induction l with
  | nil => simp [insertEntry, Ascending]
  | cons head rest ih =>
    obtain ⟨j, y⟩ := head
    have hr := List.pairwise_cons.1 h
    simp only [insertEntry]
    split
    · rename_i hlt
      refine List.pairwise_cons.2 ⟨fun e he => ?_, h⟩
      rcases List.mem_cons.1 he with he | he
      · simpa [he] using hlt
      · exact Nat.lt_trans hlt (hr.1 e he)
    · split
      · rename_i hlt
        refine List.pairwise_cons.2 ⟨fun e he => ?_, ih hr.2⟩
        rcases mem_insertEntry he with he | he
        · simpa [he] using hlt
        · exact hr.1 e he
      · rename_i h₁ h₂
        refine List.pairwise_cons.2 ⟨fun e he => ?_, hr.2⟩
        have := hr.1 e he
        simp only at this ⊢
        omega

def empty : Table κ α := ⟨[], List.Pairwise.nil⟩

instance : Inhabited (Table κ α) := ⟨empty⟩

instance [BEq κ] [BEq α] : BEq (Table κ α) := ⟨fun s t => s.entries == t.entries⟩

instance [DecidableEq κ] [DecidableEq α] : DecidableEq (Table κ α) := fun s t =>
  if h : s.entries = t.entries then .isTrue (by cases s; cases t; simp_all)
  else .isFalse fun e => h (by rw [e])

def insert (t : Table κ α) (k : κ) (x : α) : Table κ α :=
  ⟨insertEntry k x t.entries, ascending_insertEntry k x t.ascending⟩

def get? (t : Table κ α) (k : κ) : Option α := findEntry k t.entries

def contains (t : Table κ α) (k : κ) : Bool := (t.get? k).isSome

def keys (t : Table κ α) : List κ := t.entries.map (·.1)

def values (t : Table κ α) : List α := t.entries.map (·.2)

def size (t : Table κ α) : Nat := t.entries.length

def isEmpty (t : Table κ α) : Bool := t.entries.isEmpty

/-- The table of a list of entries; of two entries with one key the later counts. -/
def ofList (entries : List (κ × α)) : Table κ α :=
  entries.foldl (fun t e => t.insert e.1 e.2) empty

/-- Every entry of `s` and, of the other keys, those of `t`. -/
def override (t s : Table κ α) : Table κ α :=
  s.entries.foldl (fun t e => t.insert e.1 e.2) t

/-- The table with each value replaced by its image. -/
def map (f : κ → α → β) (t : Table κ α) : Table κ β :=
  ⟨t.entries.map fun e => (e.1, f e.1 e.2), by
    simpa [Ascending, List.pairwise_map] using t.ascending⟩

/-- The entries that satisfy `p`. -/
def filter (p : κ → α → Bool) (t : Table κ α) : Table κ α :=
  ⟨t.entries.filter fun e => p e.1 e.2, t.ascending.filter _⟩

/-! ## Lemmas -/

theorem findEntry_insertEntry_self (k : κ) (x : α) (l : List (κ × α)) :
    findEntry k (insertEntry k x l) = some x := by
  induction l with
  | nil => simp [insertEntry, findEntry]
  | cons head rest ih =>
    obtain ⟨j, y⟩ := head
    simp only [insertEntry]
    split
    · simp [findEntry]
    · split
      · rename_i h
        simp [findEntry, Nat.ne_of_lt h, ih]
      · simp [findEntry]

theorem findEntry_insertEntry_of_ne {j k : κ} (h : j ≠ k) (x : α) (l : List (κ × α)) :
    findEntry j (insertEntry k x l) = findEntry j l := by
  have hne : rank k ≠ rank j := fun e => h (rank_inj e).symm
  induction l with
  | nil => simp [insertEntry, findEntry, hne]
  | cons head rest ih =>
    obtain ⟨i, y⟩ := head
    simp only [insertEntry]
    split
    · simp [findEntry, hne]
    · split
      · simp [findEntry, ih]
      · have : rank i = rank k := by omega
        simp [findEntry, hne, this]

@[simp] theorem get?_insert_self (t : Table κ α) (k : κ) (x : α) :
    (t.insert k x).get? k = some x :=
  findEntry_insertEntry_self k x t.entries

theorem get?_insert_of_ne (t : Table κ α) {j k : κ} (h : j ≠ k) (x : α) :
    (t.insert k x).get? j = t.get? j :=
  findEntry_insertEntry_of_ne h x t.entries

@[simp] theorem get?_empty (k : κ) : (empty : Table κ α).get? k = none := rfl

theorem findEntry_eq_none {k : κ} {l : List (κ × α)} (h : ∀ e ∈ l, rank k < rank e.1) :
    findEntry k l = none := by
  induction l with
  | nil => rfl
  | cons head rest ih =>
    obtain ⟨j, y⟩ := head
    have := h (j, y) (by simp)
    simp only at this
    simp [findEntry, Nat.ne_of_gt this, ih fun e he => h e (by simp [he])]

theorem eq_of_findEntry_eq {l m : List (κ × α)} (hl : Ascending l) (hm : Ascending m)
    (h : ∀ k, findEntry k l = findEntry k m) : l = m := by
  induction l generalizing m with
  | nil =>
    cases m with
    | nil => rfl
    | cons e rest => simpa [findEntry] using h e.1
  | cons d rest ih =>
    cases m with
    | nil => simpa [findEntry] using h d.1
    | cons e others =>
      obtain ⟨i, x⟩ := d
      obtain ⟨j, y⟩ := e
      have hd := List.pairwise_cons.1 hl
      have he := List.pairwise_cons.1 hm
      have hi := h i
      have hj := h j
      have hij : rank i = rank j := by
        rcases Nat.lt_trichotomy (rank i) (rank j) with lt | eq | gt
        · have : findEntry i ((j, y) :: others) = none :=
            findEntry_eq_none fun e he' => by
              rcases List.mem_cons.1 he' with he' | he'
              · simpa [he'] using lt
              · exact Nat.lt_trans lt (he.1 e he')
          rw [this] at hi
          simp [findEntry] at hi
        · exact eq
        · have : findEntry j ((i, x) :: rest) = none :=
            findEntry_eq_none fun e he' => by
              rcases List.mem_cons.1 he' with he' | he'
              · simpa [he'] using gt
              · exact Nat.lt_trans gt (hd.1 e he')
          rw [this] at hj
          simp [findEntry] at hj
      have hkey : i = j := rank_inj hij
      subst hkey
      have hxy : x = y := by simpa [findEntry] using hi
      subst hxy
      have : rest = others := by
        refine ih hd.2 he.2 fun k => ?_
        by_cases hk : rank i = rank k
        · have hik := rank_inj hk
          subst hik
          rw [findEntry_eq_none fun e h' => hd.1 e h', findEntry_eq_none fun e h' => he.1 e h']
        · simpa [findEntry, hk] using h k
      rw [this]

/-- A table is what it holds. -/
theorem ext_get? {s t : Table κ α} (h : ∀ k, s.get? k = t.get? k) : s = t := by
  obtain ⟨l, hl⟩ := s
  obtain ⟨m, hm⟩ := t
  have : l = m := eq_of_findEntry_eq hl hm h
  subst this
  rfl

end Table

/-! ## Sets of keys -/

/-- A finite set of keys, listed in ascending order. -/
abbrev KeySet (κ : Type) [Keyed κ] := Table κ Unit

namespace KeySet

variable {κ : Type} [Keyed κ]

def add (s : KeySet κ) (k : κ) : KeySet κ := s.insert k ()

def ofList (ks : List κ) : KeySet κ := ks.foldl add Table.empty

/-- The members of `s` that are not in `t`. -/
def without (s t : KeySet κ) : KeySet κ := s.filter fun k _ => !t.contains k

end KeySet

end TrafficLab
