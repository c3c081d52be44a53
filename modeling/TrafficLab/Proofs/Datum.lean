import TrafficLab.Flow
import TrafficLab.Proofs.MessagePack
import TrafficLab.Proofs.Table

/-!
# Stored data: what is stored is what is read

A type is lawful if each of its values is read back from its own datum, and bounded if no value
needs more room than MessagePack has.  Numbers are both, whatever they count; a record is if its
fields are.

    ofDatum? (toDatum x) = some x                                   (LawfulDatum)
    (toDatum x).Fits levels                                         (BoundedDatum)
    (record fields).fields? names = some ⟨false, fields⟩            (fields?_record)
    (record fields).tagged? tag = some (kind, record rest)          (tagged?_record)
-/

namespace TrafficLab

/-- Values are read back from the data they are stored as. -/
class LawfulDatum (α : Type) [ToDatum α] [OfDatum α] : Prop where
  ofDatum?_toDatum : ∀ x : α, ofDatum? (toDatum x) = some x

export LawfulDatum (ofDatum?_toDatum)

attribute [simp] ofDatum?_toDatum

/-- Every value fits a reader that follows `levels` levels. -/
class BoundedDatum (α : Type) [ToDatum α] (levels : outParam Nat) : Prop where
  fits : ∀ x : α, (toDatum x).Fits levels

namespace Datum

/-! ## Fitting data -/

theorem Fits.succ {depth : Nat} {d : Datum} (h : d.Fits depth) : d.Fits (depth + 1) := by
  induction h with
  | null => exact .null
  | bool b => exact .bool b
  | int lower upper => exact .int lower upper
  | text short => exact .text short
  | octets short => exact .octets short
  | list short _ ih => exact .list short ih
  | map short _ _ ihkeys ihvalues => exact .map short ihkeys ihvalues

theorem Fits.mono {m n : Nat} {d : Datum} (h : d.Fits m) (hle : m ≤ n) : d.Fits n := by
  induction hle with
  | refl => exact h
  | step _ ih => exact ih.succ

theorem intactItems_eq_true {items : List Datum} (h : ∀ d ∈ items, d.intact = true) :
    intactItems items = true := by
  induction items with
  | nil => rfl
  | cons d items ih =>
    rw [intactItems, h d (by simp), ih fun e he => h e (by simp [he]), Bool.and_self]

theorem intactEntries_eq_true {entries : List (Datum × Datum)}
    (hkeys : ∀ e ∈ entries, e.1.intact = true) (hvalues : ∀ e ∈ entries, e.2.intact = true) :
    intactEntries entries = true := by
  induction entries with
  | nil => rfl
  | cons e entries ih =>
    obtain ⟨k, d⟩ := e
    rw [intactEntries, hkeys (k, d) (by simp), hvalues (k, d) (by simp),
      ih (fun e he => hkeys e (by simp [he])) fun e he => hvalues e (by simp [he])]
    rfl

theorem Fits.intact {depth : Nat} {d : Datum} (h : d.Fits depth) : d.intact = true := by
  induction h with
  | list _ _ ih => exact intactItems_eq_true ih
  | map _ _ _ ihkeys ihvalues => exact intactEntries_eq_true ihkeys ihvalues
  | _ => rfl

theorem fits_toDatum {α : Type} [ToDatum α] {levels depth : Nat} [BoundedDatum α levels] (x : α)
    (h : levels ≤ depth) : (toDatum x).Fits depth :=
  (BoundedDatum.fits x).mono h

/-! ## Records -/

theorem fits_record {depth : Nat} (names : List String) {fields : List (String × Datum)}
    (hnames : fields.map (·.1) = names) (hfew : names.length < MessagePack.lengths)
    (hshort : ∀ s ∈ names, s.utf8ByteSize < MessagePack.lengths)
    (h : ∀ f ∈ fields, f.2.Fits (depth + 1)) : (record fields).Fits (depth + 2) := by
  subst hnames
  refine .map (by rwa [List.length_map] at hfew ⊢) ?_ ?_
  · simp only [List.mem_map, forall_exists_index, and_imp, forall_apply_eq_imp_iff₂]
    exact fun f hf => .text (hshort f.1 (List.mem_map_of_mem hf))
  · simp only [List.mem_map, forall_exists_index, and_imp, forall_apply_eq_imp_iff₂]
    exact h

/-- The fields of a record are found under their names, also if some of the names are left out. -/
theorem fields?_of_known {names : List String} {fields : List (String × Datum)}
    (hknown : ∀ f ∈ fields, f.1 ∈ names) (hnodup : (fields.map (·.1)).Nodup) :
    fields? names (record fields) = some ⟨false, fields⟩ := by
  have hnamed : (fields.map fun f => (text f.1, f.2)).mapM
      (fun e => (fieldName? names e.1).map fun s => (s, e.2)) = some fields := by
    rw [Checked.mapM_eq_some, List.forall₂_map_left_iff, List.forall₂_same]
    exact fun f _ => rfl
  have hfound : fields.filter (fun f => names.contains f.1) = fields := by
    rw [List.filter_eq_self]
    exact fun f hf => List.contains_iff_mem.2 (hknown f hf)
  simp only [fields?, record, hnamed, Option.bind_eq_bind, Option.bind_some, hfound]
  rw [if_pos hnodup]

theorem fields?_record {names : List String} {fields : List (String × Datum)}
    (hnames : fields.map (·.1) = names) (hnodup : names.Nodup) :
    fields? names (record fields) = some ⟨false, fields⟩ := by
  subst hnames
  exact fields?_of_known (fun f hf => List.mem_map_of_mem hf) hnodup

theorem read_fields {β : Type} {b : β} {names : List String} {fields : List (String × Datum)}
    {read : Fields → Option β} (hnames : fields.map (·.1) = names) (hnodup : names.Nodup)
    (h : read ⟨false, fields⟩ = some b) : (fields? names (record fields)).bind read = some b := by
  rw [fields?_record hnames hnodup, Option.bind_some, h]

/-- A type that is read from the fields of a record is read back if its fields are. -/
theorem ofDatum?_record {α : Type} [ToDatum α] [OfDatum α] {x : α} {names : List String}
    {fields : List (String × Datum)} {read : Fields → Option α}
    (hread : ∀ d, (ofDatum? d : Option α) = (fields? names d).bind read)
    (hrecord : toDatum x = record fields) (hnames : fields.map (·.1) = names)
    (hnodup : names.Nodup) (h : read ⟨false, fields⟩ = some x) : ofDatum? (toDatum x) = some x := by
  rw [hread, hrecord, read_fields hnames hnodup h]

/-- A record that says its kind first is its kind and the other fields. -/
theorem tagged?_record {tag kind : String} {fields : List (String × Datum)}
    (hintact : (record ((tag, text kind) :: fields)).intact = true)
    (hne : ∀ f ∈ fields, f.1 ≠ tag) :
    (record ((tag, text kind) :: fields)).tagged? tag = some (kind, record fields) := by
  have htag : (text tag).isText tag = true := beq_self_eq_true tag
  have hother : ∀ e ∈ fields.map fun f => (text f.1, f.2), e.1.isText tag = false := by
    intro e he
    obtain ⟨f, hf, rfl⟩ := List.mem_map.1 he
    exact beq_false_of_ne (hne f hf).symm
  have hkind : (fields.map fun f => (text f.1, f.2)).filter (fun e => e.1.isText tag) = [] := by
    rw [List.filter_eq_nil_iff]
    exact fun e he => by simp [hother e he]
  have hrest : (fields.map fun f => (text f.1, f.2)).filter (fun e => !e.1.isText tag) =
      fields.map fun f => (text f.1, f.2) := by
    rw [List.filter_eq_self]
    exact fun e he => by simp [hother e he]
  unfold tagged?
  rw [if_pos hintact]
  simp only [record, List.map_cons, List.filter_cons, htag, hkind, hrest, if_true, Bool.not_true]
  rfl

/-- A type that is read from the kind and the fields of a record is read back if the fields are. -/
theorem ofDatum?_tagged {α : Type} [ToDatum α] [OfDatum α] {x : α} {tag kind : String}
    {fields : List (String × Datum)} {read : String × Datum → Option α}
    (hread : ∀ d, (ofDatum? d : Option α) = (d.tagged? tag).bind read)
    (hrecord : toDatum x = record ((tag, text kind) :: fields))
    (hintact : (toDatum x).intact = true) (hne : ∀ f ∈ fields, f.1 ≠ tag)
    (h : read (kind, record fields) = some x) : ofDatum? (toDatum x) = some x := by
  rw [hrecord] at hintact
  rw [hread, hrecord, tagged?_record hintact hne, Option.bind_some, h]

namespace Fields

theorem nullable_of_null {α : Type} [OfDatum α] {f : Fields} {name : String}
    (h : f.get? name = some .null) : (f.nullable name : Option (Option α)) = some none := by
  unfold nullable
  rw [h]

theorem nullable_of_ne_null {α : Type} [OfDatum α] {f : Fields} {name : String} {d : Datum}
    (h : f.get? name = some d) (hd : d ≠ .null) :
    f.nullable name = (ofDatum? d : Option α).map some := by
  unfold nullable
  rw [h]
  cases d with
  | null => exact absurd rfl hd
  | _ => rfl

variable {α β : Type} [ToDatum α] [OfDatum α] [LawfulDatum α] {f : Fields} {name : String} {b : β}

/-- A field that is stored is read, and what comes after it goes on with its value. -/
theorem read_required {x : α} {read : α → Option β} (h : f.get? name = some (toDatum x))
    (hread : read x = some b) : (f.required name >>= read) = some b := by
  rw [required, h, Option.bind_some, ofDatum?_toDatum, Option.bind_eq_bind, Option.bind_some, hread]

theorem read_withDefault {x default : α} {read : α → Option β}
    (h : f.get? name = some (toDatum x)) (hread : read x = some b) :
    (f.withDefault name default >>= read) = some b := by
  have hx : f.withDefault name default = some x := by
    rw [withDefault, h]
    exact ofDatum?_toDatum x
  rw [hx, Option.bind_eq_bind, Option.bind_some, hread]

/-- A field that may be nothing is told from one that is there if no value is stored as null. -/
theorem read_nullable {x : Option α} {read : Option α → Option β}
    (hnull : (ofDatum? .null : Option α) = none) (h : f.get? name = some (toDatum x))
    (hread : read x = some b) : (f.nullable name >>= read) = some b := by
  have hx : f.nullable name = some x := by
    cases x with
    | none => rw [nullable_of_null h]
    | some x =>
      change f.get? name = some (toDatum x) at h
      have hof := ofDatum?_toDatum x
      have hpresent : toDatum x ≠ .null := by
        intro e
        rw [e, hnull] at hof
        cases hof
      rw [nullable_of_ne_null h hpresent, hof, Option.map_some]
  rw [hx, Option.bind_eq_bind, Option.bind_some, hread]

end Fields

end Datum

/-! ## Numbers -/

theorem Datum.toNat?_int {n size : Nat} (h : n < size) :
    (Datum.int n).toNat? size = some n := by
  rw [Datum.toNat?, if_pos ⟨Int.natCast_nonneg n, by exact_mod_cast h⟩, Int.toNat_natCast]

instance : LawfulDatum Bool := ⟨fun _ => rfl⟩

instance : LawfulDatum UInt8 where
  ofDatum?_toDatum n := by
    change ((Datum.int n.toNat).toNat? UInt8.size).map UInt8.ofNat = some n
    rw [Datum.toNat?_int n.toNat_lt, Option.map_some, UInt8.ofNat_toNat]

instance : LawfulDatum UInt32 where
  ofDatum?_toDatum n := by
    change ((Datum.int n.toNat).toNat? UInt32.size).map UInt32.ofNat = some n
    rw [Datum.toNat?_int n.toNat_lt, Option.map_some, UInt32.ofNat_toNat]

instance : LawfulDatum UInt64 where
  ofDatum?_toDatum n := by
    change ((Datum.int n.toNat).toNat? UInt64.size).map UInt64.ofNat = some n
    rw [Datum.toNat?_int n.toNat_lt, Option.map_some, UInt64.ofNat_toNat]

instance {k : Named} : LawfulDatum (Id k) where
  ofDatum?_toDatum a := by
    change (ofDatum? (toDatum a.val)).map Id.mk = some a
    rw [ofDatum?_toDatum, Option.map_some]

instance : LawfulDatum RoutingKey where
  ofDatum?_toDatum key := by
    change (ofDatum? (toDatum key.val)).map RoutingKey.mk = some key
    rw [ofDatum?_toDatum, Option.map_some]

instance {m : Measure} : LawfulDatum (Quantity m) where
  ofDatum?_toDatum q := by
    change (ofDatum? (toDatum q.count)).map Quantity.mk = some q
    rw [ofDatum?_toDatum, Option.map_some]

theorem Datum.fits_nat {n depth : Nat} (h : n < 2 ^ 64) : (Datum.int n).Fits (depth + 1) :=
  .int (by omega) (by omega)

instance : BoundedDatum Bool 1 := ⟨fun b => .bool b⟩
instance : BoundedDatum UInt8 1 := ⟨fun n => Datum.fits_nat (by have := n.toNat_lt; omega)⟩
instance : BoundedDatum UInt32 1 := ⟨fun n => Datum.fits_nat (by have := n.toNat_lt; omega)⟩
instance : BoundedDatum UInt64 1 := ⟨fun n => Datum.fits_nat n.toNat_lt⟩
instance {k : Named} : BoundedDatum (Id k) 1 := ⟨fun a => BoundedDatum.fits a.val⟩
instance : BoundedDatum RoutingKey 1 := ⟨fun key => BoundedDatum.fits key.val⟩
instance {m : Measure} : BoundedDatum (Quantity m) 1 := ⟨fun q => BoundedDatum.fits q.count⟩

/-! ## Lists, tables and sets -/

section
variable {α κ : Type}

instance [ToDatum α] {levels : Nat} [BoundedDatum α levels] :
    BoundedDatum (Option α) (max levels 1) where
  fits
    | some x => Datum.fits_toDatum x (Nat.le_max_left ..)
    | none => Datum.Fits.null.mono (Nat.le_max_right ..)

instance [ToDatum α] [OfDatum α] [LawfulDatum α] : LawfulDatum (List α) where
  ofDatum?_toDatum xs := by
    change (xs.map toDatum).mapM ofDatum? = some xs
    rw [Checked.mapM_eq_some, List.forall₂_map_left_iff, List.forall₂_same]
    exact fun x _ => ofDatum?_toDatum x

theorem fits_list [ToDatum α] {depth : Nat} {xs : List α} (hshort : xs.length < MessagePack.lengths)
    (h : ∀ x ∈ xs, (toDatum x).Fits depth) : (toDatum xs).Fits (depth + 1) := by
  refine .list (by rwa [List.length_map]) fun d hd => ?_
  obtain ⟨x, hx, rfl⟩ := List.mem_map.1 hd
  exact h x hx

variable [Keyed κ] [ToDatum κ] [ToDatum α]

instance [OfDatum κ] [LawfulDatum κ] [OfDatum α] [LawfulDatum α] : LawfulDatum (Table κ α) where
  ofDatum?_toDatum t := by
    let pair? : Datum × Datum → Option (κ × α) := fun (k, d) => do
      some (← ofDatum? k, ← ofDatum? d)
    have hentries :
        (t.entries.map fun e => (toDatum e.1, toDatum e.2)).mapM pair? = some t.entries := by
      rw [Checked.mapM_eq_some, List.forall₂_map_left_iff, List.forall₂_same]
      intro e _
      simp only [pair?, ofDatum?_toDatum, Option.bind_eq_bind, Option.bind_some]
    change ((t.entries.map fun e => (toDatum e.1, toDatum e.2)).mapM pair?).map Table.ofList = _
    rw [hentries, Option.map_some, Table.ofList_entries]

theorem fits_table {depth : Nat} {t : Table κ α} (hshort : t.size < MessagePack.lengths)
    (hkeys : ∀ k : κ, (toDatum k).Fits depth)
    (h : ∀ k x, t.get? k = some x → (toDatum x).Fits depth) : (toDatum t).Fits (depth + 1) := by
  refine .map (by rwa [List.length_map]) (fun d hd => ?_) fun d hd => ?_
  · obtain ⟨e, -, rfl⟩ := List.mem_map.1 hd
    exact hkeys e.1
  · obtain ⟨e, he, rfl⟩ := List.mem_map.1 hd
    exact h e.1 e.2 (Table.mem_entries.1 he)

@[simp] theorem KeySet.ofDatum?_toDatum [OfDatum κ] [LawfulDatum κ] (s : KeySet κ) :
    KeySet.ofDatum? s.toDatum = some s := by
  unfold KeySet.ofDatum? KeySet.toDatum
  rw [LawfulDatum.ofDatum?_toDatum, Option.map_some, KeySet.ofList_keys]

theorem fits_keySet {depth : Nat} {s : KeySet κ} (hshort : s.size < MessagePack.lengths)
    (hkeys : ∀ k : κ, (toDatum k).Fits depth) : s.toDatum.Fits (depth + 1) :=
  fits_list (by rwa [Table.length_keys]) fun k _ => hkeys k

end

end TrafficLab
