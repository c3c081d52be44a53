import TrafficLab.File
import TrafficLab.Proofs.Datum
import TrafficLab.Proofs.Json

/-!
# Reports: what is written is read back

A report is read back from its JSON text, whatever flows, cores, counts and statuses it has.  In the
text a table is an object whose keys are the texts of the identifiers: numbers in decimal, or the
names of router counters.  A timeline is left out if it is empty, and an empty one is what is read
where none is given; a latency that is not there is written as `null`.

    readNumeral size (toString n) = .ok n                                   (readNumeral_toString)
    Table.ofTexts? (toDatum t).inJson = some t                                   (ofTexts?_inJson)
    Report.read? r.write = some r                                                    (read?_write)
-/

namespace TrafficLab

open Datum Datum.Fields

/-! ## Keys -/

theorem le_ofDigitChars (ds : List Char) (acc : Nat) : acc ≤ Nat.ofDigitChars 10 ds acc := by
  induction ds generalizing acc with
  | nil => exact Nat.le_refl acc
  | cons c ds ih =>
    rw [Nat.ofDigitChars_cons]
    have hrest := ih (10 * acc + (c.toNat - '0'.toNat))
    omega

/-- Digits whose value is below the size are read as their value. -/
theorem readDigits_eq {size : Nat} {ds : List Char} (hds : ∀ c ∈ ds, c.isDigit = true) {acc : Nat}
    (h : Nat.ofDigitChars 10 ds acc < size) :
    readDigits size acc ds = .ok (Nat.ofDigitChars 10 ds acc) := by
  induction ds generalizing acc with
  | nil => rfl
  | cons c ds ih =>
    rw [Nat.ofDigitChars_cons] at h
    have hstep : acc * 10 + (c.toNat - 48) = 10 * acc + (c.toNat - '0'.toNat) := by
      rw [Nat.mul_comm]
      rfl
    have hlt := Nat.lt_of_le_of_lt (le_ofDigitChars ds _) h
    rw [readDigits, if_pos (hds c List.mem_cons_self)]
    simp only [hstep]
    rw [if_pos hlt, ih (fun d hd => hds d (List.mem_cons_of_mem c hd)) h, Nat.ofDigitChars_cons]

/-- A number is read back from its decimal text. -/
theorem readNumeral_toString {n size : Nat} (h : n < size) :
    readNumeral size (toString n) = .ok n := by
  have htext : (toString n).toList = Nat.toDigits 10 n := Nat.toList_repr
  have hread : readDigits size 0 (Nat.toDigits 10 n) = .ok n := by
    rw [readDigits_eq fun c hc => Nat.isDigit_of_mem_toDigits (by decide) (by decide) hc,
      Nat.ofDigitChars_ten_toDigits]
    rwa [Nat.ofDigitChars_ten_toDigits]
  obtain ⟨c, cs, hcons, hdigit⟩ := exists_toDigits_eq_cons n
  rw [hcons] at htext hread
  unfold readNumeral
  rw [htext]
  split
  · next e => cases e
  · next e =>
    cases e
    exact absurd hdigit (by decide)
  · next e =>
    cases e
    exact absurd hdigit (by decide)
  · next e =>
    cases e
    exact absurd hdigit (by decide)
  · exact hread

theorem readWord32_toString (n : UInt32) : readWord32 (toString n.toNat) = .ok n := by
  unfold readWord32
  rw [readNumeral_toString n.toNat_lt]
  exact congrArg Except.ok (UInt32.ofNat_toNat)

/-- Keys are read back from the texts that JSON has for them. -/
class LawfulKey (κ : Type) [ToDatum κ] [OfKey κ] : Prop where
  ofKey?_keyName : ∀ k : κ, OfKey.ofKey? (toDatum k).keyName = some k

instance {k : Named} : LawfulKey (Id k) where
  ofKey?_keyName a := by
    show (readWord32 (toString a.val.toNat)).toOption.map Id.mk = some a
    rw [readWord32_toString]
    rfl

/-- The key of an identifier is its decimal text. -/
theorem keyName_id {k : Named} (a : Id k) : (toDatum a).keyName = toString a := rfl

instance : LawfulKey RouterCounter where
  ofKey?_keyName c := by cases c <;> decide

/-! ## Data in JSON -/

namespace Datum

theorem itemsInJson_eq_map (items : List Datum) : itemsInJson items = items.map inJson := by
  induction items with
  | nil => rfl
  | cons d items ih => rw [itemsInJson, ih, List.map_cons]

theorem entriesInJson_eq_map (entries : List (Datum × Datum)) :
    entriesInJson entries = entries.map fun e => (text e.1.keyName, e.2.inJson) := by
  induction entries with
  | nil => rfl
  | cons e entries ih => rw [entriesInJson, ih, List.map_cons]

theorem inJson_record (fields : List (String × Datum)) :
    (record fields).inJson = record (fields.map fun f => (f.1, f.2.inJson)) := by
  unfold record
  rw [inJson, entriesInJson_eq_map, List.map_map, List.map_map]
  rfl

theorem FitsJson.mono {m n : Nat} {d : Datum} (h : d.FitsJson m) (hle : m ≤ n) : d.FitsJson n := by
  induction h generalizing n with
  | null => exact .null
  | bool b => exact .bool b
  | int lower upper => exact .int lower upper
  | text s => exact .text s
  | list _ ih =>
    obtain ⟨n, rfl⟩ := Nat.exists_eq_succ_of_ne_zero (Nat.ne_zero_of_lt hle)
    exact .list fun d hd => ih d hd (Nat.le_of_succ_le_succ hle)
  | map _ ih =>
    obtain ⟨n, rfl⟩ := Nat.exists_eq_succ_of_ne_zero (Nat.ne_zero_of_lt hle)
    exact .map fun e he => ih e he (Nat.le_of_succ_le_succ hle)

theorem FitsJson.intact_inJson {depth : Nat} {d : Datum} (h : d.FitsJson depth) :
    d.inJson.intact = true := by
  induction h with
  | list _ ih =>
    rw [inJson, itemsInJson_eq_map, intact]
    refine intactItems_eq_true fun d hd => ?_
    obtain ⟨e, he, rfl⟩ := List.mem_map.1 hd
    exact ih e he
  | map _ ih =>
    rw [inJson, entriesInJson_eq_map, intact]
    refine intactEntries_eq_true (fun e he => ?_) fun e he => ?_
    · obtain ⟨f, hf, rfl⟩ := List.mem_map.1 he
      rfl
    · obtain ⟨f, hf, rfl⟩ := List.mem_map.1 he
      exact ih f hf
  | _ => rfl

theorem fitsJson_record {depth : Nat} {fields : List (String × Datum)}
    (h : ∀ f ∈ fields, f.2.FitsJson depth) : (record fields).FitsJson (depth + 1) := by
  refine .map fun e he => ?_
  obtain ⟨f, hf, rfl⟩ := List.mem_map.1 he
  exact h f hf

end Datum

/-- Values that fit a reader of `levels` levels and that JSON leaves as they are. -/
class PlainDatum (α : Type) [ToDatum α] (levels : outParam Nat) : Prop where
  fitsJson : ∀ x : α, (toDatum x).FitsJson levels
  inJson_toDatum : ∀ x : α, (toDatum x).inJson = toDatum x

attribute [simp] PlainDatum.inJson_toDatum

theorem fitsJson_toDatum {α : Type} [ToDatum α] {levels depth : Nat} [PlainDatum α levels] (x : α)
    (h : levels ≤ depth) : (toDatum x).FitsJson depth :=
  (PlainDatum.fitsJson x).mono h

instance : PlainDatum UInt32 0 where
  fitsJson n := .int (by omega) (by have := n.toNat_lt; omega)
  inJson_toDatum _ := rfl

instance : PlainDatum UInt64 0 where
  fitsJson n := .int (by omega) (by have := n.toNat_lt; omega)
  inJson_toDatum _ := rfl

instance {k : Named} : PlainDatum (Id k) 0 where
  fitsJson a := PlainDatum.fitsJson a.val
  inJson_toDatum _ := rfl

instance {m : Measure} : PlainDatum (Quantity m) 0 where
  fitsJson q := PlainDatum.fitsJson q.count
  inJson_toDatum _ := rfl

section
variable {α κ : Type}

instance [ToDatum α] {levels : Nat} [PlainDatum α levels] : PlainDatum (List α) (levels + 1) where
  fitsJson xs := by
    refine .list fun d hd => ?_
    obtain ⟨x, -, rfl⟩ := List.mem_map.1 hd
    exact PlainDatum.fitsJson x
  inJson_toDatum xs := by
    show Datum.list (itemsInJson (xs.map toDatum)) = Datum.list (xs.map toDatum)
    rw [itemsInJson_eq_map, List.map_map]
    exact congrArg Datum.list (List.map_congr_left fun x _ => PlainDatum.inJson_toDatum x)

instance [ToDatum α] {levels : Nat} [PlainDatum α levels] : PlainDatum (Option α) levels where
  fitsJson
    | some x => PlainDatum.fitsJson x
    | none => .null
  inJson_toDatum
    | some x => PlainDatum.inJson_toDatum x
    | none => rfl

variable [Keyed κ] [ToDatum κ] [ToDatum α]

theorem Table.inJson_toDatum (t : Table κ α) : (toDatum t).inJson =
    .map (t.entries.map fun e => (.text (toDatum e.1).keyName, (toDatum e.2).inJson)) := by
  show Datum.map (entriesInJson (t.entries.map fun e => (toDatum e.1, toDatum e.2))) = _
  rw [entriesInJson_eq_map, List.map_map]
  rfl

theorem Table.fitsJson {depth : Nat} {t : Table κ α}
    (h : ∀ k x, t.get? k = some x → (toDatum x).FitsJson depth) :
    (toDatum t).FitsJson (depth + 1) := by
  refine .map fun d hd => ?_
  obtain ⟨e, he, rfl⟩ := List.mem_map.1 hd
  exact h e.1 e.2 (Table.mem_entries.1 he)

/-- A table is read back from JSON if its values are. -/
theorem Table.ofTexts?_inJson [OfKey κ] [LawfulKey κ] [OfDatum α] {t : Table κ α}
    (h : ∀ k x, t.get? k = some x → ofDatum? (toDatum x).inJson = some x) :
    ofTexts? (toDatum t).inJson = some t := by
  rw [inJson_toDatum, ofTexts?]
  refine (congrArg (Option.map ofList) (?_ : _ = some t.entries)).trans ?_
  · rw [Checked.mapM_eq_some, List.forall₂_map_left_iff, List.forall₂_same]
    intro e he
    have hvalue := h e.1 e.2 (Table.mem_entries.1 he)
    simp only [LawfulKey.ofKey?_keyName, hvalue, Option.bind_eq_bind, Option.bind_some]
  · rw [Option.map_some, Table.ofList_entries]

end

/-! ## Parts of a report -/

instance : PlainDatum LatencySummary 1 where
  fitsJson _ := fitsJson_record (by simp [fitsJson_toDatum])
  inJson_toDatum _ := (inJson_record _).trans (by simp; rfl)

instance : LawfulDatum LatencySummary where
  ofDatum?_toDatum _ := ofDatum?_record (fun _ => rfl) rfl rfl (by decide) <|
    read_required rfl <| read_required rfl <| read_required rfl rfl

instance : PlainDatum FlowSample 1 where
  fitsJson _ := fitsJson_record (by simp [fitsJson_toDatum])
  inJson_toDatum _ := (inJson_record _).trans (by simp; rfl)

instance : LawfulDatum FlowSample where
  ofDatum?_toDatum _ := ofDatum?_record (fun _ => rfl) rfl rfl (by decide) <|
    read_required rfl <| read_required rfl <| read_required rfl rfl

instance : PlainDatum CoreStatus 0 where
  fitsJson s := .text s.name
  inJson_toDatum _ := rfl

instance : LawfulDatum CoreStatus where
  ofDatum?_toDatum s := by cases s <;> rfl

theorem KeySet.fitsJson {κ : Type} [Keyed κ] [ToDatum κ] [PlainDatum κ 0] (s : KeySet κ) :
    s.toDatum.FitsJson 1 :=
  PlainDatum.fitsJson s.keys

theorem KeySet.inJson_toDatum {κ : Type} [Keyed κ] [ToDatum κ] [PlainDatum κ 0] (s : KeySet κ) :
    s.toDatum.inJson = s.toDatum :=
  PlainDatum.inJson_toDatum s.keys

instance : PlainDatum ResultStatus 2 where
  fitsJson
    | .complete => fitsJson_record (by simp [FitsJson.text])
    | .partially missing => fitsJson_record (by simp [FitsJson.text, missing.fitsJson])
  inJson_toDatum
    | .complete => rfl
    | .partially missing => (inJson_record _).trans (by simp [missing.inJson_toDatum]; rfl)

instance : LawfulDatum ResultStatus where
  ofDatum?_toDatum s := by
    have hintact := (PlainDatum.fitsJson s).intact_inJson
    rw [PlainDatum.inJson_toDatum] at hintact
    cases s with
    | complete => exact ofDatum?_tagged (fun _ => rfl) rfl hintact (by simp) rfl
    | partially missing =>
      exact ofDatum?_tagged (fun _ => rfl) rfl hintact (by simp) <|
        read_fields rfl (by decide) <|
        Option.bind_eq_some_iff.2 ⟨missing, KeySet.ofDatum?_toDatum missing, rfl⟩

/-! ## Flows and cores -/

/-- The timeline of a flow, if there is one. -/
def FlowResult.timelineField (r : FlowResult) : List (String × Datum) :=
  if r.timeline.isEmpty then [] else [("timeline", toDatum r.timeline)]

/-- The fields of a flow's result, as JSON has them. -/
def FlowResult.fieldsInJson (r : FlowResult) : List (String × Datum) :=
  [("flow", toDatum r.flow), ("sent", toDatum r.sent), ("blocked", toDatum r.blocked),
    ("received", (toDatum r.received).inJson), ("dropped", toDatum r.dropped),
    ("latency", toDatum r.latency), ("status", toDatum r.status)] ++ r.timelineField

theorem FlowResult.inJson_toDatum (r : FlowResult) :
    (toDatum r).inJson = record r.fieldsInJson := by
  have htimeline : r.timelineField.map (fun f => (f.1, f.2.inJson)) = r.timelineField := by
    unfold timelineField
    split
    · rfl
    · simp
  refine (inJson_record _).trans ?_
  rw [List.map_append]
  change record (_ ++ r.timelineField.map _) = _
  rw [htimeline]
  simp [fieldsInJson]

theorem FlowResult.fitsJson (r : FlowResult) : (toDatum r).FitsJson 3 := by
  have hreceived : (toDatum r.received).FitsJson 2 :=
    Table.fitsJson fun _ n _ => fitsJson_toDatum n (Nat.zero_le 1)
  have htimeline : ∀ f ∈ r.timelineField, f.2.FitsJson 2 := by
    intro f hf
    unfold timelineField at hf
    split at hf
    · cases hf
    · rw [List.mem_singleton.1 hf]
      exact fitsJson_toDatum r.timeline (Nat.le_refl 2)
  refine fitsJson_record fun f hf => ?_
  rcases List.mem_append.1 hf with hf | hf
  · revert f
    simp [hreceived, fitsJson_toDatum]
  · exact htimeline f hf

/-- A flow's result is read back; without a timeline it reads as one whose timeline is empty. -/
theorem FlowResult.ofDatum?_inJson (r : FlowResult) : ofDatum? (toDatum r).inJson = some r := by
  have hreceived : Table.ofTexts? (toDatum r.received).inJson = some r.received :=
    Table.ofTexts?_inJson fun _ n _ => by rw [PlainDatum.inJson_toDatum, ofDatum?_toDatum]
  have hfields : ∀ names, names = ["flow", "sent", "blocked", "received", "dropped", "latency",
      "status", "timeline"] →
      fields? names (record r.fieldsInJson) = some ⟨false, r.fieldsInJson⟩ := by
    rintro names rfl
    refine fields?_of_known ?_ ?_ <;> unfold fieldsInJson timelineField <;> split <;> simp
  have htimeline : (⟨false, r.fieldsInJson⟩ : Fields).withDefault "timeline" [] =
      some r.timeline := by
    unfold fieldsInJson timelineField
    split
    · next hempty =>
      rw [List.isEmpty_iff.1 hempty]
      rfl
    · exact ofDatum?_toDatum r.timeline
  rw [inJson_toDatum]
  change (fields? _ (record r.fieldsInJson)).bind _ = some r
  rw [hfields _ rfl, Option.bind_some]
  exact read_required rfl <| read_required rfl <| read_required rfl <|
    Option.bind_eq_some_iff.2 ⟨r.received, hreceived, read_required rfl <|
      read_nullable rfl rfl <| read_required rfl <|
        Option.bind_eq_some_iff.2 ⟨r.timeline, htimeline, rfl⟩⟩

theorem CoreReport.fitsJson (r : CoreReport) : (toDatum r).FitsJson 2 := by
  have hrouter : (toDatum r.router).FitsJson 1 := Table.fitsJson fun _ n _ => PlainDatum.fitsJson n
  exact fitsJson_record (by simp [hrouter, fitsJson_toDatum])

theorem CoreReport.ofDatum?_inJson (r : CoreReport) : ofDatum? (toDatum r).inJson = some r := by
  have hrouter : Table.ofTexts? (toDatum r.router).inJson = some r.router :=
    Table.ofTexts?_inJson fun _ n _ => by rw [PlainDatum.inJson_toDatum, ofDatum?_toDatum]
  have hrecord : (toDatum r).inJson =
      record [("status", toDatum r.status), ("router", (toDatum r.router).inJson)] :=
    (inJson_record _).trans (by simp)
  rw [hrecord]
  exact read_fields rfl (by decide) <| read_required rfl <|
    Option.bind_eq_some_iff.2 ⟨r.router, hrouter, rfl⟩

/-! ## Reports -/

namespace Report

variable (r : Report)

theorem fitsJson : (toDatum r).FitsJson 5 := by
  have hflows : (toDatum r.flows).FitsJson 4 := Table.fitsJson fun _ f _ => f.fitsJson
  have hcores : (toDatum r.cores).FitsJson 4 :=
    Table.fitsJson fun _ c _ => c.fitsJson.mono (by decide)
  exact fitsJson_record (by simp [hflows, hcores])

theorem inJson_toDatum : (toDatum r).inJson =
    record [("flows", (toDatum r.flows).inJson), ("cores", (toDatum r.cores).inJson)] :=
  inJson_record _

theorem ofDatum?_inJson : ofDatum? (toDatum r).inJson = some r := by
  have hflows : Table.ofTexts? (toDatum r.flows).inJson = some r.flows :=
    Table.ofTexts?_inJson fun _ f _ => f.ofDatum?_inJson
  have hcores : Table.ofTexts? (toDatum r.cores).inJson = some r.cores :=
    Table.ofTexts?_inJson fun _ c _ => c.ofDatum?_inJson
  rw [r.inJson_toDatum]
  exact read_fields rfl (by decide) <| Option.bind_eq_some_iff.2 ⟨r.flows, hflows,
    Option.bind_eq_some_iff.2 ⟨r.cores, hcores, rfl⟩⟩

/-- What the text of a report denotes. -/
theorem read?_write_datum : Json.read? r.write = some (toDatum r).inJson :=
  Json.read?_pretty r.fitsJson (by decide)

theorem read?_write : read? r.write = some r := by
  unfold read?
  rw [r.read?_write_datum, Option.bind_some, r.ofDatum?_inJson]

end Report

/-! ## What the text of a report holds -/

/-- The fields of a flow's result in JSON: counts by core under decimal keys, no latency as `null`,
the status with its name, and a timeline only if there is one. -/
structure FlowResult.StoredAs (r : FlowResult) (fields : List (Datum × Datum)) : Prop where
  received : (.text "received",
    .map (r.received.entries.map fun e => (.text (toString e.1), toDatum e.2))) ∈ fields
  latency : (.text "latency", .null) ∈ fields ↔ r.latency = none
  status : ∃ others, (.text "status", .record (("status",
    .text (if r.status.isComplete then "complete" else "partial")) :: others)) ∈ fields
  timeline : .text "timeline" ∈ fields.map (·.1) ↔ r.timeline ≠ []

theorem FlowResult.storedAs (r : FlowResult) :
    r.StoredAs (r.fieldsInJson.map fun f => (.text f.1, f.2)) where
  received := by
    rw [List.mem_map]
    refine ⟨("received", (toDatum r.received).inJson), by simp [fieldsInJson], ?_⟩
    rw [Table.inJson_toDatum]
    simp only [keyName_id, PlainDatum.inJson_toDatum]
  latency := by
    unfold fieldsInJson timelineField
    cases r.latency with
    | none =>
      have hnull : toDatum (none : Option LatencySummary) = .null := rfl
      simp [hnull]
    | some l =>
      have hpresent : Datum.null ≠ toDatum (some l) := nofun
      split <;> simp [hpresent]
  status := by
    have hstatus : ("status", toDatum r.status) ∈ r.fieldsInJson := by simp [fieldsInJson]
    cases hs : r.status with
    | complete =>
      rw [hs] at hstatus
      exact ⟨[], List.mem_map.2 ⟨_, hstatus, rfl⟩⟩
    | partially missing =>
      rw [hs] at hstatus
      exact ⟨[("missing", missing.toDatum)], List.mem_map.2 ⟨_, hstatus, rfl⟩⟩
  timeline := by
    unfold fieldsInJson timelineField
    cases r.timeline <;> simp

/-! ## Main result -/

/-- What is written of a report is read back as the same report, whatever it holds.  Its text is an
object with the flows and the cores, each under the decimal text of its identifier. -/
theorem reports_are_read_back (r : Report) :
    Report.read? r.write = some r ∧
    (∀ path text, r.toFile path = .ok text → Report.read? text = some r) ∧
    (∀ path, fileType? path = some "json" → r.toFile path = .ok r.write) ∧
    (∃ flows cores, Json.read? r.write =
        some (.record [("flows", .map flows), ("cores", .map cores)]) ∧
      flows.map (·.1) = r.flows.keys.map (fun id => .text (toString id)) ∧
      cores.map (·.1) = r.cores.keys.map (fun core => .text (toString core)) ∧
      ∀ id f, r.flows.get? id = some f → ∃ fields,
        (Datum.text (toString id), Datum.map fields) ∈ flows ∧ f.StoredAs fields) := by
  refine ⟨r.read?_write, fun path text htext => ?_, fun path hpath => ?_, ?_⟩
  · unfold Report.toFile at htext
    split at htext
    · cases htext
      exact r.read?_write
    · cases htext
  · unfold Report.toFile
    rw [if_pos hpath]
  · rw [r.read?_write_datum, r.inJson_toDatum, Table.inJson_toDatum, Table.inJson_toDatum]
    refine ⟨_, _, rfl, ?_, ?_, fun id f hf => ⟨_, ?_, f.storedAs⟩⟩
    · rw [List.map_map, Table.keys, List.map_map]
      rfl
    · rw [List.map_map, Table.keys, List.map_map]
      rfl
    · rw [List.mem_map]
      exact ⟨(id, f), Table.mem_entries.2 hf, by rw [f.inJson_toDatum]; rfl⟩

/-- A report with a flow that is complete and one that is not, counts that fill their words, and a
core whose dump was cut. -/
def Report.eventful : Report :=
  ⟨.ofList [
      (⟨0⟩, ⟨⟨0⟩, 0xFFFFFFFFFFFFFFFF, 1, .ofList [(⟨10⟩, 7), (⟨2⟩, 0xFFFFFFFFFFFFFFFE)], 3,
        some ⟨7, ⟨1500⟩, ⟨0⟩⟩, .complete, [⟨⟨4⟩, 2, 2⟩, ⟨⟨8⟩, 5, 4⟩]⟩),
      (⟨0xFFFFFFFF⟩, ⟨⟨0xFFFFFFFF⟩, 0, 0, .empty, 0, none, .partially (.ofList [⟨3⟩, ⟨1⟩]), []⟩)],
    .ofList [(⟨1⟩, ⟨.truncated, .empty⟩), (⟨2⟩, ⟨.decoded, .ofList [(.droppedMulticast, 3)]⟩)]⟩

theorem reports_are_read_back_eventful :
    fileType? "runs/7/report.json" = some "json" ∧
      Report.eventful.toFile "runs/7/report.json" = .ok Report.eventful.write ∧
      Report.read? Report.eventful.write = some Report.eventful := by
  obtain ⟨-, hfile, hjson, -⟩ := reports_are_read_back Report.eventful
  have htype : fileType? "runs/7/report.json" = some "json" := by decide
  have hwritten := hjson _ htype
  exact ⟨htype, hwritten, hfile _ _ hwritten⟩

end TrafficLab
