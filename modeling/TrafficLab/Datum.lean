import TrafficLab.Table

/-!
# Data

A `Datum` is what a JSON text or a MessagePack byte string denotes: numbers, texts, lists and maps
without a schema.  Each type that is stored says once how it becomes a datum (`ToDatum`) and which
data it is read from (`OfDatum`); the two formats differ only in how a datum is spelled.

Reading is strict about values and lenient about form:

* a record may be a map of its fields or the list of them in order; fields it does not know are
  ignored, and a field that is given twice is an error;
* a choice may be its name, or a map from its name to what goes with it;
* a record that says its own kind may name the kind in a field or as the first of a list.
-/

namespace TrafficLab

/-- A self-describing value. -/
inductive Datum
  | null
  | bool (b : Bool)
  | int (n : Int)
  | real (x : Float)
  | text (s : String)
  | octets (bytes : List UInt8)
  | list (items : List Datum)
  | map (entries : List (Datum × Datum))
  /-- A value that is written correctly but that nothing can be read from, such as a number beyond
  the floating-point range. -/
  | unreadable
  deriving Inhabited

class ToDatum (α : Type) where
  toDatum : α → Datum

class OfDatum (α : Type) where
  ofDatum? : Datum → Option α

export ToDatum (toDatum)
export OfDatum (ofDatum?)

namespace Datum

/-! ## Words and lists -/

/-- A whole number below `size`. -/
def toNat? (size : Nat) : Datum → Option Nat
  | int n => if 0 ≤ n ∧ n < size then some n.toNat else none
  | _ => none

/-- A list of data; bytes are a list of small numbers. -/
def items? : Datum → Option (List Datum)
  | list items => some items
  | octets bytes => some (bytes.map fun b => int b.toNat)
  | _ => none

/-- A map with texts as keys. -/
def record (fields : List (String × Datum)) : Datum :=
  map (fields.map fun f => (text f.1, f.2))

mutual

/-- Whether everything in the datum can be read. -/
def intact : Datum → Bool
  | unreadable => false
  | list items => intactItems items
  | map entries => intactEntries entries
  | _ => true

def intactItems : List Datum → Bool
  | [] => true
  | d :: rest => intact d && intactItems rest

def intactEntries : List (Datum × Datum) → Bool
  | [] => true
  | (k, d) :: rest => intact k && intact d && intactEntries rest

end

mutual

/-- The datum without the lists and maps that are nested deeper than `depth`. -/
def upTo : Nat → Datum → Datum
  | 0, list _ => unreadable
  | 0, map _ => unreadable
  | depth + 1, list items => list (itemsUpTo depth items)
  | depth + 1, map entries => map (entriesUpTo depth entries)
  | _, d => d

def itemsUpTo (depth : Nat) : List Datum → List Datum
  | [] => []
  | d :: rest => upTo depth d :: itemsUpTo depth rest

def entriesUpTo (depth : Nat) : List (Datum × Datum) → List (Datum × Datum)
  | [] => []
  | (k, d) :: rest => (upTo depth k, upTo depth d) :: entriesUpTo depth rest

end

/-! ## Records -/

/-- The field that a key of a map stands for: its name, its bytes, or its place. -/
def fieldName? (names : List String) : Datum → Option String
  | text s => some s
  | octets bytes => some ((names.find? fun s => s.toUTF8.toList == bytes).getD "")
  | int n => if 0 ≤ n then some ((names[n.toNat]?).getD "") else none
  | _ => none

/-- The fields that were found in a datum. -/
structure Fields where
  /-- Whether the fields were given by their places alone. -/
  positional : Bool
  found : List (String × Datum)

/-- The fields of a record with the given names, in their order. -/
def fields? (names : List String) : Datum → Option Fields
  | list items => if items.length ≤ names.length then some ⟨true, names.zip items⟩ else none
  | map entries => do
    let named ← entries.mapM fun e => (fieldName? names e.1).map fun s => (s, e.2)
    let found := named.filter fun f => names.contains f.1
    if (found.map (·.1)).Nodup then some ⟨false, found⟩ else none
  | _ => none

/-- Whether all entries of a map are among the fields that were found in it. -/
def Fields.onlyKnown (f : Fields) : Datum → Bool
  | map entries => entries.length == f.found.length
  | _ => true

namespace Fields

variable {α : Type} [OfDatum α]

def get? (f : Fields) (name : String) : Option Datum :=
  (f.found.find? fun e => e.1 == name).map (·.2)

/-- A field that must be there. -/
def required (f : Fields) (name : String) : Option α := (f.get? name).bind ofDatum?

/-- A field with a value for when it is left out. -/
def withDefault (f : Fields) (name : String) (default : α) : Option α :=
  match f.get? name with
  | some d => ofDatum? d
  | none => some default

/-- A field that is nothing when a map leaves it out; a list cannot leave it out. -/
def nullable (f : Fields) (name : String) : Option (Option α) :=
  match f.get? name with
  | some null => some none
  | some d => (ofDatum? d).map some
  | none => if f.positional then none else some none

end Fields

/-! ## Choices -/

/-- A choice: its name, and what goes with it. -/
def choice? : Datum → Option (String × Option Datum)
  | text s => some (s, none)
  | map [(text s, d)] => some (s, some d)
  | _ => none

/-- The name of a choice that nothing goes with. -/
def plainChoice? (d : Datum) : Option String :=
  match d.choice? with
  | some (s, none) => some s
  | some (s, some null) => some s
  | _ => none

def isText (s : String) : Datum → Bool
  | text t => s == t
  | _ => false

/-- A record that says its kind in the field `tag`, or as the first of a list: the kind and the
rest. -/
def tagged? (tag : String) (d : Datum) : Option (String × Datum) :=
  if d.intact then
    match d with
    | list (text kind :: rest) => some (kind, list rest)
    | map entries =>
      match entries.filter fun e => e.1.isText tag with
      | [(_, text kind)] => some (kind, map (entries.filter fun e => !e.1.isText tag))
      | _ => none
    | _ => none
  else none

end Datum

/-! ## Instances -/

instance : ToDatum Bool := ⟨.bool⟩

instance : OfDatum Bool where
  ofDatum?
    | .bool b => some b
    | _ => none

instance : ToDatum UInt8 := ⟨fun n => .int n.toNat⟩
instance : ToDatum UInt32 := ⟨fun n => .int n.toNat⟩
instance : ToDatum UInt64 := ⟨fun n => .int n.toNat⟩

instance : OfDatum UInt8 := ⟨fun d => (d.toNat? UInt8.size).map UInt8.ofNat⟩
instance : OfDatum UInt32 := ⟨fun d => (d.toNat? UInt32.size).map UInt32.ofNat⟩
instance : OfDatum UInt64 := ⟨fun d => (d.toNat? UInt64.size).map UInt64.ofNat⟩

instance : ToDatum Float := ⟨.real⟩

/-- A floating-point number may be given as a whole number. -/
instance : OfDatum Float where
  ofDatum?
    | .real x => some x
    | .int n => some (if 0 ≤ n then (UInt64.ofNat n.toNat).toFloat
        else -(UInt64.ofNat (-n).toNat).toFloat)
    | _ => none

instance {k : Named} : ToDatum (Id k) := ⟨fun a => toDatum a.val⟩
instance {k : Named} : OfDatum (Id k) := ⟨fun d => (ofDatum? d).map Id.mk⟩

instance : ToDatum RoutingKey := ⟨fun key => toDatum key.val⟩
instance : OfDatum RoutingKey := ⟨fun d => (ofDatum? d).map RoutingKey.mk⟩

variable {α κ : Type}

instance [ToDatum α] : ToDatum (List α) := ⟨fun xs => .list (xs.map toDatum)⟩
instance [OfDatum α] : OfDatum (List α) := ⟨fun d => d.items?.bind fun items => items.mapM ofDatum?⟩

instance [ToDatum α] : ToDatum (Option α) where
  toDatum
    | some x => toDatum x
    | none => .null

instance [OfDatum α] : OfDatum (Option α) where
  ofDatum?
    | .null => some none
    | d => (ofDatum? d).map some

instance [Keyed κ] [ToDatum κ] [ToDatum α] : ToDatum (Table κ α) :=
  ⟨fun t => .map (t.entries.map fun e => (toDatum e.1, toDatum e.2))⟩

instance [Keyed κ] [OfDatum κ] [OfDatum α] : OfDatum (Table κ α) where
  ofDatum?
    | .map entries =>
      (entries.mapM fun (k, d) => do some (← ofDatum? k, ← ofDatum? d)).map Table.ofList
    | _ => none

/-- A set is the list of its members. -/
def KeySet.toDatum [Keyed κ] [ToDatum κ] (s : KeySet κ) : Datum := TrafficLab.toDatum s.keys

/-- A set is read from a list in any order, repetitions included. -/
def KeySet.ofDatum? [Keyed κ] [OfDatum κ] (d : Datum) : Option (KeySet κ) :=
  (TrafficLab.ofDatum? d : Option (List κ)).map KeySet.ofList

end TrafficLab
