import TrafficLab.Datum
import TrafficLab.Decimal.Shortest

/-!
# Printing JSON

`Json.pretty d` spells a datum as a JSON text, one item or entry to a line, indented by two blanks
for each list or map it is in.  An empty list or map is written without a line of its own.  Keys
that are numbers are quoted, since JSON has texts for keys only.
-/

namespace TrafficLab.Json

/-! ## Texts -/

def hexChar (n : Nat) : Char := (Nat.digitChar (n % 16))

/-- A character of a text between quotes. -/
def escape (c : Char) : List Char :=
  if c = '"' then ['\\', '"']
  else if c = '\\' then ['\\', '\\']
  else if c = '\n' then ['\\', 'n']
  else if c = '\r' then ['\\', 'r']
  else if c = '\t' then ['\\', 't']
  else if c = '\x08' then ['\\', 'b']
  else if c = '\x0c' then ['\\', 'f']
  else if c.toNat < 32 then ['\\', 'u', '0', '0', hexChar (c.toNat / 16), hexChar c.toNat]
  else [c]

def quote (s : String) : String := "\"" ++ String.ofList (s.toList.flatMap escape) ++ "\""

/-! ## Values -/

/-- A floating-point number always has a point. -/
def realText (x : Float) : String :=
  let s := Decimal.text x
  if s.toList.contains '.' then s else s ++ ".0"

def keyText : Datum → String
  | .text s => quote s
  | .int n => quote (toString n)
  | _ => quote ""

/-- The start of a line at the given depth. -/
def lineStart (depth : Nat) : String := "\n" ++ String.ofList (List.replicate (2 * depth) ' ')

mutual

/-- The text of a datum in a list or map of the given depth. -/
def prettyAt (depth : Nat) : Datum → String
  | .null => "null"
  | .bool b => if b then "true" else "false"
  | .int n => toString n
  | .real x => realText x
  | .text s => quote s
  | .octets bytes => "[" ++ ",".intercalate (bytes.map fun b => toString b.toNat) ++ "]"
  | .list [] => "[]"
  | .list (d :: rest) =>
    "[" ++ lineStart (depth + 1) ++ prettyAt (depth + 1) d ++ prettyItems (depth + 1) rest
      ++ lineStart depth ++ "]"
  | .map [] => "\x7b\x7d"
  | .map ((k, d) :: rest) =>
    "\x7b" ++ lineStart (depth + 1) ++ keyText k ++ ": " ++ prettyAt (depth + 1) d
      ++ prettyEntries (depth + 1) rest ++ lineStart depth ++ "\x7d"
  | .unreadable => "null"

def prettyItems (depth : Nat) : List Datum → String
  | [] => ""
  | d :: rest => "," ++ lineStart depth ++ prettyAt depth d ++ prettyItems depth rest

def prettyEntries (depth : Nat) : List (Datum × Datum) → String
  | [] => ""
  | (k, d) :: rest =>
    "," ++ lineStart depth ++ keyText k ++ ": " ++ prettyAt depth d ++ prettyEntries depth rest

end

def pretty (d : Datum) : String := prettyAt 0 d

end TrafficLab.Json
