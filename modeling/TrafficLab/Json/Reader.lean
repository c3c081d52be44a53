import TrafficLab.Datum
import TrafficLab.Decimal.Reading

/-!
# Reading JSON

`Json.read? text` is the datum that a text denotes by the grammar of RFC 8259: one value, with
blanks around it and nothing else.

Whole numbers of at most 64 bits are whole numbers; all other numbers are floating-point, the
nearest to the decimal that is written, and so is the whole number `-0`.  Nothing can be read from
a number beyond the floating-point range, from a text with half of a surrogate pair, or from lists
and maps that are nested too deep, but they may stand wherever nothing is read.
-/

namespace TrafficLab.Json

/-! ## Blanks and words -/

def isBlank (c : Char) : Bool := c == ' ' || c == '\t' || c == '\n' || c == '\r'

def skipBlanks : List Char → List Char
  | c :: cs => if isBlank c then skipBlanks cs else c :: cs
  | [] => []

/-- What follows `word`, if the text starts with it. -/
def after? : List Char → List Char → Option (List Char)
  | [], cs => some cs
  | w :: ws, c :: cs => if w = c then after? ws cs else none
  | _ :: _, [] => none

/-! ## Numbers -/

/-- The number with the given sign, digits and exponent. -/
def realDatum (negative : Bool) (digits : Nat) (exponent : Int) : Datum :=
  match Decimal.nearest? negative digits exponent with
  | some x => .real x
  | none => .unreadable

/-- The whole number with the given sign and digits. -/
def wholeDatum (negative : Bool) (digits : Nat) : Datum :=
  if negative then
    if 0 < digits ∧ digits ≤ 2 ^ 63 then .int (-Int.ofNat digits) else realDatum true digits 0
  else
    if digits < 2 ^ 64 then .int (Int.ofNat digits) else realDatum false digits 0

/-- The exponent at the front of a text, if there is one, and the rest. -/
def takeExponent? : List Char → Option (Option Int × List Char)
  | c :: rest =>
    if c = 'e' ∨ c = 'E' then
      let (negative, rest) := Decimal.takeSign rest
      match Decimal.takeDigits 0 0 rest with
      | (_, 0, _) => none
      | (value, _, rest) =>
        some (some (if negative then -Int.ofNat value else Int.ofNat value), rest)
    else some (none, c :: rest)
  | [] => some (none, [])

/-- The digits before the point: a zero alone, or digits that do not begin with a zero. -/
def takeWhole? : List Char → Option (Nat × List Char)
  | '0' :: c :: rest => if c.isDigit then none else some (0, c :: rest)
  | cs =>
    match Decimal.takeDigits 0 0 cs with
    | (_, 0, _) => none
    | (value, _, rest) => some (value, rest)

/-- A number without its minus sign. -/
def magnitude? (negative : Bool) (cs : List Char) : Option (Datum × List Char) := do
  let (whole, rest) ← takeWhole? cs
  match rest with
  | '.' :: rest =>
    match Decimal.takeDigits whole 0 rest with
    | (_, 0, _) => none
    | (digits, places, rest) =>
      let (e, rest) ← takeExponent? rest
      some (realDatum negative digits (e.getD 0 - Int.ofNat places), rest)
  | rest =>
    let (e, rest) ← takeExponent? rest
    match e with
    | some e => some (realDatum negative whole e, rest)
    | none => some (wholeDatum negative whole, rest)

def number? : List Char → Option (Datum × List Char)
  | '-' :: rest => magnitude? true rest
  | cs => magnitude? false cs

/-! ## Texts -/

def hexDigit? (c : Char) : Option Nat :=
  if c.isDigit then some (c.toNat - 48)
  else if 'a' ≤ c ∧ c ≤ 'f' then some (c.toNat - 87)
  else if 'A' ≤ c ∧ c ≤ 'F' then some (c.toNat - 55)
  else none

/-- Four hexadecimal digits. -/
def hex4? (a b c d : Char) : Option Nat := do
  some (((← hexDigit? a) * 16 + (← hexDigit? b)) * 256 + (← hexDigit? c) * 16 + (← hexDigit? d))

/-- The character that a letter after a backslash stands for. -/
def escaped? : Char → Option Char
  | '"' => some '"'
  | '\\' => some '\\'
  | '/' => some '/'
  | 'b' => some '\x08'
  | 'f' => some '\x0c'
  | 'n' => some '\n'
  | 'r' => some '\r'
  | 't' => some '\t'
  | _ => none

def isHighSurrogate (n : Nat) : Bool := 0xD800 ≤ n && n < 0xDC00

def isLowSurrogate (n : Nat) : Bool := 0xDC00 ≤ n && n < 0xE000

/-- The characters up to the closing quote, last first, and the rest.  Half of a surrogate pair is
no character: what it stands in has no value. -/
def textBody? : Nat → Option (List Char) → List Char → Option (Option (List Char) × List Char)
  | 0, _, _ => none
  | fuel + 1, acc, cs =>
    let push (c : Char) := acc.map fun chars => c :: chars
    match cs with
    | '"' :: rest => some (acc, rest)
    | '\\' :: 'u' :: a :: b :: c :: d :: rest => do
      let high ← hex4? a b c d
      if isHighSurrogate high then
        match rest with
        | '\\' :: 'u' :: a :: b :: c :: d :: rest' =>
          let low ← hex4? a b c d
          if isLowSurrogate low then
            let c := Char.ofNat (0x10000 + (high - 0xD800) * 1024 + (low - 0xDC00))
            textBody? fuel (push c) rest'
          else textBody? fuel none rest
        | rest => textBody? fuel none rest
      else if isLowSurrogate high then textBody? fuel none rest
      else textBody? fuel (push (Char.ofNat high)) rest
    | '\\' :: e :: rest => do
      let c ← escaped? e
      textBody? fuel (push c) rest
    | c :: rest => if c.toNat < 32 then none else textBody? fuel (push c) rest
    | [] => none

/-- A text whose opening quote has been read. -/
def text? (cs : List Char) : Option (Datum × List Char) :=
  (textBody? (cs.length + 1) (some []) cs).map fun (chars, rest) =>
    match chars with
    | some chars => (.text (String.ofList chars.reverse), rest)
    | none => (.unreadable, rest)

/-! ## Values -/

mutual

/-- A value at the front of a text that starts with no blank, and the rest. -/
def value? : Nat → List Char → Option (Datum × List Char)
  | 0, _ => none
  | fuel + 1, cs =>
    match cs with
    | 'n' :: _ => (after? "null".toList cs).map fun rest => (.null, rest)
    | 't' :: _ => (after? "true".toList cs).map fun rest => (.bool true, rest)
    | 'f' :: _ => (after? "false".toList cs).map fun rest => (.bool false, rest)
    | '"' :: rest => text? rest
    | '[' :: rest =>
      match skipBlanks rest with
      | ']' :: rest => some (.list [], rest)
      | rest => (items? fuel rest).map fun (items, rest) => (.list items, rest)
    | '\x7b' :: rest =>
      match skipBlanks rest with
      | '\x7d' :: rest => some (.map [], rest)
      | rest => (members? fuel rest).map fun (entries, rest) => (.map entries, rest)
    | cs => number? cs

/-- The values of a list up to its end, and the rest. -/
def items? : Nat → List Char → Option (List Datum × List Char)
  | 0, _ => none
  | fuel + 1, cs => do
    let (d, rest) ← value? fuel cs
    match skipBlanks rest with
    | ']' :: rest => some ([d], rest)
    | ',' :: rest =>
      let (items, rest) ← items? fuel (skipBlanks rest)
      some (d :: items, rest)
    | _ => none

/-- The entries of a map up to its end, and the rest. -/
def members? : Nat → List Char → Option (List (Datum × Datum) × List Char)
  | 0, _ => none
  | fuel + 1, cs => do
    let (key, rest) ← match cs with
      | '"' :: rest => text? rest
      | _ => none
    let rest ← match skipBlanks rest with
      | ':' :: rest => some (skipBlanks rest)
      | _ => none
    let (d, rest) ← value? fuel rest
    match skipBlanks rest with
    | '\x7d' :: rest => some ([(key, d)], rest)
    | ',' :: rest =>
      let (entries, rest) ← members? fuel (skipBlanks rest)
      some ((key, d) :: entries, rest)
    | _ => none

end

/-- How deep lists and maps may be nested and still be read from. -/
def maxDepth : Nat := 127

/-- The datum that a text denotes. -/
def read? (text : String) : Option Datum := do
  let cs := skipBlanks text.toList
  let (d, rest) ← value? (cs.length + 1) cs
  if (skipBlanks rest).isEmpty then some (d.upTo maxDepth) else none

end TrafficLab.Json
