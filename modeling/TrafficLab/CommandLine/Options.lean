import TrafficLab.Decimal.Reading
import TrafficLab.Quantity

/-!
# Options of the command line

An option is `--name value`, `--name=value` or, for those with a letter, `-l value`, `-lvalue` or
`-l=value`.  None may be given twice, and a value that is an argument of its own does not begin
with a dash.
-/

namespace TrafficLab.CommandLine

structure Options where
  spec : Option String
  regions : UInt32
  cores : UInt32
  rate : Float
  poisson : Bool
  duration : Millisecs
  timestep : Microsecs
  recordInterval : Microsecs
  seed : UInt32
  dropRate : Float
  report : Option String
  archive : Option String

def Options.standard : Options :=
  ⟨none, 4, 4, 10000, false, ⟨100⟩, ⟨1⟩, ⟨0⟩, 0, 0, none, none⟩

/-! ## Names -/

inductive OptionName
  | spec
  | regions
  | cores
  | rate
  | poisson
  | duration
  | timestep
  | recordInterval
  | seed
  | dropRate
  | report
  | archive
  | help
  | version
  deriving DecidableEq, Repr

namespace OptionName

def ofLong? : String → Option OptionName
  | "spec" => some spec
  | "regions" => some regions
  | "cores" => some cores
  | "rate" => some rate
  | "poisson" => some poisson
  | "duration" => some duration
  | "timestep" => some timestep
  | "record-interval" => some recordInterval
  | "seed" => some seed
  | "drop-rate" => some dropRate
  | "report" => some report
  | "archive" => some archive
  | "help" => some help
  | "version" => some version
  | _ => none

def ofLetter? : Char → Option OptionName
  | 'r' => some regions
  | 'c' => some cores
  | 'd' => some duration
  | 't' => some timestep
  | 's' => some seed
  | 'h' => some help
  | 'V' => some version
  | _ => none

/-- Whether a value goes with the option. -/
def takesValue : OptionName → Bool
  | poisson | help | version => false
  | _ => true

end OptionName

/-! ## Arguments -/

/-- Whether an argument can stand for a value of its own. -/
def isValue (arg : List Char) : Bool :=
  match arg with
  | '-' :: _ :: _ => false
  | _ => true

/-- Splits an argument at its first equals sign. -/
def splitEquals (cs : List Char) : List Char × Option (List Char) :=
  match cs.dropWhile (· != '=') with
  | [] => (cs, none)
  | _ :: value => (cs.takeWhile (· != '='), some value)

/-- What an argument begins with: an option, and the value that is joined to it. -/
def option? : List Char → Option (OptionName × Option (List Char))
  | '-' :: '-' :: body =>
    let (name, value) := splitEquals body
    (OptionName.ofLong? (String.ofList name)).map fun o => (o, value)
  | ['-', letter] => (OptionName.ofLetter? letter).map fun o => (o, none)
  | '-' :: letter :: '=' :: value => (OptionName.ofLetter? letter).map fun o => (o, some value)
  | '-' :: letter :: value => (OptionName.ofLetter? letter).map fun o => (o, some value)
  | _ => none

/-- The options that are given, with their values, or nothing if the arguments are no options. -/
def given? : List (List Char) → Option (List (OptionName × List Char))
  | [] => some []
  | arg :: rest =>
    match option? arg with
    | none => none
    | some (name, joined) =>
      if name.takesValue then
        match joined, rest with
        | some value, rest => (given? rest).map ((name, value) :: ·)
        | none, value :: rest =>
          if isValue value then (given? rest).map ((name, value) :: ·) else none
        | none, [] => none
      else
        match joined with
        | some _ => none
        | none => (given? rest).map ((name, []) :: ·)

/-! ## Values -/

/-- A 32-bit number, with a sign if need be. -/
def readWord? : List Char → Option UInt32
  | '-' :: digits =>
    match readDigits UInt32.size 0 digits with
    | .ok 0 => if digits.isEmpty then none else some 0
    | _ => none
  | digits => (readWord32 (String.ofList digits)).toOption

/-- A path is not empty. -/
def readPath? (cs : List Char) : Option String :=
  if cs.isEmpty then none else some (String.ofList cs)

/-- Sets an option to the value that is given. -/
def set? (o : Options) (name : OptionName) (value : List Char) : Option Options :=
  let text := String.ofList value
  match name with
  | .spec => (readPath? value).map fun path => { o with spec := some path }
  | .regions => (readWord? value).map fun n => { o with regions := n }
  | .cores => (readWord? value).map fun n => { o with cores := n }
  | .rate => (Decimal.read? text).map fun x => { o with rate := x }
  | .poisson => some { o with poisson := true }
  | .duration => (Quantity.read .millisecond text).toOption.map fun t => { o with duration := t }
  | .timestep => (Quantity.read .microsecond text).toOption.map fun t => { o with timestep := t }
  | .recordInterval =>
    (Quantity.read .microsecond text).toOption.map fun t => { o with recordInterval := t }
  | .seed => (readWord? value).map fun n => { o with seed := n }
  | .dropRate => (Decimal.read? text).map fun x => { o with dropRate := x }
  | .report => (readPath? value).map fun path => { o with report := some path }
  | .archive => (readPath? value).map fun path => { o with archive := some path }
  | .help | .version => some o

/-- What the arguments ask for. -/
inductive Request
  | run (o : Options)
  | help
  | version
  /-- The arguments are not understood. -/
  | misuse

def request (args : List String) : Request :=
  match given? (args.map String.toList) with
  | none => .misuse
  | some options =>
    let names := options.map (·.1)
    if names.contains .help then .help
    else if names.contains .version then .version
    else if ¬ names.Nodup then .misuse
    else
      match options.foldlM (fun o (name, value) => set? o name value) Options.standard with
      | some o => .run o
      | none => .misuse

end TrafficLab.CommandLine
