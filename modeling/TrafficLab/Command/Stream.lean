import TrafficLab.Command.Listing
import TrafficLab.LittleEndian

/-!
# Command streams

A stream is a word that gives the length of the commands in bytes, and then the words of the
commands.

`pack` writes a stream and `unpack` reads one; `unpack` fails with the first fault from the left.
-/

namespace TrafficLab

inductive CommandError
  | misaligned (length : Nat)
  | missingLength
  | lengthMismatch (declared actual : Nat)
  | unknownOpcode (code : Nat)
  | missingArgument (code : Nat)
  | badArgument (code : Nat) (word : UInt32)
  deriving DecidableEq, Repr

def CommandError.message : CommandError → String
  | misaligned length => s!"stream length {length} is not a whole number of words"
  | missingLength => "stream is missing its length prefix"
  | lengthMismatch declared actual =>
    s!"length prefix says {declared} bytes but {actual} follow"
  | unknownOpcode code => s!"unknown opcode {hexText 2 code}"
  | missingArgument code => s!"opcode {hexText 2 code} is missing its argument"
  | badArgument code word => s!"opcode {hexText 2 code} has an invalid argument {wordText word}"

namespace Stream

/-! ## Algorithm -/

/-- The words of commands in a row. -/
def words (commands : List Command) : List UInt32 := commands.flatMap Command.words

/-- The length of a packed stream in bytes. -/
def size (commands : List Command) : Nat := ((words commands).length + 1) * 4

def pack (commands : List Command) : List UInt8 :=
  let ws := words commands
  LittleEndian.bytes32 (UInt32.ofNat (ws.length * 4)) ++ ws.flatMap LittleEndian.bytes32

/-- Reads commands until no word is left. -/
def commands : List UInt32 → Except CommandError (List Command)
  | [] => .ok []
  | w :: rest =>
    let code := w.toNat % 256
    let number := UInt16.ofNat (w.toNat / 256 % 65536)
    match Opcode.ofCode? code with
    | none => .error (.unknownOpcode code)
    | some op =>
      match Command.plain? op number with
      | some c => (commands rest).map (c :: ·)
      | none =>
        match rest with
        | [] => .error (.missingArgument code)
        | a :: rest =>
          match Command.withArgument? op number a with
          | none => .error (.badArgument code a)
          | some c => (commands rest).map (c :: ·)

def unpack (bytes : List UInt8) : Except CommandError (List Command) :=
  if bytes.length % 4 ≠ 0 then .error (.misaligned bytes.length)
  else
    match LittleEndian.words32 bytes with
    | [] => .error .missingLength
    | declared :: rest =>
      let actual := bytes.length - 4
      if declared.toNat ≠ actual then .error (.lengthMismatch declared.toNat actual)
      else commands rest

end Stream

end TrafficLab
