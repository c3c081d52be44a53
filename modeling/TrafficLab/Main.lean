import TrafficLab.CommandLine

/-!
# The executable

Reads and writes real files and prints to the terminal; all else is `CommandLine.program`.
-/

open TrafficLab

/-- The reason in an input or output error. -/
def reason (e : IO.Error) : String :=
  match e with
  | .noFileOrDirectory _ _ _ => "No such file or directory (os error 2)"
  | e => toString e

def readBytes (path : String) : IO (Except String (List UInt8)) := do
  try
    let bytes ← IO.FS.readBinFile path
    pure (.ok bytes.toList)
  catch e => pure (.error (reason e))

def writeBytes (path : String) (contents : List UInt8) : IO (Except String Unit) := do
  try
    IO.FS.writeBinFile path ⟨contents.toArray⟩
    pure (.ok ())
  catch e => pure (.error (reason e))

def main (args : List String) : IO UInt32 := do
  let exit ← CommandLine.program ⟨readBytes, writeBytes⟩ args
  (← IO.getStdout).putStr exit.out
  (← IO.getStderr).putStr exit.err
  pure exit.code.toUInt32
