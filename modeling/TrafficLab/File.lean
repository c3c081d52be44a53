import TrafficLab.Archive
import TrafficLab.Report.Stored
import TrafficLab.Spec

/-!
# Files

What files hold, by their names: specifications and reports are JSON files, and a file's type is
what follows the last point of its name.  A name that begins with its only point has no type.
-/

namespace TrafficLab

inductive FileError
  /-- The file cannot be reached, or is not the text that it should be. -/
  | unreadable (reason : String)
  | json
  | messagePack
  | unknownType (path : String)
  deriving DecidableEq, Repr

namespace FileError

def message : FileError → String
  | unreadable _ => "IO error"
  | json => "JSON error"
  | messagePack => "MsgPack decode error"
  | unknownType path => s!"unknown file type: {path}"

/-- What lies behind an error whose message does not say it. -/
def cause? : FileError → Option String
  | unreadable reason => some reason
  | _ => none

end FileError

/-- The last part of a path, backwards. -/
def lastPartReversed (path : List Char) : List Char :=
  (path.reverse.dropWhile (· == '/')).takeWhile (· != '/')

/-- The type of a file. -/
def fileType? (path : String) : Option String :=
  let name := lastPartReversed path.toList
  if name == ['.', '.'] then none
  else
    match name.dropWhile (· != '.') with
    | _ :: _ :: _ => some (String.ofList (name.takeWhile (· != '.')).reverse)
    | _ => none

/-- The specification in a file with the given contents. -/
def Spec.ofFile (path : String) (contents : List UInt8) : Except FileError Spec :=
  match String.fromUTF8? ⟨contents.toArray⟩ with
  | none => .error (.unreadable "stream did not contain valid UTF-8")
  | some text =>
    if fileType? path = some "json" then
      match (Json.read? text).bind ofDatum? with
      | some spec => .ok spec
      | none => .error .json
    else .error (.unknownType path)

/-- The contents of a report's file. -/
def Report.toFile (path : String) (r : Report) : Except FileError String :=
  if fileType? path = some "json" then .ok r.write else .error (.unknownType path)

/-- The archive in a file. -/
def Archive.ofFile (contents : List UInt8) : Except FileError Archive :=
  match Archive.load? contents with
  | some a => .ok a
  | none => .error .messagePack

end TrafficLab
