import FleetCoordination.Table
import FleetCoordination.Text.Blank
/-!
# Disks

What a command finds on disk: the files and other things at absolute paths, and the
directory from which other paths start.
-/
namespace FleetCoordination

inductive Disk.Entry
  | file (text : String)
  /-- A directory, or a file that holds no text. -/
  | other

structure Disk where
  directory : String := "/"
  /-- By absolute paths. -/
  entries : Table String Disk.Entry := {}

namespace Disk

/-- Follows the parts of a path from a place, the innermost part of which comes first. -/
def follow (place : List String) : List String → List String
  | [] => place
  | part :: rest =>
    if part = "" ∨ part = "." then follow place rest
    else if part = ".." then follow place.tail rest
    else follow (part :: place) rest

def absolute (parts : List String) : String := "/" ++ Text.join "/" parts.reverse

def parts (d : Disk) (path : String) : List String :=
  let start := if path.startsWith "/" then [] else follow [] (d.directory.splitOn "/")
  follow start (path.splitOn "/")

/-- The absolute path that a path names. -/
def locate (d : Disk) (path : String) : String := absolute (d.parts path)

/-- Whether something is known to lie below an absolute path. -/
def holds (d : Disk) (path : String) : Bool :=
  path = "/" || d.entries.entries.any fun e => e.1.startsWith (path ++ "/")

/-- What is found at a path; nothing at the empty one. -/
def entry? (d : Disk) (path : String) : Option Entry :=
  let place := d.locate path
  if path.isEmpty then none
  else (d.entries.get? place).orElse fun _ =>
    if place = d.locate "." || d.holds place then some .other else none

def exists? (d : Disk) (path : String) : Bool := (d.entry? path).isSome

def read? (d : Disk) (path : String) : Option String :=
  match d.entry? path with
  | some (.file text) => some text
  | _ => none

/-- The path of the directory around a path. -/
def parent (d : Disk) (path : String) : String := absolute (d.parts path).tail

/-- Writes a file. That needs a directory around it and no directory in its place. -/
def write? (d : Disk) (path text : String) : Option Disk :=
  match d.entry? path, d.entry? (d.parent path) with
  | some .other, _ => none
  | _, some .other => if path.isEmpty then none else some { d with entries := d.entries.insert (d.locate path) (.file text) }
  | _, _ => none

end Disk

end FleetCoordination
