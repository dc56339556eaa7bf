import MusicIndex.Files.Tree
import MusicIndex.Index.Address
import MusicIndex.Index.Snapshot

namespace MusicIndex

/-- The database that a file of some name holds, used as its address says. A file of less than two
bytes holds an empty one, which is filled with the help of a journal whose name has eight bytes
more. A log beside the file must be usable: what was kept with one is not opened without, and what
was kept without one gets one, unless nothing may be written. -/
def Database.ofFile (a : Address) (name : String) (bytes : List UInt8) :
    Except StoreFault Database :=
  if bytes.length < 2 then
    if a.isReadOnly then .error .readOnly
    else if 255 < name.utf8ByteSize + 8 then .error .cannotOpenJournal
    else .ok { empty with hasLog := a.hasLog }
  else
    match ofBytes? bytes with
    | none => .error .notDatabase
    | some d =>
      if a.isFrozen || (if a.hasLog then d.hasLog || !a.isReadOnly else !d.hasLog) then
        .ok { d with hasLog := a.hasLog, index := { d.index with isReadOnly := a.isReadOnly } }
      else .error (.cannotOpen a.path)

namespace Workspace

def pathSize (names : List String) : Nat :=
  (names.map fun name => name.utf8ByteSize + 1).foldl (· + ·) 0

/-- One more name after names from the root, which come last first. Two dots drop the name before
them, whether it is there or not; no other name may come after that of a file. -/
def appendName? (w : Workspace) (before : List String) (name : String) : Option (List String) :=
  if name = ".." then some before.tail
  else
    let names := name :: before
    if 511 < pathSize names then none
    else
      match w.look names.reverse with
      | .ok _ => some names
      | .error .missing => some names
      | .error _ => none

def databaseNames? (w : Workspace) (path : String) : Option (List String) := do
  let start := if Path.isAbsolute path then [] else w.directory
  let names ← (start ++ Path.names path).foldlM w.appendName? []
  if pathSize names ≤ 504 then some names.reverse else none

def keep (w : Workspace) (names : List String) (bytes : List UInt8) : Workspace :=
  match w.root.write bytes names with
  | .ok root => { w with root }
  | .error _ => w

def touchDatabase (w : Workspace) (a : Address) (names : List String) : Workspace :=
  match a.access, w.root.nodeAt? names with
  | .create, none => w.keep names []
  | _, _ => w

def saveDatabase (w : Workspace) (text : String) (d : Database) : Workspace :=
  match Address.ofText? text with
  | none => w
  | some a =>
    if a.isTransient || a.isReadOnly then w
    else
      match w.databaseNames? a.path with
      | some names => w.keep names d.toBytes
      | none => w

/-- Opens the database at an address; from then on its file is there. -/
def openDatabase (w : Workspace) (text : String) : Except StoreFault Database × Workspace :=
  let fails := Except.error (.cannotOpen text)
  match Address.ofText? text with
  | none => (fails, w)
  | some a =>
    if a.isTransient then (if a.isReadOnly then fails else .ok .empty, w)
    else
      match w.databaseNames? a.path with
      | none => (fails, w)
      | some names =>
        let w := w.touchDatabase a names
        match w.root.nodeAt? names with
        | some (.file bytes) =>
          match Database.ofFile a (names.getLast?.getD "") bytes with
          | .ok d => (.ok d, w.saveDatabase text d)
          | .error fault => (.error fault, w)
        | _ => (fails, w)

end Workspace

end MusicIndex
