import MusicIndex.Error
import MusicIndex.Files.Path

namespace MusicIndex

/-- A file, a device that holds nothing and keeps nothing, or a directory. -/
inductive FileTree where
  | file (bytes : List UInt8)
  | device
  | directory (entries : List (String × FileTree))

namespace FileTree

def empty : FileTree := .directory []

instance : Inhabited FileTree := ⟨empty⟩

def nodeAt? : List String → FileTree → Option FileTree
  | [], t => some t
  | name :: rest, .directory entries => (entries.lookup name).bind (nodeAt? rest)
  | _ :: _, _ => none

def entry? (name : String) (entries : List (String × FileTree)) :
    Except FileFault (Option FileTree) :=
  if 255 < name.utf8ByteSize then .error .nameTooLong else .ok (entries.lookup name)

def setEntry {α : Type} (name : String) (a : α) : List (String × α) → List (String × α)
  | [] => [(name, a)]
  | (other, b) :: rest =>
    if other = name then (name, a) :: rest
    else if name < other then (name, a) :: (other, b) :: rest
    else (other, b) :: setEntry name a rest

def inOrder {α : Type} (entries : List (String × α)) : List (String × α) :=
  entries.foldr (fun entry => setEntry entry.1 entry.2) []

def place (new : Option FileTree → Except FileFault FileTree) :
    List String → FileTree → Except FileFault FileTree
  | [], t => new (some t)
  | [name], .directory entries => do
    let old ← entry? name entries
    return .directory (setEntry name (← new old) entries)
  | name :: rest, .directory entries => do
    match ← entry? name entries with
    | some t => return .directory (setEntry name (← place new rest t) entries)
    | none => throw .missing
  | _ :: _, _ => .error .notDirectory

def write (bytes : List UInt8) : List String → FileTree → Except FileFault FileTree :=
  place fun
    | some (.directory _) => .error .isDirectory
    | some .device => .ok .device
    | _ => .ok (.file bytes)

def makeDirectory : List String → FileTree → Except FileFault FileTree :=
  place fun
    | some (.directory entries) => .ok (.directory entries)
    | some _ => .error .exists
    | none => .ok empty

/-- Makes the directories along names, of which those before are there and come last first. Those
made before one that cannot be made stay. -/
def makeDirectories : List String → List String → FileTree → Except FileFault Unit × FileTree
  | _, [], t => (.ok (), t)
  | before, ".." :: rest, t => makeDirectories before.tail rest t
  | before, name :: rest, t =>
    match t.makeDirectory (name :: before).reverse with
    | .ok t => makeDirectories (name :: before) rest t
    | .error fault => (.error fault, t)

mutual
def filesBelow (path : String) : FileTree → List (String × List UInt8)
  | .file bytes => [(path, bytes)]
  | .device => []
  | .directory entries => (inOrder (filesOfEach path entries)).flatMap (·.2)

def filesOfEach (path : String) :
    List (String × FileTree) → List (String × List (String × List UInt8))
  | [] => []
  | (name, t) :: rest => (name, filesBelow (Path.join path name) t) :: filesOfEach path rest
end

def filesAmong (path : String) (entries : List (String × FileTree)) :
    List (String × List UInt8) :=
  filesBelow path (.directory entries)

end FileTree

/-- A tree of files, and the names of the directory that paths start from. -/
structure Workspace where
  root : FileTree
  directory : List String

namespace Workspace

def bare (directory : List String) : Workspace :=
  ⟨(FileTree.empty.makeDirectories [] directory).2, directory⟩

def step (w : Workspace) (place : List String) (segment : String) :
    Except FileFault (List String) :=
  match w.root.nodeAt? place.reverse with
  | some (.directory entries) =>
    if segment = "" ∨ segment = "." then .ok place
    else if segment = ".." then .ok place.tail
    else do
      match ← FileTree.entry? segment entries with
      | some _ => return segment :: place
      | none => throw .missing
  | some _ => .error .notDirectory
  | none => .error .missing

def look (w : Workspace) (names : List String) : Except FileFault FileTree := do
  let place ← names.foldlM w.step []
  match w.root.nodeAt? place.reverse with
  | some t => return t
  | none => throw .missing

def checkPath (path : String) : Except FileFault Unit :=
  if path.toList.contains '\x00' then .error .nulInName
  else if 4096 ≤ path.utf8ByteSize then .error .nameTooLong
  else .ok ()

def find (w : Workspace) (path : String) : Except FileFault FileTree := do
  checkPath path
  if path = "" then throw .missing
  w.look ((if Path.isAbsolute path then [] else w.directory) ++ Path.segments path)

def read (w : Workspace) (path : String) : Except FileFault (List UInt8) := do
  match ← w.find path with
  | .file bytes => return bytes
  | .device => return []
  | .directory _ => throw .isDirectory

def exists? (w : Workspace) (path : String) : Bool :=
  match w.find path with
  | .ok _ => true
  | .error _ => false

/-- Makes the directory that the file of a path stands in, with those above it that are missing.
Nothing is made where a file stands in the way of what is there. -/
def makeParent (w : Workspace) (path : String) : Except FileFault Unit × Workspace :=
  let start := if Path.isAbsolute path then [] else w.directory
  let names := (Path.names path).dropLast
  match checkPath ("/".intercalate names), w.look (start ++ names) with
  | .error fault, _ => (.error fault, w)
  | _, .error .notDirectory => (.error .notDirectory, w)
  | _, _ =>
    let (made, root) := w.root.makeDirectories start.reverse names
    (made, { w with root })

def write (w : Workspace) (path : String) (bytes : List UInt8) : Except FileFault Workspace := do
  return { w with root := ← w.root.write bytes (Path.fromRoot w.directory path) }

/-- With a tree at a path, in directories made for it; unchanged where there is no place for it. -/
def provide (w : Workspace) (path : String) (t : FileTree) : Workspace :=
  let (_, v) := w.makeParent path
  match v.root.place (fun _ => .ok t) (Path.fromRoot v.directory path) with
  | .ok root => { v with root }
  | .error _ => w

end Workspace

end MusicIndex
