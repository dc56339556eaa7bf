import MusicIndex.Cli.Run
import Std.Time.Format

namespace MusicIndex.Cli

/-- What stands at a path. Symbolic links below a directory are not followed; `depth` bounds the
levels of directories. -/
def loadTree : Nat → String → IO.FS.FileType → IO FileTree
  | _, path, .file => return .file (← IO.FS.readBinFile path).toList
  | depth + 1, path, .dir => do
    let found ← ((← IO.currentDir) / path).readDir
    let entries ← found.toList.mapM fun entry => do
      let metadata ← entry.path.symlinkMetadata
      return (entry.fileName, ← loadTree depth entry.path.toString metadata.type)
    return .directory (FileTree.inOrder entries)
  | _, _, _ => return .device

/-- With what stands at a path, or else with the directory of the path, if that is there. -/
def load (w : Workspace) (path : String) : IO Workspace := do
  let place := (← IO.currentDir) / path
  try
    -- no path is as long as 4096 bytes, so no directory is that deep
    return w.provide path (← loadTree 4096 path (← place.metadata).type)
  catch
    | .noFileOrDirectory .. =>
      match place.parent with
      | some parent => return if ← parent.isDir then (w.makeParent path).2 else w
      | none => return w
    | e => throw e

mutual
/-- Writes back a tree at a path; what has not changed is left alone. -/
def saveTree (path : String) (before : Option FileTree) : FileTree → IO Unit
  | .file bytes => do
    match before with
    | some (.file old) => if old != bytes then IO.FS.writeBinFile path ⟨bytes.toArray⟩
    | _ => IO.FS.writeBinFile path ⟨bytes.toArray⟩
  | .device => return
  | .directory entries => do
    if before.isNone then IO.FS.createDirAll path
    saveEntries path before entries

def saveEntries (path : String) (before : Option FileTree) :
    List (String × FileTree) → IO Unit
  | [] => return
  | (name, t) :: rest => do
    saveTree (Path.join path name) (before.bind (FileTree.nodeAt? [name])) t
    saveEntries path before rest
end

def findEnvironment : IO Environment := do
  let home := (← IO.getEnv "HOME").getD "."
  let bindings ← Environment.knownVariables.filterMapM fun name => do
    return (← IO.getEnv name).map fun value => (name, value)
  return ⟨home, bindings⟩

def presentTime : IO String := do
  let now ← Std.Time.Timestamp.now
  return (Std.Time.DateTime.ofTimestamp now .UTC).format "uuuu-MM-dd HH:mm:ss"

end MusicIndex.Cli

open MusicIndex

def main (args : List String) : IO UInt32 := do
  let env ← Cli.findEnvironment
  let bare := Workspace.bare (Path.names (← IO.currentDir).toString)
  let configured ← Cli.load bare env.configPath
  let paths := Cli.filesOf env args configured
  let before ← paths.foldlM Cli.load configured
  let (outcome, after) := Cli.run env (← Cli.presentTime) args before
  Cli.saveTree "/" (some before.root) after.root
  IO.print outcome.stdout
  IO.eprint outcome.stderr
  return outcome.code.toUInt32
