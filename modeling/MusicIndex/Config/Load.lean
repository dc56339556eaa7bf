import MusicIndex.Config.Basic
import MusicIndex.Files.Tree

namespace MusicIndex

structure Environment where
  home : String
  bindings : List (String × String)

namespace Environment

def configPath (env : Environment) : String :=
  Path.join env.home ".config/polyphon/config.toml"

def databasePath (env : Environment) : String :=
  Path.join env.home ".local/share/polyphon/polyphon.db"

def knownVariables : List String :=
  ["POLY_DATABASE_PATH", "POLY_BUSY_TIMEOUT_MS", "POLY_FAIL_FAST", "POLY_LOG_LEVEL",
    "POLY_LOG_COLOURED", "POLY_SOURCE_PRIORITY"]

def keyOf? (name : String) : Option String :=
  match name.toList with
  | 'P' :: 'O' :: 'L' :: 'Y' :: rest =>
    let key :=
      match rest with
      | '_' :: key => key
      | _ => name.toList
    some (Text.asciiLower (String.ofList key))
  | _ => none

def document (env : Environment) : String :=
  String.join (env.bindings.filterMap fun (name, value) =>
    (keyOf? name).map fun key => s!"{key} = '{value}'\n")

end Environment

namespace Config

def isEmptyText : Toml.Value → Bool
  | .string s => s == ""
  | _ => false

mutual
/-- What stands in a place where a file says one thing and the environment another. Tables are laid
over one another key by key, and an empty text does not replace what the file says. -/
def overlay (file : Toml.Value) : Toml.Value → Toml.Value
  | .table given =>
    match file with
    | .table entries => .table (overlayEntries entries given)
    | _ => .table given
  | v => if isEmptyText v then file else v

def overlayEntries (file : List (String × Toml.Value)) :
    List (String × Toml.Value) → List (String × Toml.Value)
  | [] => file
  | (key, v) :: rest =>
    let v :=
      match file.lookup key with
      | some old => overlay old v
      | none => v
    overlayEntries (Toml.setEntry key v file) rest
end

inductive LoadFault where
  | unreadable
  | malformed
deriving DecidableEq

def fileText (w : Workspace) (path : String) : Except LoadFault String :=
  match w.read path with
  | .ok bytes =>
    match Text.Utf8.decode bytes with
    | .ok cs => .ok (String.ofList cs)
    | .error _ => .error .unreadable
  | .error .isDirectory => .error .unreadable
  | .error _ => .ok ""

/-- The configuration that a text and the environment make up together. All that they say must fit
into one document. -/
def merge? (text : String) (env : Environment) : Option Config := do
  let file ← Toml.read? .v1_1 text
  let given ← Toml.read? .v1_1 env.document
  let all := overlay file given
  if all.isWritable Toml.Edition.v1_1.maxDepth 0 then ofDocument? all else none

def load (w : Workspace) (env : Environment) : Except LoadFault Config := do
  let text ← fileText w env.configPath
  match merge? text env with
  | some config => return config
  | none => throw .malformed

end Config

end MusicIndex
