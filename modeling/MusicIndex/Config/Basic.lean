import MusicIndex.Merge.PolicyFile

namespace MusicIndex

/-- Settings of the program. Without a path the database stands below the home directory. -/
structure Config where
  databasePath : Option String
  /-- How long a writer waits for the database, in milliseconds. -/
  busyTimeout : Nat
  failFast : Bool
  logLevel : String
  logColoured : Bool
  policy : SourcePolicy
deriving DecidableEq

namespace Config

def standard : Config := ⟨none, 5000, false, "info", true, .empty⟩

instance : Inhabited Config := ⟨standard⟩

/-- A setting, if it is given and of the right form; a value of another form spoils the whole. -/
def setting {α : Type} (document : Toml.Value) (key : String) (read : Toml.Value → Option α)
    (standard : α) : Option α :=
  match document.get? key with
  | none => some standard
  | some v => read v

def text? : Toml.Value → Option String
  | .string s => some s
  | _ => none

def switch? : Toml.Value → Option Bool
  | .boolean b => some b
  | _ => none

def natural? : Toml.Value → Option Nat
  | .integer n => if 0 ≤ n then some n.toNat else none
  | _ => none

def ofDocument? (document : Toml.Value) : Option Config := do
  let databasePath ← setting document "database_path" (some <$> text? ·) standard.databasePath
  let busyTimeout ← setting document "busy_timeout_ms" natural? standard.busyTimeout
  let failFast ← setting document "fail_fast" switch? standard.failFast
  let logLevel ← setting document "log_level" text? standard.logLevel
  let logColoured ← setting document "log_coloured" switch? standard.logColoured
  let policy ← SourcePolicy.ofDocument? document
  return ⟨databasePath, busyTimeout, failFast, logLevel, logColoured, policy⟩

def ofText? (text : String) : Option Config :=
  (Toml.read? .v1_0 text).bind ofDocument?

end Config

end MusicIndex
