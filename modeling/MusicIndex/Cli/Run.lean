import MusicIndex.Cli.Arguments
import MusicIndex.Cli.Listing
import MusicIndex.Config.Example
import MusicIndex.Config.Load
import MusicIndex.Feed.Files
import MusicIndex.Graph.Build
import MusicIndex.Graph.Dot
import MusicIndex.Index.Storage
import MusicIndex.Json.Printer
import MusicIndex.View.Encode

namespace MusicIndex.Cli

structure Outcome where
  code : Nat
  stdout : String
  stderr : String
deriving DecidableEq

inductive Failure where
  | configuration (fault : Config.LoadFault)
  | logLevel (level : String)
  | configDirectory
  | configFile
  | databaseDirectory (fault : FileFault)
  | database (path : String)
  | index (error : Error)
  | graph (error : Error)
  | ingest (error : IngestError)
  | entityNotFound (kind : RecordKind) (identifier : Identifier)
  | identifierNotFound (identifier : Identifier)
deriving DecidableEq

def Failure.message : Failure → String
  | .configuration .unreadable => "Failed to load config file"
  | .configuration .malformed => "Failed to build configuration"
  | .logLevel level =>
    s!"Unknown log level: {level}\n\nValid levels: error, warn, info, debug, trace"
  | .configDirectory => "Failed to create config directory"
  | .configFile => "Failed to write config file"
  | .databaseDirectory fault => fault.message
  | .database path => s!"Failed to open index at {path}"
  | .index error => error.message
  | .graph error => s!"index error: {error.message}"
  | .ingest error => error.message
  | .entityNotFound kind identifier => s!"{kind.name} {identifier.text} not found"
  | .identifierNotFound identifier => s!"identifier {identifier.text} not found"

structure Report where
  stdout : String
  stderr : String
deriving DecidableEq

def Report.plain (stdout : String) : Report := ⟨stdout, ""⟩

/-- A step of a run: it may change the files, also where it fails. -/
abbrev Procedure (α : Type) := ExceptT Failure (StateM Workspace) α

namespace Procedure

def demand {ε α : Type} (reason : ε → Failure) : Except ε α → Procedure α
  | .ok a => pure a
  | .error e => throw (reason e)

end Procedure

structure Session where
  env : Environment
  now : String
  config : Config
  database : String

namespace Session

open Procedure (demand)

def openDatabase (s : Session) : Procedure Database := do
  let (opened, w) := (← get).openDatabase s.database
  set w
  demand (fun _ => .database s.database) opened

def makeParent (reason : FileFault → Failure) (path : String) : Procedure Unit := do
  let (made, w) := (← get).makeParent path
  set w
  demand reason made

/-- Ingests a feed or a directory of feeds. What was applied stays, also where the run fails. -/
def ingest [Json.Places] (s : Session) (path : String) (source : Option String) :
    Procedure Report := do
  let d ← s.openDatabase
  let w ← get
  let (result, x) := d.index.ingestPath w ⟨source, s.config.failFast⟩ path
  set (w.saveDatabase s.database (d.update s.now x))
  let summary ← demand .ingest result
  return ⟨summaryText summary, failuresText summary⟩

def lookup (s : Session) (kind : String) (i : Identifier) (depth : Nat) (json : Bool) :
    Procedure Report := do
  let kind ← demand .index (RecordKind.parse kind)
  let d ← s.openDatabase
  match Resolver.resolve ⟨d.index, s.config.policy⟩ kind i depth with
  | .ok view => return .plain ((if json then view.toJson.prettyText else view.text) ++ "\n")
  | .error e => if e.isNotFound then throw (.entityNotFound kind i) else throw (.index e)

def links (s : Session) (kind : String) (i : Identifier) (reverse : Bool) : Procedure Report := do
  let kind ← demand .index (LinkKind.parse kind)
  let direction := if reverse then Direction.reverse else Direction.forward
  let x := (← s.openDatabase).index
  match x.find? i with
  | none => throw (.identifierNotFound i)
  | some seed =>
    let links ← (x.linksOf kind direction seed.id).mapM fun link => do
      return (link, ← demand .index (x.sourceName link.source))
    return .plain (linksText kind direction i links)

def graph (s : Session) (kind : String) (i : Identifier) (depth : Nat) : Procedure Report := do
  let kind ← demand .index (RecordKind.parse kind)
  let d ← s.openDatabase
  let g ← demand .graph (Graph.build ⟨d.index, s.config.policy⟩ kind i depth)
  return .plain g.dot

def status (s : Session) : Procedure Report := do
  let d ← s.openDatabase
  return .plain (statusText s.database d.index.stats)

def sources (s : Session) : Procedure Report := do
  let d ← s.openDatabase
  return .plain (sourcesText s.config.policy (d.index.allSources.zip d.firstSeen))

def configure (s : Session) : ConfigCommand → Procedure Report
  | .showAll => do
    let path := s.env.configPath
    return .plain (configText path ((← get).exists? path) s.database s.config)
  | .path => return .plain (textOf [s.env.configPath])
  | .init => do
    let path := s.env.configPath
    if (← get).exists? path then return .plain (initText path false)
    makeParent (fun _ => .configDirectory) path
    set (← demand (fun _ => .configFile)
      ((← get).write path (Text.Utf8.encode Config.exampleText)))
    return .plain (initText path true)
  | .exampleFile => return .plain Config.exampleText

/-- Does a command. All but those about the configuration first see to it that the directory of the
database is there. -/
def perform [Json.Places] (s : Session) : Command → Procedure Report
  | .config command => s.configure command
  | command => do
    makeParent .databaseDirectory s.database
    match command with
    | .ingest path source => s.ingest path source
    | .lookup kind scheme value depth json => s.lookup kind ⟨scheme, value⟩ depth json
    | .links kind scheme value reverse => s.links kind ⟨scheme, value⟩ reverse
    | .graph kind scheme value depth => s.graph kind ⟨scheme, value⟩ depth
    | .status => s.status
    | .sources => s.sources
    | .config command => s.configure command

end Session

def logLevels : List String := ["trace", "debug", "info", "warn", "warning", "error"]

/-- The session of an invocation. The log level must have a proper name, or logging be verbose. -/
def start (env : Environment) (now : String) (i : Invocation) : Procedure Session := do
  let config ← Procedure.demand .configuration (Config.load (← get) env)
  let level := Text.asciiLower config.logLevel
  if !i.verbose && !logLevels.contains level then throw (.logLevel level)
  let database := (i.database <|> config.databasePath).getD env.databasePath
  return ⟨env, now, config, database⟩

def Session.databaseFiles (s : Session) : List String :=
  match Address.ofText? s.database with
  | some a => if a.isTransient then [] else [a.path]
  | none => []

def Session.files (s : Session) : Command → List String
  | .config _ => []
  | .ingest path _ => s.databaseFiles ++ [path]
  | _ => s.databaseFiles

/-- The files that a run may read or write, once the configuration is there. -/
def filesOf (env : Environment) (args : List String) (w : Workspace) : List String :=
  match request? args with
  | some (.run i) =>
    match (start env "" i).run.run w with
    | (.ok s, _) => s.files i.command
    | (.error _, _) => []
  | _ => []

def invoke [Json.Places] (env : Environment) (now : String) (i : Invocation) (w : Workspace) :
    Outcome × Workspace :=
  match (do (← start env now i).perform i.command : Procedure Report).run.run w with
  | (.ok report, w) => (⟨0, report.stdout, report.stderr⟩, w)
  | (.error failure, w) => (⟨1, "", textOf ["Error: " ++ failure.message]⟩, w)

/-- One run of the program. Arguments that do not fit end it with code 2. -/
def run [Json.Places] (env : Environment) (now : String) (args : List String) (w : Workspace) :
    Outcome × Workspace :=
  match request? args with
  | none => (⟨2, "", helpText⟩, w)
  | some .version => (⟨0, versionText, ""⟩, w)
  | some .help => (⟨0, helpText, ""⟩, w)
  | some (.run invocation) => invoke env now invocation w

end MusicIndex.Cli
