import MusicIndex.Config.Basic
import MusicIndex.Feed.Ingest
import MusicIndex.Index.Read
import MusicIndex.Text.Column
import MusicIndex.View.Text

namespace MusicIndex.Cli

def textOf (lines : List String) : String :=
  String.join (lines.map (· ++ "\n"))

def sharesText (s : Shares Binary64) : List String :=
  let known := (["pr", "mr", "sr"].zip s.named).filterMap fun (short, _, share) =>
    share.map fun value => s!"{short} {value.text}%"
  if known.isEmpty then [] else ["(" ++ ", ".intercalate known ++ ")"]

/-- A link as a walk in a direction finds it: number, far end, role, shares and source. -/
def linkText (link : StoredLink) (direction : Direction) (source : String) : String :=
  let role := link.role.map fun role => s!"[{role}]"
  let shares := (link.shares.map sharesText).getD []
  let ends := [s!"#{link.id}", (link.far direction).identifier.text]
  " ".intercalate (ends ++ role.toList ++ shares ++ [s!"from {source}"])

def linksText (kind : LinkKind) (direction : Direction) (i : Identifier)
    (links : List (StoredLink × String)) : String :=
  if links.isEmpty then textOf [s!"No {kind.name} links for {i.text}"]
  else
    textOf (["", s!"{kind.name} ({kind.ends.1.name} -> {kind.ends.2.name}) for {i.text}", ""] ++
      links.map (fun (link, source) => "  " ++ linkText link direction source) ++
      ["", s!"{links.length} link(s)"])

/-- Names with their counts, without those that count nothing. -/
def countLines (counts : List (String × Nat)) : List String :=
  (counts.filter fun (_, count) => count != 0).map fun (name, count) =>
    s!"  {Text.atLeft 24 name} {count}"

def statusText (path : String) (s : Index.Stats) : String :=
  textOf (["", "📊 Polyphon Status", "",
      s!"Index:          {path}",
      s!"Schema version: {Index.schemaVersion}",
      s!"Sources:        {s.sources}",
      s!"Identifiers:    {s.identifiers}",
      s!"Assignments:    {s.assignments}",
      "", s!"Records:        {s.totalRecords}"] ++
    countLines (s.records.map fun (kind, count) => (kind.name, count)) ++
    ["", s!"Links:          {s.totalLinks}"] ++
    countLines (s.links.map fun (kind, count) => (kind.name, count)))

def sourceRow (id name priority seen : String) : String :=
  s!"{Text.atLeft 4 id} {Text.atLeft 24 name} {Text.atRight 8 priority}  {seen}"

def sourcesText (policy : SourcePolicy) (sources : List (StoredSource × String)) : String :=
  if sources.isEmpty then
    textOf ["No sources yet. Run 'polyphon ingest <path>' to add some."]
  else
    textOf ("" :: sourceRow "ID" "Source" "Priority" "First seen" ::
      sources.map fun (source, seen) =>
        sourceRow (toString source.id) source.name (toString (policy.priorityFor source.name)) seen)

def summaryText (s : IngestSummary) : String :=
  textOf (["", "✓ Ingest complete",
      s!"  Files:   {s.files}",
      s!"  Records: {s.records}",
      s!"  Links:   {s.links}",
      s!"  Skipped: {s.skipped}"] ++
    if s.isClean then [] else [s!"  Failed:  {s.failures.length}"])

def failuresText (s : IngestSummary) : String :=
  textOf (s.failures.map fun f => s!"  ✗ {f.origin}:{f.line}: {f.message}")

def priorityLines (policy : SourcePolicy) : List String :=
  if policy.entries.isEmpty then ["  source_priority: <none, latest claim wins>"]
  else
    "  source_priority:" ::
      policy.entries.map fun (source, priority) => s!"    {source} = {priority}"

def configText (path : String) (isThere : Bool) (database : String) (c : Config) : String :=
  let found := if isThere then "yes" else "no (using defaults)"
  textOf (["Current Configuration",
      "=====================", "",
      s!"Config file: {path}",
      s!"File exists: {found}", "",
      "Settings:",
      s!"  database_path: {database}",
      s!"  busy_timeout_ms: {c.busyTimeout}",
      s!"  fail_fast: {c.failFast}",
      s!"  log_level: {c.logLevel}",
      s!"  log_coloured: {c.logColoured}"] ++
    priorityLines c.policy ++
    ["", "Priority: CLI args > ENV vars (POLY_*) > Config file > Defaults"])

def initText (path : String) (created : Bool) : String :=
  if created then
    textOf [s!"✓ Created config file: {path}", "", "Edit this file to set source priorities."]
  else textOf [s!"Config file already exists: {path}"]

def versionText : String :=
  textOf ["polyphon 0.1.0"]

def helpText : String :=
  textOf ["Usage: polyphon [--db <path>] [--verbose] <command>", "",
    "  ingest <path> [--source <name>]",
    "  lookup <kind> <type> <value> [--depth <n>] [--json]",
    "  links <link kind> <type> <value> [--reverse]",
    "  graph <kind> <type> <value> [--depth <n>]",
    "  status",
    "  sources",
    "  config show|path|init|example"]

end MusicIndex.Cli
