namespace MusicIndex.Config

def exampleLines : List String := [
  "# Polyphon Configuration File",
  "#",
  "# Configuration is loaded from multiple sources with the following priority:",
  "# 1. CLI arguments (highest priority)",
  "# 2. Environment variables (POLY_* prefix)",
  "# 3. This config file",
  "# 4. Built-in defaults (lowest priority)",
  "",
  "# Path to the SQLite index",
  "#",
  "# Can also be set via:",
  "# - CLI: polyphon --db /custom/path.db ingest feed.jsonl",
  "# - Environment: POLY_DATABASE_PATH=/custom/path.db",
  "#",
  "# Default: Platform-specific data directory",
  "#database_path = \"/path/to/custom/polyphon.db\"",
  "",
  "# Milliseconds a writer waits for the database lock before giving up",
  "busy_timeout_ms = 5000",
  "",
  "# Stop ingesting at the first malformed feed entry instead of skipping it",
  "fail_fast = false",
  "",
  "# Log level when --verbose is not given: error, warn, info, debug, trace",
  "log_level = \"info\"",
  "log_coloured = true",
  "",
  "# Priority of each source when choosing the current value of a field.",
  "# Higher wins; unknown sources score 0; ties go to the latest ingested claim.",
  "[source_priority]",
  "ernImport = 100",
  "cwr = 90",
  "musicbrainz = 50"]

def exampleText : String :=
  String.join (exampleLines.map (· ++ "\n"))

end MusicIndex.Config
