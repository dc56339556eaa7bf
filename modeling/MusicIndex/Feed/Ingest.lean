import MusicIndex.Feed.Entry
import MusicIndex.Index.Write
import MusicIndex.Text.Utf8

namespace MusicIndex

structure EntryFailure where
  origin : String
  line : Nat
  message : String
deriving DecidableEq

/-- The outcome of a run; blank lines and comments are skipped. -/
structure IngestSummary where
  files : Nat
  records : Nat
  links : Nat
  skipped : Nat
  failures : List EntryFailure
deriving DecidableEq

namespace IngestSummary

def empty : IngestSummary := ⟨0, 0, 0, 0, []⟩

def absorb (s t : IngestSummary) : IngestSummary :=
  ⟨s.files + t.files, s.records + t.records, s.links + t.links, s.skipped + t.skipped,
    s.failures ++ t.failures⟩

def isClean (s : IngestSummary) : Bool :=
  s.failures.isEmpty

end IngestSummary

inductive IngestError where
  | entry (origin : String) (line : Nat) (message : String)
  | file (path : String) (fault : FileFault)
  | unsupportedPath (path : String)
  | storage (error : Error)
deriving DecidableEq

namespace IngestError

def message : IngestError → String
  | .entry origin line message => s!"bad entry at {origin}:{line}: {message}"
  | .file path fault => s!"failed to read {path}: {fault.message}"
  | .unsupportedPath path => s!"not a feed file or directory: {path}"
  | .storage error => s!"storage error: {error.message}"

def isStorage : IngestError → Bool
  | .storage error => !error.isOfEntry
  | _ => false

def isNotFound : IngestError → Bool
  | .storage error => error.isNotFound
  | .file _ fault => fault == .missing
  | _ => false

end IngestError

/-- The lines of a feed: a line feed ends a line, and the last line may lack it. -/
def feedLines (bytes : List UInt8) : List (List UInt8) :=
  bytes.foldr (fun b lines =>
    if b = 10 then [] :: lines
    else
      match lines with
      | [] => [[b]]
      | line :: rest => (b :: line) :: rest) []

inductive Applied where
  | record
  | link
  | skipped
deriving DecidableEq

/-- How a run goes: where its feed comes from, who asserts the entries without a source, and whether
the first bad line ends it. -/
structure IngestMode where
  origin : String
  defaultSource : String
  failFast : Bool

variable [Json.Places]

def FeedEntry.ofLine (line : List UInt8) : Except Error (Option FeedEntry) :=
  match Text.Utf8.decode line with
  | .ok chars => FeedEntry.parse chars
  | .error fault => .error (.invalid (.lineNotUtf8 fault))

namespace Index

def applyEntry (defaultSource : String) (entry : FeedEntry) : Write Applied := do
  let source := entry.source.getD defaultSource
  match entry.fact with
  | .record record identifier =>
    let _ ← createRecord record identifier source
    return .record
  | .link link =>
    let _ ← createLink link source
    return .link

def applyLine (defaultSource : String) (line : List UInt8) : Write Applied := do
  match FeedEntry.ofLine line with
  | .error e => throw e
  | .ok none => return .skipped
  | .ok (some entry) => applyEntry defaultSource entry

/-- Counts a line in the outcome of a run, or ends the run. -/
def tally (mode : IngestMode) (number : Nat) (summary : IngestSummary) :
    Except Error Applied → Except IngestError IngestSummary
  | .ok .record => .ok { summary with records := summary.records + 1 }
  | .ok .link => .ok { summary with links := summary.links + 1 }
  | .ok .skipped => .ok { summary with skipped := summary.skipped + 1 }
  | .error e =>
    if e.isOfEntry then
      if mode.failFast then .error (.entry mode.origin number e.message)
      else .ok { summary with
        failures := summary.failures ++ [⟨mode.origin, number, e.message⟩] }
    else .error (.storage e)

def ingestLines (mode : IngestMode) : Nat → IngestSummary → List (List UInt8) → Index →
    Except IngestError IngestSummary × Index
  | _, summary, [], x => (.ok summary, x)
  | number, summary, line :: rest, x =>
    let (result, x) := (applyLine mode.defaultSource line).attempt x
    match tally mode number summary result with
    | .ok summary => ingestLines mode (number + 1) summary rest x
    | .error e => (.error e, x)

def ingest (mode : IngestMode) (bytes : List UInt8) (x : Index) :
    Except IngestError IngestSummary × Index :=
  ingestLines mode 1 .empty (feedLines bytes) x

end Index

namespace IngestSummary

open Json (Decoder FieldSpec Shape required)

structure FailureDraft where
  origin : Option String
  line : Option Nat
  message : Option String

def failureShape : Shape FailureDraft where
  title := "struct EntryFailure"
  blank := ⟨none, none, none⟩
  fields := [
    .of "origin" Decoder.string (·.origin) (fun d x => { d with origin := x }) false,
    .of "line" Decoder.count (·.line) (fun d x => { d with line := x }) false,
    .of "message" Decoder.string (·.message) (fun d x => { d with message := x }) false]
  isClosed := false

def failureDecoder : Decoder EntryFailure := fun depth r => do
  let d ← failureShape.draft depth r
  return ⟨← required "origin" d.origin, ← required "line" d.line, ← required "message" d.message⟩

structure Draft where
  files : Option Nat
  records : Option Nat
  links : Option Nat
  skipped : Option Nat
  failures : Option (List EntryFailure)

def shape : Shape Draft where
  title := "struct IngestSummary"
  blank := ⟨none, none, none, none, none⟩
  fields := [
    .of "files" Decoder.count (·.files) (fun d x => { d with files := x }) false,
    .of "records" Decoder.count (·.records) (fun d x => { d with records := x }) false,
    .of "links" Decoder.count (·.links) (fun d x => { d with links := x }) false,
    .of "skipped" Decoder.count (·.skipped) (fun d x => { d with skipped := x }) false,
    .of "failures" (.list failureDecoder) (·.failures) (fun d x => { d with failures := x }) false]
  isClosed := false

def decoder : Decoder IngestSummary := fun depth r => do
  let d ← shape.draft depth r
  return ⟨← required "files" d.files, ← required "records" d.records, ← required "links" d.links,
    ← required "skipped" d.skipped, ← required "failures" d.failures⟩

end IngestSummary

end MusicIndex
