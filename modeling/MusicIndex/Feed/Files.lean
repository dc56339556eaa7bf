import MusicIndex.Feed.Ingest
import MusicIndex.Files.Tree
import MusicIndex.Text.Ascii

namespace MusicIndex

/-- How files are ingested: who asserts the entries without a source, unless it is the stem of the
file's name, and whether the first bad line ends the run. -/
structure IngestOptions where
  defaultSource : Option String
  failFast : Bool

namespace IngestOptions

def sourceOf (options : IngestOptions) (path : String) : Option String :=
  options.defaultSource <|> Path.stem? path

end IngestOptions

def feedExtensions : List String := ["jsonl", "ndjson"]

def isFeedPath (path : String) : Bool :=
  match Path.extension? path with
  | some extension => feedExtensions.any (Text.sameAscii extension)
  | none => false

def feedsAmong (path : String) (entries : List (String × FileTree)) :
    List (String × List UInt8) :=
  (FileTree.filesAmong path entries).filter fun (path, _) => isFeedPath path

namespace Index

variable [Json.Places]

def ingestContent (options : IngestOptions) (path : String)
    (content : Except FileFault (List UInt8)) (x : Index) :
    Except IngestError IngestSummary × Index :=
  match options.sourceOf path, content with
  | none, _ => (.error (.unsupportedPath path), x)
  | some _, .error fault => (.error (.file path fault), x)
  | some source, .ok bytes =>
    match ingest ⟨path, source, options.failFast⟩ bytes x with
    | (.ok summary, x) => (.ok { summary with files := 1 }, x)
    | (.error e, x) => (.error e, x)

def ingestFile (w : Workspace) (options : IngestOptions) (path : String) (x : Index) :
    Except IngestError IngestSummary × Index :=
  ingestContent options path (w.read path) x

def ingestAll (options : IngestOptions) : List (String × List UInt8) → IngestSummary → Index →
    Except IngestError IngestSummary × Index
  | [], summary, x => (.ok summary, x)
  | (path, bytes) :: rest, summary, x =>
    match ingestContent options path (.ok bytes) x with
    | (.ok more, x) => ingestAll options rest (summary.absorb more) x
    | (.error e, x) => (.error e, x)

/-- Applies the feed of a file, or the feeds of a directory. -/
def ingestPath (w : Workspace) (options : IngestOptions) (path : String) (x : Index) :
    Except IngestError IngestSummary × Index :=
  match w.find path with
  | .error fault => (.error (.file path fault), x)
  | .ok (.file bytes) => ingestContent options path (.ok bytes) x
  | .ok .device => (.error (.unsupportedPath path), x)
  | .ok (.directory entries) => ingestAll options (feedsAmong path entries) .empty x

end Index

end MusicIndex
