import MusicIndex.Entity.Decode
import MusicIndex.Error
import MusicIndex.Text.Blank

namespace MusicIndex

inductive FeedFact where
  | record (record : Record) (identifier : Identifier)
  | link (link : Link Binary64)
deriving DecidableEq

/-- An entry of a feed; without a source it is the feed's own. -/
structure FeedEntry where
  fact : FeedFact
  source : Option String
deriving DecidableEq

namespace FeedEntry

open Json (Decoder Fault FieldSpec Shape)

/-- The members of an entry, in whatever combination they are given. -/
structure Parts where
  record : Option Record
  identifier : Option Identifier
  link : Option (Link Binary64)
  source : Option String
deriving DecidableEq

structure Draft where
  record : Option (Option Record)
  identifier : Option (Option Identifier)
  link : Option (Option (Link Binary64))
  source : Option (Option String)

def shape : Shape Draft where
  title := "struct RawEntry"
  blank := ⟨none, none, none, none⟩
  fields := [
    .of "record" (.optional Record.decoder) (·.record) (fun d x => { d with record := x }) false,
    .of "identifier" (.optional Identifier.decoder) (·.identifier)
      (fun d x => { d with identifier := x }) false,
    .of "link" (.optional Link.decoder) (·.link) (fun d x => { d with link := x }) false,
    .of "source" (.optional .string) (·.source) (fun d x => { d with source := x }) false]
  isClosed := true

def decoder : Decoder Parts := fun depth r => do
  let d ← shape.draft depth r
  return ⟨d.record.join, d.identifier.join, d.link.join, d.source.join⟩

def Parts.fact (p : Parts) : Except Invalid FeedFact :=
  match p.record, p.identifier, p.link with
  | some record, some identifier, none => .ok (.record record identifier)
  | some _, none, none => .error .recordWithoutIdentifier
  | none, none, some link => .ok (.link link)
  | none, some _, some _ => .error .linkWithIdentifier
  | some _, _, some _ => .error .recordAndLink
  | none, _, none => .error .neitherRecordNorLink

def ofParts (p : Parts) : Except Invalid FeedEntry := do
  let fact ← p.fact
  if p.source.any Text.allBlank then throw .blankEntrySource
  return ⟨fact, p.source⟩

/-- The entry on a line; there is none on a blank line or a comment. -/
def parse [Json.Places] (line : List Char) : Except Error (Option FeedEntry) :=
  match Text.trimmed line with
  | [] => .ok none
  | '#' :: _ => .ok none
  | text =>
    match decoder.text (String.ofList text) with
    | .error fault => .error (.ofText (String.ofList text) fault)
    | .ok parts =>
      match ofParts parts with
      | .error cause => .error (.invalid cause)
      | .ok entry => .ok (some entry)

end FeedEntry

end MusicIndex
