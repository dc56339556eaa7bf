import MusicIndex.Json.Decoder
import MusicIndex.Merge.Claim

namespace MusicIndex

structure FieldValue where
  column : String
  merged : MergedValue
deriving DecidableEq

/-- The label of an entity: its title, or else all its current values. -/
def label (fields : List FieldValue) : String :=
  match fields.find? (·.column == "title") with
  | some field => field.merged.value
  | none => " ".intercalate (fields.map (·.merged.value))

def ScoredClaim.toJson (c : ScoredClaim) : Json :=
  .object [("value", .string c.value), ("source", .string c.source), ("score", .integer c.score)]

def MergedValue.toMembers (v : MergedValue) : List (String × Json) :=
  [("value", .string v.value), ("sources", .ofList ScoredClaim.toJson v.sources)]

def FieldValue.toJson (f : FieldValue) : Json :=
  .object (("column", .string f.column) :: f.merged.toMembers)

open Json (Decoder FieldSpec Reading Shape required)

namespace ScoredClaim

structure Draft where
  value : Option String
  source : Option String
  score : Option Nat

def shape : Shape Draft where
  title := "struct StringSource"
  blank := ⟨none, none, none⟩
  fields := [
    .of "value" Decoder.string (·.value) (fun d x => { d with value := x }) false,
    .of "source" Decoder.string (·.source) (fun d x => { d with source := x }) false,
    .of "score" Decoder.word32 (·.score) (fun d x => { d with score := x }) false]
  isClosed := false
  isCounted := true

def decoder : Decoder ScoredClaim := fun depth r => do
  let d ← shape.draft depth r
  return ⟨← required "value" d.value, ← required "source" d.source, ← required "score" d.score⟩

end ScoredClaim

namespace MergedValue

structure Draft where
  value : Option String
  sources : Option (List ScoredClaim)

def shape : Shape Draft where
  title := "struct StringValue"
  blank := ⟨none, none⟩
  fields := [
    .of "value" Decoder.string (·.value) (fun d x => { d with value := x }) false,
    .of "sources" (.list ScoredClaim.decoder) (·.sources) (fun d x => { d with sources := x })
      false]
  isClosed := false

def decoder : Decoder MergedValue := fun depth r => do
  let d ← shape.draft depth r
  return ⟨← required "value" d.value, ← required "sources" d.sources⟩

end MergedValue

namespace FieldValue

def split (depth : Nat) (column : Option String) (kept : List (String × Json)) :
    List (Reading × Reading) → Except Json.Fault (Option String × List (String × Json))
  | [] => .ok (column, kept.reverse)
  | (key, r) :: rest => do
    let name ← Reading.name key
    if name = "column" then
      if column.isSome then throw (.duplicateField "column")
      let c ← Decoder.string depth r
      split depth (some c) kept rest
    else
      let v ← r.value depth
      split depth column ((name, v) :: kept) rest

/-- A field: its column beside the members of its merged value. -/
def decoder : Decoder FieldValue
  | depth, .object members => do
    let depth ← Reading.enter depth
    let (column, kept) ← split depth none [] members
    let column ← required "column" column
    let merged ← MergedValue.decoder Decoder.maxDepth (.ofJson (.object kept))
    return ⟨column, merged⟩
  | _, r => r.mismatch "struct FieldValue"

end FieldValue

end MusicIndex
