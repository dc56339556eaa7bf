import MusicIndex.Entity.Link
import MusicIndex.Entity.Record
import MusicIndex.Json.Decoder

namespace MusicIndex

open Json (Decoder Fault FieldSpec Found Reading Shape required)

namespace Record

def found : Json → Found
  | .null => .null
  | .bool b => .bool b
  | .integer n => .integer n
  | .real x => .real x
  | .string s => .string s
  | .array _ => .sequence
  | .object _ => .map

def columnValue : Json → Except Fault String
  | .string s => .ok s
  | v => .error (.wrongType (found v) "a string")

def tag : Reading → Except Fault RecordKind
  | .string s => Decoder.variant RecordKind.ofName? (RecordKind.all.map (·.name)) s
  | r => r.mismatch "variant identifier"

def split (depth : Nat) (kind : Option RecordKind) (kept : List (String × Json)) :
    List (Reading × Reading) → Except Fault (Option RecordKind × List (String × Json))
  | [] => .ok (kind, kept.reverse)
  | (key, r) :: rest => do
    let name ← Reading.name key
    if name = "kind" then
      if kind.isSome then throw (.duplicateField "kind")
      let k ← tag r
      split depth (some k) kept rest
    else
      let v ← r.value depth
      split depth kind ((name, v) :: kept) rest

def columnsAmong (columns : List String) (taken : List (String × String)) :
    List (String × Json) → Except Fault (List (String × String))
  | [] => .ok taken
  | (name, v) :: rest => do
    if name ∈ columns then
      if (taken.lookup name).isSome then throw (.duplicateField name)
      let value ← columnValue v
      columnsAmong columns ((name, value) :: taken) rest
    else columnsAmong columns taken rest

def inOrder (taken : List (String × String)) :
    (columns : List String) →
      Except Fault { values : List String // values.length = columns.length }
  | [] => .ok ⟨[], rfl⟩
  | column :: columns => do
    let value ← required column (taken.lookup column)
    let ⟨values, h⟩ ← inOrder taken columns
    return ⟨value :: values, by simp [h]⟩

def elements (kind : RecordKind) : String :=
  Json.elements kind.columns.length

/-- The values of the columns from an array; `index` counts the columns before. -/
def fromItems (kind : RecordKind) (index : Nat) : (columns : List String) → List Json →
    Except Fault { values : List String // values.length = columns.length }
  | [], [] => .ok ⟨[], rfl⟩
  | [], rest => .error (.wrongLength (index + rest.length) (elements kind ++ " in sequence"))
  | _ :: _, [] =>
    .error (.wrongLength index (s!"struct {kind.title} with " ++ elements kind))
  | _ :: columns, v :: rest => do
    let value ← columnValue v
    let ⟨values, h⟩ ← fromItems kind (index + 1) columns rest
    return ⟨value :: values, by simp [h]⟩

/-- A record: an object with a tag and the columns, or an array of the same. -/
def decoder : Decoder Record
  | depth, .object members => do
    let depth ← Reading.enter depth
    let (kind, kept) ← split depth none [] members
    let kind ← required "kind" kind
    let taken ← columnsAmong kind.columns [] kept
    let ⟨values, complete⟩ ← inOrder taken kind.columns
    return ⟨kind, values, complete⟩
  | depth, .array items => do
    let depth ← Reading.enter depth
    match items with
    | [] => throw (.missingField "kind")
    | first :: rest => do
      let kind ← tag first
      let kept ← Reading.values depth rest
      let ⟨values, complete⟩ ← fromItems kind 0 kind.columns kept
      return ⟨kind, values, complete⟩
  | _, r => r.mismatch "internally tagged enum Record"

end Record

namespace Identifier

structure Draft where
  scheme : Option String
  value : Option String

def shape : Shape Draft where
  title := "struct Identifier"
  blank := ⟨none, none⟩
  fields := [
    .of "type" Decoder.string (·.scheme) (fun d x => { d with scheme := x }) false,
    .of "value" Decoder.string (·.value) (fun d x => { d with value := x }) false]
  isClosed := false

def decoder : Decoder Identifier := fun depth r => do
  let d ← shape.draft depth r
  return ⟨← required "type" d.scheme, ← required "value" d.value⟩

end Identifier

namespace Shares

structure Draft where
  performance : Option (Option Binary64)
  mechanical : Option (Option Binary64)
  synchronization : Option (Option Binary64)

def shape : Shape Draft where
  title := "struct Shares"
  blank := ⟨none, none, none⟩
  fields := [
    .of "performance" (.optional .real) (·.performance)
      (fun d x => { d with performance := x }) true,
    .of "mechanical" (.optional .real) (·.mechanical) (fun d x => { d with mechanical := x }) true,
    .of "synchronization" (.optional .real) (·.synchronization)
      (fun d x => { d with synchronization := x }) true]
  isClosed := false

def decoder : Decoder (Shares Binary64) := fun depth r => do
  let d ← shape.draft depth r
  return ⟨d.performance.join, d.mechanical.join, d.synchronization.join⟩

end Shares

namespace Link

structure Draft where
  kind : Option LinkKind
  a : Option Identifier
  b : Option Identifier
  role : Option (Option String)
  shares : Option (Option (Shares Binary64))

def kindDecoder : Decoder LinkKind :=
  Decoder.choice LinkKind.ofName? (LinkKind.all.map (·.name))

def shape : Shape Draft where
  title := "struct Link"
  blank := ⟨none, none, none, none, none⟩
  fields := [
    .of "kind" kindDecoder (·.kind) (fun d x => { d with kind := x }) false,
    .of "a" Identifier.decoder (·.a) (fun d x => { d with a := x }) false,
    .of "b" Identifier.decoder (·.b) (fun d x => { d with b := x }) false,
    .of "role" (.optional .string) (·.role) (fun d x => { d with role := x }) true,
    .of "shares" (.optional Shares.decoder) (·.shares) (fun d x => { d with shares := x }) true]
  isClosed := false

def decoder : Decoder (Link Binary64) := fun depth r => do
  let d ← shape.draft depth r
  return ⟨← required "kind" d.kind, ← required "a" d.a, ← required "b" d.b, d.role.join,
    d.shares.join⟩

end Link

namespace TypedLink

structure Draft where
  a : Option Identifier
  b : Option Identifier
  role : Option String
  shares : Option (Shares Binary64)

def roleField : FieldSpec Draft :=
  .of "role" Decoder.string (·.role) (fun d x => { d with role := x }) true

def sharesField : FieldSpec Draft :=
  .of "shares" Shares.decoder (·.shares) (fun d x => { d with shares := x }) true

def attributeFields : LinkAttributes → List (FieldSpec Draft)
  | .none => []
  | .role => [roleField]
  | .roleAndShares => [roleField, sharesField]

def shape (kind : LinkKind) : Shape Draft where
  title := "struct " ++ kind.title
  blank := ⟨none, none, none, none⟩
  fields :=
    [.of kind.ends.1.name Identifier.decoder (·.a) (fun d x => { d with a := x }) false,
      .of kind.ends.2.name Identifier.decoder (·.b) (fun d x => { d with b := x }) false] ++
    attributeFields kind.attributes
  isClosed := false

/-- A typed link; a role that is left out is empty, and shares that are left out are unknown. -/
def decoder (kind : LinkKind) : Decoder (TypedLink kind Binary64) := fun depth r => do
  let d ← (shape kind).draft depth r
  let a ← required kind.ends.1.name d.a
  let b ← required kind.ends.2.name d.b
  return ⟨a, b, .ofParts kind.attributes (d.role.getD "") (d.shares.getD .unknown)⟩

end TypedLink

end MusicIndex
