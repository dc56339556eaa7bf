import MusicIndex.Index.Basic
import MusicIndex.Json.Printer
import MusicIndex.Json.Decoder
import MusicIndex.Text.Utf8

namespace MusicIndex

/-- An index, when each of its sources was first seen, in order of number, and whether a log of
changes is kept beside its file. -/
structure Database where
  index : Index
  firstSeen : List String
  hasLog : Bool

namespace Database

def empty : Database := ⟨.empty, [], true⟩

instance : Inhabited Database := ⟨empty⟩

def update (d : Database) (now : String) (x : Index) : Database :=
  let fresh := x.sources.size - d.firstSeen.length
  { d with index := x, firstSeen := d.firstSeen ++ List.replicate fresh now }

def tableToJson {α : Type} (f : α → List Json) (t : Table α) : Json :=
  .ofList (fun row => .array (.integer row.id :: f row.content)) t.rows

/-- A share by its bits; those of a negative number are counted down from -1. -/
def shareToJson (x : Binary64) : Json :=
  .integer (if x.negative then -1 - x.magnitude else x.magnitude)

def linkToJson (c : LinkClaim) : List Json :=
  [.integer c.a, .integer c.b, .string c.role,
    .ofList (fun (_, share) => .ofOption shareToJson share) c.shares.named, .integer c.source]

def assignmentToJson (a : Assignment) : List Json :=
  [.integer a.identifier, .string a.kind.name, .integer a.record, .integer a.source]

def toJson (d : Database) : Json :=
  let x := d.index
  .object [("version", .integer Index.schemaVersion), ("log", .bool d.hasLog),
    ("sources", tableToJson (fun name => [.string name]) x.sources),
    ("first_seen", .ofList .string d.firstSeen),
    ("identifiers", tableToJson (fun i => [.string i.scheme, .string i.value]) x.identifiers),
    ("assignments", tableToJson assignmentToJson x.assignments),
    ("records", .object (RecordKind.all.map fun kind =>
      (kind.name, tableToJson (fun c => [.ofList .string c.values, .integer c.source])
        (x.records kind)))),
    ("links", .object (LinkKind.all.map fun kind =>
      (kind.name, tableToJson linkToJson (x.links kind)))),
    ("refused", .ofList (fun (table : TableName) => .string table.name) x.refused)]

def toBytes (d : Database) : List UInt8 :=
  Text.Utf8.encode d.toJson.text

def listOf? {α : Type} (f : Json → Option α) : Json → Option (List α)
  | .array items => items.mapM f
  | _ => none

def text? : Json → Option String
  | .string s => some s
  | _ => none

def bool? : Json → Option Bool
  | .bool b => some b
  | _ => none

def tableOf? {α : Type} (f : List Json → Option α) (v : Json) : Option (Table α) :=
  Table.mk <$> listOf? (fun
    | .array (.integer id :: content) => (f content).map (Row.mk id.toNat)
    | _ => none) v

def member? {α : Type} (name : String) (f : Json → Option α) (v : Json) : Option α :=
  (v.get? name).bind f

def share? : Json → Option (Option Binary64)
  | .null => some none
  | .integer n =>
    let magnitude := if n < 0 then (-1 - n).toNat else n.toNat
    if h : magnitude < Binary64.top then some (some ⟨n < 0, magnitude, h⟩) else none
  | _ => none

def recordClaim? : List Json → Option RecordClaim
  | [values, .integer source] => do return ⟨← listOf? text? values, source.toNat⟩
  | _ => none

def linkClaim? : List Json → Option LinkClaim
  | [.integer a, .integer b, .string role, .array [p, m, s], .integer source] => do
    return ⟨a.toNat, b.toNat, role, ⟨← share? p, ← share? m, ← share? s⟩, source.toNat⟩
  | _ => none

def assignment? : List Json → Option Assignment
  | [.integer identifier, .string kind, .integer record, .integer source] => do
    return ⟨identifier.toNat, ← RecordKind.ofName? kind, record.toNat, source.toNat⟩
  | _ => none

def source? : List Json → Option String
  | [.string name] => some name
  | _ => none

def identifier? : List Json → Option Identifier
  | [.string scheme, .string value] => some ⟨scheme, value⟩
  | _ => none

def ofJson? (v : Json) : Option Database := do
  let hasLog ← member? "log" bool? v
  let sources ← member? "sources" (tableOf? source?) v
  let firstSeen ← member? "first_seen" (listOf? text?) v
  let identifiers ← member? "identifiers" (tableOf? identifier?) v
  let assignments ← member? "assignments" (tableOf? assignment?) v
  let records ← RecordKind.all.mapM fun kind => do
    return (kind, ← member? "records" (member? kind.name (tableOf? recordClaim?)) v)
  let links ← LinkKind.all.mapM fun kind => do
    return (kind, ← member? "links" (member? kind.name (tableOf? linkClaim?)) v)
  let refused ← member? "refused" (listOf? fun name => (text? name).bind TableName.ofName?) v
  return ⟨⟨sources, identifiers, assignments, fun kind => (records.lookup kind).getD .empty,
    fun kind => (links.lookup kind).getD .empty, refused, false⟩, firstSeen, hasLog⟩

def ofBytes? (bytes : List UInt8) : Option Database :=
  match Text.Utf8.decode bytes with
  | .error _ => none
  | .ok cs =>
    match Json.Decoder.text (fun depth r => r.value depth) (String.ofList cs) with
    | .error _ => none
    | .ok v => ofJson? v

end Database

end MusicIndex
