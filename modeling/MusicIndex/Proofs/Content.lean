import Mathlib.Data.Multiset.Filter
import MusicIndex.Proofs.LedgerRead

namespace MusicIndex

open Ledger

structure Binding where
  record : SourcedRecord
  identifier : Identifier
  source : String
deriving DecidableEq

structure SharedLink where
  key : LinkKey
  shares : Shares Binary64
deriving DecidableEq

def RecordFact.binding (f : RecordFact) : Binding :=
  ⟨f.claim, f.identifier, f.source⟩

/-- What the sources of an index claim. A row that refers to nothing claims `none`. -/
@[ext]
structure Claims where
  records : RecordKind → Multiset (Option SourcedRecord)
  bindings : Multiset (Option Binding)
  links : LinkKind → Multiset (Option SharedLink)

def Claims.of (c : Claims) (name : String) : Claims where
  records kind := (c.records kind).filter fun r => ∃ r' ∈ r, r'.source = name
  bindings := c.bindings.filter fun b => ∃ b' ∈ b, b'.source = name ∨ b'.record.source = name
  links kind := (c.links kind).filter fun l => ∃ l' ∈ l, l'.key.source = name

/-- What an index says: whom it knows, and what they claim. -/
@[ext]
structure Content extends Claims where
  sources : Multiset String
  identifiers : Multiset Identifier

namespace Index

def sourcedRecord? (x : Index) (kind : RecordKind) (c : RecordClaim) : Option SourcedRecord := do
  let record ← Record.ofValues? kind c.values
  let source ← x.sources.get? c.source
  return ⟨record, source⟩

def recordAt? (x : Index) (kind : RecordKind) (id : Nat) : Option SourcedRecord := do
  x.sourcedRecord? kind (← (x.records kind).get? id)

def binding? (x : Index) (a : Assignment) : Option Binding := do
  let record ← x.recordAt? a.kind a.record
  let identifier ← x.identifiers.get? a.identifier
  let source ← x.sources.get? a.source
  return ⟨record, identifier, source⟩

def linkKey? (x : Index) (c : LinkClaim) : Option LinkKey := do
  let a ← x.identifiers.get? c.a
  let b ← x.identifiers.get? c.b
  let source ← x.sources.get? c.source
  return ⟨a, b, c.role, source⟩

def sharedLink? (x : Index) (c : LinkClaim) : Option SharedLink := do
  return ⟨← x.linkKey? c, c.shares⟩

def claims (x : Index) : Claims where
  records kind := (x.records kind).contents.map (x.sourcedRecord? kind)
  bindings := x.assignments.contents.map x.binding?
  links kind := (x.links kind).contents.map x.sharedLink?

def content (x : Index) : Content where
  toClaims := x.claims
  sources := x.sources.contents
  identifiers := x.identifiers.contents

theorem stats_eq_of_content_eq {x y : Index} (h : x.content = y.content) : x.stats = y.stats := by
  have hsources := congrArg (Multiset.card ∘ Content.sources) h
  have hidentifiers := congrArg (Multiset.card ∘ Content.identifiers) h
  have hbindings := congrArg (Multiset.card ∘ Claims.bindings ∘ Content.toClaims) h
  have hrecords (kind : RecordKind) :=
    congrArg (fun c : Content => Multiset.card (c.records kind)) h
  have hlinks (kind : LinkKind) := congrArg (fun c : Content => Multiset.card (c.links kind)) h
  simp only [Function.comp_apply, content, claims, Multiset.coe_card, List.length_map,
    Table.contents] at hsources hidentifiers hbindings hrecords hlinks
  simp only [stats, Table.size, hsources, hidentifiers, hbindings, hrecords, hlinks]

end Index

namespace Ledger

variable {log : List Call}

theorem source_get?_index {name : String} (h : name ∈ sources log) :
    (index log).sources.get? (number (sources log) name) = some name :=
  Table.get?_keyed h

theorem identifier_get?_index {i : Identifier} (h : i ∈ identifiers log) :
    (index log).identifiers.get? (number (identifiers log) i) = some i :=
  Table.get?_keyed h

theorem sourcedRecord?_recordRow {kind : RecordKind} {c : SourcedRecord}
    (h : c ∈ claims kind (facts log)) :
    (index log).sourcedRecord? kind (recordRow log c) = some c := by
  obtain ⟨rfl, -⟩ := mem_claims.mp h
  simp only [Index.sourcedRecord?, recordRow, Record.ofValues?_values,
    source_get?_index (source_mem_of_claim h)]
  rfl

theorem recordAt?_index {kind : RecordKind} {c : SourcedRecord} (h : c ∈ claims kind (facts log)) :
    (index log).recordAt? kind (number (claims kind (facts log)) c) = some c := by
  have hget : ((index log).records kind).get? (number (claims kind (facts log)) c) =
      some (recordRow log c) :=
    Table.get?_keyed h
  rw [Index.recordAt?, hget]
  exact sourcedRecord?_recordRow h

theorem binding?_assignmentRow {f : RecordFact} (h : f ∈ facts log) :
    (index log).binding? (assignmentRow log f) = some f.binding := by
  simp only [Index.binding?, assignmentRow, recordAt?_index (claim_mem_claims h),
    identifier_get?_index (identifier_mem_of_fact h), source_get?_index (source_mem_of_fact h)]
  rfl

theorem linkKey?_linkRow {kind : LinkKind} {key : LinkKey} (h : key ∈ keys kind (links log)) :
    (index log).linkKey? (linkRow log kind key) = some key := by
  obtain ⟨hs, ha, hb⟩ := known_of_key h
  simp only [Index.linkKey?, linkRow, identifier_get?_index ha, identifier_get?_index hb,
    source_get?_index hs]
  rfl

def sharedLink (log : List Call) (kind : LinkKind) (key : LinkKey) : SharedLink :=
  ⟨key, rowShares log kind key⟩

section Claims

theorem map_contents_keyed {κ α β : Type} [DecidableEq κ] {keys : List κ} {row : κ → α}
    {read : α → Option β} {meaning : κ → β}
    (h : ∀ key ∈ keys, read (row key) = some (meaning key)) :
    (Table.keyed keys row).contents.map read = keys.map (some ∘ meaning) := by
  rw [Table.contents_keyed, List.map_map]
  exact List.map_congr_left h

theorem claims_records_index (log : List Call) (kind : RecordKind) :
    (index log).claims.records kind = (claims kind (facts log)).map (some ∘ id) :=
  congrArg Multiset.ofList (map_contents_keyed fun _ => sourcedRecord?_recordRow)

theorem claims_bindings_index (log : List Call) : (index log).claims.bindings =
    (facts log).eraseDups.map (some ∘ RecordFact.binding) :=
  congrArg Multiset.ofList
    (map_contents_keyed fun _ hf => binding?_assignmentRow (List.mem_eraseDups.mp hf))

theorem claims_links_index (log : List Call) (kind : LinkKind) :
    (index log).claims.links kind =
      (keys kind (links log)).map (some ∘ sharedLink log kind) := by
  refine congrArg Multiset.ofList (map_contents_keyed fun key hk => ?_)
  rw [Index.sharedLink?, linkKey?_linkRow hk]
  rfl

end Claims

end Ledger

end MusicIndex
