import MusicIndex.Proofs.KeyedTable
import MusicIndex.Proofs.Writing

namespace MusicIndex

structure SourcedRecord where
  record : Record
  source : String
deriving DecidableEq

/-- What tells the links of a kind apart. -/
structure LinkKey where
  a : Identifier
  b : Identifier
  role : String
  source : String
deriving DecidableEq

def RecordFact.claim (f : RecordFact) : SourcedRecord :=
  ⟨f.record, f.source⟩

/-- The key of a link; a kind without attributes has no roles. -/
def LinkFact.key (f : LinkFact) : LinkKey :=
  ⟨f.link.a, f.link.b, if f.link.kind.attributes = .none then "" else f.link.keyRole, f.source⟩

def LinkKey.near (key : LinkKey) : Direction → Identifier
  | .forward => key.a
  | .reverse => key.b

namespace Ledger

def claims (kind : RecordKind) (facts : List RecordFact) : List SourcedRecord :=
  ((facts.filter (·.record.kind = kind)).map (·.claim)).eraseDups

/-- The distinct identifiers that facts give to a source's record. -/
def boundTo (claim : SourcedRecord) (facts : List RecordFact) : List Identifier :=
  ((facts.filter (·.claim = claim)).map (·.identifier)).eraseDups

def keys (kind : LinkKind) (links : List LinkFact) : List LinkKey :=
  ((links.filter (·.link.kind = kind)).map (·.key)).eraseDups

/-- The shares that were given last for a key; they are unknown if they were left out. -/
def lastShares (kind : LinkKind) (key : LinkKey) (links : List LinkFact) : Shares Binary64 :=
  ((links.filter fun f => f.link.kind = kind ∧ f.key = key).getLast?.bind (·.link.shares)).getD
    .unknown

variable (log : List Call)

def facts : List RecordFact :=
  log.filterMap Call.record?

def links : List LinkFact :=
  log.filterMap Call.link?

def sources : List String :=
  (log.filterMap Call.source?).eraseDups

def identifiers : List Identifier :=
  (log.flatMap Call.identifiers).eraseDups

def recordRow (c : SourcedRecord) : RecordClaim :=
  ⟨c.record.values, number (sources log) c.source⟩

def assignmentRow (f : RecordFact) : Assignment :=
  ⟨number (identifiers log) f.identifier, f.record.kind,
    number (claims f.record.kind (facts log)) f.claim, number (sources log) f.source⟩

def rowShares (kind : LinkKind) (key : LinkKey) : Shares Binary64 :=
  if kind.attributes = .roleAndShares then (lastShares kind key (links log)).kept else .unknown

def linkRow (kind : LinkKind) (key : LinkKey) : LinkClaim :=
  ⟨number (identifiers log) key.a, number (identifiers log) key.b, key.role,
    rowShares log kind key, number (sources log) key.source⟩

/-- The index that a log makes. -/
def index : Index where
  sources := .keyed (sources log) id
  identifiers := .keyed (identifiers log) id
  assignments := .keyed (facts log).eraseDups (assignmentRow log)
  records kind := .keyed (claims kind (facts log)) (recordRow log)
  links kind := .keyed (keys kind (links log)) (linkRow log kind)
  refused := []
  isReadOnly := false

theorem isOpen_index : (index log).IsOpen := ⟨rfl, rfl⟩

variable {log}

theorem nodup_sources : (sources log).Nodup :=
  nodup_eraseDups _

theorem nodup_identifiers : (identifiers log).Nodup :=
  nodup_eraseDups _

theorem nodup_claims {kind : RecordKind} {facts : List RecordFact} : (claims kind facts).Nodup :=
  nodup_eraseDups _

theorem nodup_keys {kind : LinkKind} {links : List LinkFact} : (keys kind links).Nodup :=
  nodup_eraseDups _

section Membership

theorem mem_claims {kind : RecordKind} {c : SourcedRecord} {facts : List RecordFact} :
    c ∈ claims kind facts ↔ c.record.kind = kind ∧ ∃ f ∈ facts, f.claim = c := by
  simp only [claims, List.mem_eraseDups, List.mem_map, List.mem_filter, decide_eq_true_eq]
  constructor
  · rintro ⟨f, ⟨hf, rfl⟩, rfl⟩
    exact ⟨rfl, f, hf, rfl⟩
  · rintro ⟨rfl, f, hf, rfl⟩
    exact ⟨f, ⟨hf, rfl⟩, rfl⟩

theorem mem_boundTo {c : SourcedRecord} {i : Identifier} {facts : List RecordFact} :
    i ∈ boundTo c facts ↔ ⟨c.record, i, c.source⟩ ∈ facts := by
  simp only [boundTo, List.mem_eraseDups, List.mem_map, List.mem_filter, decide_eq_true_eq]
  constructor
  · rintro ⟨f, ⟨hf, rfl⟩, rfl⟩
    exact hf
  · intro h
    exact ⟨_, ⟨h, rfl⟩, rfl⟩

theorem mem_keys {kind : LinkKind} {key : LinkKey} {links : List LinkFact} :
    key ∈ keys kind links ↔ ∃ f ∈ links, f.link.kind = kind ∧ f.key = key := by
  simp [keys, and_assoc]

theorem mem_facts {f : RecordFact} :
    f ∈ facts log ↔ .createRecord f.record f.identifier f.source ∈ log := by
  simp only [facts, List.mem_filterMap]
  constructor
  · rintro ⟨c, hc, he⟩
    cases c with
    | createRecord r i source =>
      cases he
      exact hc
    | _ => cases he
  · intro h
    exact ⟨_, h, rfl⟩

theorem claim_mem_claims {f : RecordFact} {facts : List RecordFact} (h : f ∈ facts) :
    f.claim ∈ claims f.record.kind facts :=
  mem_claims.mpr ⟨rfl, f, h, rfl⟩

theorem source_mem_of_fact {f : RecordFact} (h : f ∈ facts log) : f.source ∈ sources log :=
  List.mem_eraseDups.mpr (List.mem_filterMap.mpr ⟨_, mem_facts.mp h, rfl⟩)

theorem identifier_mem_of_fact {f : RecordFact} (h : f ∈ facts log) :
    f.identifier ∈ identifiers log :=
  List.mem_eraseDups.mpr (List.mem_flatMap.mpr ⟨_, mem_facts.mp h, List.mem_singleton_self _⟩)

theorem source_mem_of_claim {kind : RecordKind} {c : SourcedRecord}
    (h : c ∈ claims kind (facts log)) : c.source ∈ sources log := by
  obtain ⟨-, f, hf, rfl⟩ := mem_claims.mp h
  exact source_mem_of_fact hf

theorem known_of_link {f : LinkFact} (h : f ∈ links log) :
    f.source ∈ sources log ∧ f.link.a ∈ identifiers log ∧ f.link.b ∈ identifiers log := by
  obtain ⟨c, hc, he⟩ := List.mem_filterMap.mp h
  have hs : c.source? = some f.source := by
    cases c <;> cases he <;> rfl
  have hi : c.identifiers = [f.link.a, f.link.b] := by
    cases c <;> cases he <;> rfl
  refine ⟨List.mem_eraseDups.mpr (List.mem_filterMap.mpr ⟨c, hc, hs⟩), ?_, ?_⟩
  · exact List.mem_eraseDups.mpr (List.mem_flatMap.mpr ⟨c, hc, by simp [hi]⟩)
  · exact List.mem_eraseDups.mpr (List.mem_flatMap.mpr ⟨c, hc, by simp [hi]⟩)

theorem known_of_key {kind : LinkKind} {key : LinkKey} (h : key ∈ keys kind (links log)) :
    key.source ∈ sources log ∧ key.a ∈ identifiers log ∧ key.b ∈ identifiers log := by
  obtain ⟨f, hf, -, rfl⟩ := mem_keys.mp h
  exact known_of_link hf

theorem role_of_mem_keys {kind : LinkKind} {key : LinkKey} {links : List LinkFact}
    (h : key ∈ keys kind links) (hnone : kind.attributes = .none) : key.role = "" := by
  obtain ⟨f, -, rfl, rfl⟩ := mem_keys.mp h
  exact if_pos hnone

end Membership

end Ledger

end MusicIndex
