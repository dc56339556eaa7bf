import MusicIndex.Proofs.FeedRun
import MusicIndex.Proofs.LedgerRead

namespace MusicIndex

open Ledger

/-- What tells a link from the others of its kind. -/
def LinkClaim.identity (kind : LinkKind) (c : LinkClaim) : Nat × Nat × Option String × Nat :=
  (c.a, c.b, if kind.attributes = .none then none else some c.role, c.source)

namespace Index

structure Distinct (x : Index) : Prop where
  sources : x.sources.contents.Nodup
  identifiers : x.identifiers.contents.Nodup
  records : ∀ kind, (x.records kind).contents.Nodup
  assignments : x.assignments.contents.Nodup
  links : ∀ kind, ((x.links kind).contents.map (·.identity kind)).Nodup

structure Numbered (x : Index) : Prop where
  sources : x.sources.Numbered
  identifiers : x.identifiers.Numbered
  records : ∀ kind, (x.records kind).Numbered
  assignments : x.assignments.Numbered
  links : ∀ kind, (x.links kind).Numbered

/-- What rows refer to is there. A record is assigned, and only by the source that gave it. -/
structure Referenced (x : Index) : Prop where
  recordSource : ∀ kind, ∀ c ∈ (x.records kind).contents, (x.sources.get? c.source).isSome
  recordAssigned : ∀ kind, ∀ row ∈ (x.records kind).rows,
    ∃ a ∈ x.assignments.contents, a.kind = kind ∧ a.record = row.id
  assignment : ∀ a ∈ x.assignments.contents,
    (x.identifiers.get? a.identifier).isSome ∧ (x.sources.get? a.source).isSome ∧
      ∃ c, (x.records a.kind).get? a.record = some c ∧ c.source = a.source
  link : ∀ kind, ∀ c ∈ (x.links kind).contents,
    (x.identifiers.get? c.a).isSome ∧ (x.identifiers.get? c.b).isSome ∧
      (x.sources.get? c.source).isSome

structure Proper (x : Index) : Prop where
  sources : ∀ name ∈ x.sources.contents, ¬ Text.Blank name
  identifiers : ∀ i ∈ x.identifiers.contents, ¬ Text.Blank i.scheme ∧ ¬ Text.Blank i.value
  shares : ∀ kind, ∀ c ∈ (x.links kind).contents, c.shares.InRange

structure Integrity (x : Index) : Prop where
  distinct : x.Distinct
  numbered : x.Numbered
  referenced : x.Referenced
  proper : x.Proper

end Index

namespace Ledger

variable {log : List Call}

theorem identity_linkRow_inj {kind : LinkKind} {key other : LinkKey}
    (hk : key ∈ keys kind (links log)) (ho : other ∈ keys kind (links log))
    (h : (linkRow log kind key).identity kind = (linkRow log kind other).identity kind) :
    key = other := by
  obtain ⟨hs, ha, hb⟩ := known_of_key hk
  simp only [LinkClaim.identity, linkRow, Prod.mk.injEq] at h
  obtain ⟨ea, eb, er, es⟩ := h
  have hrole : key.role = other.role := by
    by_cases hn : kind.attributes = .none
    · rw [role_of_mem_keys hk hn, role_of_mem_keys ho hn]
    · rw [if_neg hn, if_neg hn] at er
      exact Option.some.inj er
  obtain ⟨a, b, role, source⟩ := key
  obtain ⟨a', b', role', source'⟩ := other
  obtain rfl := (number_inj ha).mp ea
  obtain rfl := (number_inj hb).mp eb
  obtain rfl := (number_inj hs).mp es
  obtain rfl := hrole
  rfl

theorem distinct_index (log : List Call) : (index log).Distinct where
  sources := by
    change (Table.keyed (sources log) id).contents.Nodup
    rw [Table.contents_keyed, List.map_id]
    exact nodup_sources
  identifiers := by
    change (Table.keyed (identifiers log) id).contents.Nodup
    rw [Table.contents_keyed, List.map_id]
    exact nodup_identifiers
  records kind := by
    change (Table.keyed (claims kind (facts log)) (recordRow log)).contents.Nodup
    rw [Table.contents_keyed]
    apply nodup_claims.map_on
    intro c hc d hd h
    have hkind := (mem_claims.mp hc).1.trans (mem_claims.mp hd).1.symm
    exact (recordRow_inj hkind (source_mem_of_claim hc)).mp h
  assignments := by
    change (Table.keyed (facts log).eraseDups (assignmentRow log)).contents.Nodup
    rw [Table.contents_keyed]
    apply (nodup_eraseDups _).map_on
    intro f hf g _ h
    exact (assignmentRow_inj (List.mem_eraseDups.mp hf)).mp h
  links kind := by
    change ((Table.keyed (keys kind (links log)) (linkRow log kind)).contents.map _).Nodup
    rw [Table.contents_keyed, List.map_map]
    apply nodup_keys.map_on
    intro key hk other ho h
    exact identity_linkRow_inj hk ho h

theorem numbered_index (log : List Call) : (index log).Numbered where
  sources := Table.numbered_keyed nodup_sources
  identifiers := Table.numbered_keyed nodup_identifiers
  records _ := Table.numbered_keyed nodup_claims
  assignments := Table.numbered_keyed (nodup_eraseDups _)
  links _ := Table.numbered_keyed nodup_keys

theorem source_isSome {name : String} (h : name ∈ sources log) :
    ((index log).sources.get? (number (sources log) name)).isSome := by
  change ((Table.keyed (sources log) id).get? _).isSome
  rw [Table.get?_keyed h]
  rfl

theorem identifier_isSome {i : Identifier} (h : i ∈ identifiers log) :
    ((index log).identifiers.get? (number (identifiers log) i)).isSome := by
  change ((Table.keyed (identifiers log) id).get? _).isSome
  rw [Table.get?_keyed h]
  rfl

theorem referenced_index (log : List Call) : (index log).Referenced where
  recordSource kind c hc := by
    obtain ⟨claim, hclaim, rfl⟩ := mem_records_index.mp hc
    exact source_isSome (source_mem_of_claim hclaim)
  recordAssigned kind row hrow := by
    obtain ⟨claim, hclaim, rfl⟩ := Table.mem_rows_keyed.mp hrow
    obtain ⟨rfl, f, hf, rfl⟩ := mem_claims.mp hclaim
    exact ⟨assignmentRow log f, mem_assignments_index.mpr ⟨f, hf, rfl⟩, rfl, rfl⟩
  assignment a ha := by
    obtain ⟨f, hf, rfl⟩ := mem_assignments_index.mp ha
    exact ⟨identifier_isSome (identifier_mem_of_fact hf), source_isSome (source_mem_of_fact hf),
      recordRow log f.claim, Table.get?_keyed (claim_mem_claims hf), rfl⟩
  link kind c hc := by
    obtain ⟨key, hk, rfl⟩ := mem_links_index.mp hc
    obtain ⟨hs, ha, hb⟩ := known_of_key hk
    exact ⟨identifier_isSome ha, identifier_isSome hb, source_isSome hs⟩

theorem not_blank_of_source? {c : Call} {name : String} (hc : ¬ c.Improper)
    (h : c.source? = some name) : ¬ Text.Blank name := by
  cases c <;> cases h
  case resolveSource => exact hc
  all_goals exact (not_or.mp hc).2

theorem proper_of_mem_identifiers {c : Call} {i : Identifier} (hc : ¬ c.Improper)
    (h : i ∈ c.identifiers) : ¬ i.Improper := by
  have hends {l : Link Double} (hl : ¬ l.Improper) (hi : i ∈ [l.a, l.b]) : ¬ i.Improper := by
    obtain ⟨ha, hb⟩ := Link.proper_ends hl
    rcases List.mem_pair.mp hi with rfl | rfl
    · exact ha
    · exact hb
  cases c with
  | createRecord r j source =>
    obtain rfl := List.mem_singleton.mp h
    exact (not_or.mp hc).1
  | createLink l source => exact hends (not_or.mp hc).1 h
  | createTypedLink l source => exact @hends l.toLink (not_or.mp hc).1 h
  | resolveSource name => cases h
  | resolveIdentifier j =>
    obtain rfl := List.mem_singleton.mp h
    exact hc

theorem proper_of_mem_links {f : LinkFact} (hlog : ∀ c ∈ log, ¬ c.Improper)
    (h : f ∈ links log) : ¬ f.link.Improper := by
  obtain ⟨c, hc, hl⟩ := List.mem_filterMap.mp h
  exact proper_of_link? hl (hlog c hc)

theorem inRange_of_proper {l : Link Binary64} (h : ¬ l.Improper)
    (hk : l.kind.attributes = .roleAndShares) :
    (l.shares.getD .unknown).InRange := by
  cases hs : l.shares with
  | none => exact Shares.inRange_unknown
  | some shares =>
    by_contra hn
    exact h (.inr (.inr (.inr (.inr ⟨hk, shares, hs, hn⟩))))

theorem inRange_rowShares (hlog : ∀ c ∈ log, ¬ c.Improper) (kind : LinkKind) (key : LinkKey) :
    (rowShares log kind key).InRange := by
  unfold rowShares
  split
  · rename_i hk
    apply Shares.InRange.kept
    unfold lastShares
    cases hlast : ((links log).filter fun f => f.link.kind = kind ∧ f.key = key).getLast? with
    | none => exact Shares.inRange_unknown
    | some f =>
      obtain ⟨hf, he⟩ := List.mem_filter.mp (List.mem_of_getLast? hlast)
      obtain ⟨rfl, -⟩ := of_decide_eq_true he
      exact inRange_of_proper (proper_of_mem_links hlog hf) hk
  · exact Shares.inRange_unknown

theorem proper_index (hlog : ∀ c ∈ log, ¬ c.Improper) : (index log).Proper where
  sources name h := by
    change name ∈ (Table.keyed (sources log) id).contents at h
    rw [Table.contents_keyed, List.map_id] at h
    obtain ⟨c, hc, hs⟩ := List.mem_filterMap.mp (List.mem_eraseDups.mp h)
    exact not_blank_of_source? (hlog c hc) hs
  identifiers i h := by
    change i ∈ (Table.keyed (identifiers log) id).contents at h
    rw [Table.contents_keyed, List.map_id] at h
    obtain ⟨c, hc, hi⟩ := List.mem_flatMap.mp (List.mem_eraseDups.mp h)
    exact not_or.mp (proper_of_mem_identifiers (hlog c hc) hi)
  shares kind c h := by
    obtain ⟨key, -, rfl⟩ := mem_links_index.mp h
    exact inRange_rowShares hlog kind key

end Ledger

/-- Every index that calls and feeds make of the empty one has its integrity. -/
theorem integrity_of_reachable {x : Index} (h : x.Reachable) : x.Integrity := by
  obtain ⟨log, hlog, rfl⟩ := h.exists_log
  exact {
    distinct := distinct_index log
    numbered := numbered_index log
    referenced := referenced_index log
    proper := proper_index hlog }

theorem integrity_of_small_catalogue :
    let anna : Record := ⟨.performer, ⟨["Anna"], rfl⟩⟩
    let isni : Identifier := ⟨"isni", "1"⟩
    let song : Link Binary64 := ⟨.publisherWork, isni, ⟨"iswc", "2"⟩, some "", some .unknown⟩
    let line := "[[\"performer\",\"Bo\"],[\"isni\",\"3\"],null,null]"
    let x := Index.empty.after [.createRecord anna isni "radio", .createRecord anna isni "press",
      .resolveSource " ", .createLink song "labels"]
    let y := (Index.ingest ⟨"feed", "press", false⟩ line.toUTF8.toList x).2
    y.Reachable ∧ y.Integrity ∧
      (y.sources.size, y.identifiers.size, (y.records .performer).size, y.assignments.size) =
        (3, 3, 3, 3) := by
  intro anna isni song line x y
  have hy : y.Reachable := .feed _ _ (.call _ (.call _ (.call _ (.call _ .empty))))
  exact ⟨hy, integrity_of_reachable hy, by decide +kernel⟩

end MusicIndex
