import MusicIndex.Proofs.History
import MusicIndex.Proofs.LedgerRead

namespace MusicIndex

open Ledger

/-- An assignment reports that the record of a row goes by an identifier. -/
structure ReportsBinding (x : Index) (row : RecordRow) (i : Identifier) (a : StoredAssignment) :
    Prop where
  identifier : x.find? i = some a.identifier
  kind : a.kind = row.record.kind
  record : a.record = row.id
  source : a.source = row.source

/-- A row reports the record of a source among facts, together with its identifiers. -/
structure ReportsClaim (x : Index) (facts : List RecordFact) (c : SourcedRecord)
    (row : RecordRow) : Prop where
  id : row.id = number (claims c.record.kind facts) c
  record : row.record = c.record
  source : x.sourceName row.source = .ok c.source
  identifiers : List.Forall₂ (ReportsBinding x row) (boundTo c facts)
    (x.identifiersOf c.record.kind row.id)

namespace Ledger

variable {log : List Call} {kind : RecordKind} {i : Identifier} {c : SourcedRecord}

theorem lookup_index_of_fact (h : ∃ f ∈ facts log, f.record.kind = kind ∧ f.identifier = i) :
    (index log).lookup kind i = .ok ⟨number (identifiers log) i, i⟩ := by
  have hi : i ∈ identifiers log := by
    obtain ⟨f, hf, -, rfl⟩ := h
    exact identifier_mem_of_fact hf
  simp only [Index.lookup, find?_index_of_mem hi, if_pos (standsFor_index.mpr h)]

theorem lookup_index_of_no_fact (h : ¬ ∃ f ∈ facts log, f.record.kind = kind ∧ f.identifier = i) :
    (index log).lookup kind i = .error (.identifierNotFound kind i) := by
  rw [Index.lookup, find?_index]
  by_cases hi : i ∈ identifiers log
  · simp only [if_pos hi, if_neg (mt standsFor_index.mp h)]
  · simp only [if_neg hi]

theorem boundTo_eq_map (c : SourcedRecord) (facts : List RecordFact) :
    boundTo c facts = (facts.eraseDups.filter (·.claim = c)).map (·.identifier) := by
  rw [filter_eraseDups, map_eraseDups, boundTo]
  intro f hf g hg e
  obtain ⟨-, hfc⟩ := List.mem_filter.mp hf
  obtain ⟨-, hgc⟩ := List.mem_filter.mp hg
  have hclaim : f.claim = g.claim := (of_decide_eq_true hfc).trans (of_decide_eq_true hgc).symm
  obtain ⟨r, j, s⟩ := f
  obtain ⟨r', j', s'⟩ := g
  cases hclaim
  cases e
  rfl

theorem reportsBindings_index (hc : c ∈ claims kind (facts log)) :
    List.Forall₂ (ReportsBinding (index log)
        ⟨number (claims kind (facts log)) c, c.record, number (sources log) c.source⟩)
      (boundTo c (facts log))
      ((index log).identifiersOf kind (number (claims kind (facts log)) c)) := by
  rw [boundTo_eq_map, identifiersOf_index hc, List.forall₂_map_left_iff,
    List.forall₂_map_right_iff, List.forall₂_same]
  intro f hf
  have hf := List.mem_eraseDups.mp (List.mem_filter.mp hf).1
  obtain ⟨rfl, -⟩ := mem_claims.mp hc
  exact {
    identifier := find?_index_of_mem (identifier_mem_of_fact hf)
    kind := rfl
    record := rfl
    source := rfl }

theorem reportsClaims_index (log : List Call) (kind : RecordKind) (i : Identifier) :
    List.Forall₂ (ReportsClaim (index log) (facts log))
      ((claims kind (facts log)).filter (i ∈ boundTo · (facts log)))
      (((claims kind (facts log)).filter (i ∈ boundTo · (facts log))).map fun c =>
        ⟨number (claims kind (facts log)) c, c.record, number (sources log) c.source⟩) := by
  rw [List.forall₂_map_right_iff, List.forall₂_same]
  intro c hc
  have hc := (List.mem_filter.mp hc).1
  obtain ⟨rfl, -⟩ := mem_claims.mp hc
  exact {
    id := rfl
    record := rfl
    source := sourceName_index (source_mem_of_claim hc)
    identifiers := reportsBindings_index hc }

end Ledger

/-- After any calls an identifier is found as an entity of a kind if and only if a successful call
gave it to a record of this kind. The records found for it are then the distinct records that its
sources gave it, in the order in which these records first came under any identifier. -/
theorem records_refine_log (calls : List Call) (kind : RecordKind) (i : Identifier) :
    let x := Index.empty.after calls
    let facts := facts (Index.empty.accepted calls)
    match x.lookup kind i with
    | .error e =>
      e = .identifierNotFound kind i ∧ ¬ ∃ f ∈ facts, f.record.kind = kind ∧ f.identifier = i
    | .ok found =>
      (∃ f ∈ facts, f.record.kind = kind ∧ f.identifier = i) ∧
        x.find? i = some found ∧ found.identifier = i ∧
        ∃ rows typed, x.recordsOf kind found.id = .ok rows ∧ x.facts kind found.id = .ok typed ∧
          typed.map FactRow.untyped = rows ∧
          List.Forall₂ (ReportsClaim x facts)
            ((claims kind facts).filter (i ∈ boundTo · facts)) rows := by
  intro x facts
  have hx : x = index (Index.empty.accepted calls) := after_empty calls
  by_cases h : ∃ f ∈ facts, f.record.kind = kind ∧ f.identifier = i
  · have hi : i ∈ identifiers (Index.empty.accepted calls) := by
      obtain ⟨f, hf, -, rfl⟩ := h
      exact identifier_mem_of_fact hf
    have hrows := recordsOf_index (Index.empty.accepted calls) kind i
    obtain ⟨typed, htyped, huntyped⟩ := Index.exists_facts hrows
    rw [hx, lookup_index_of_fact h]
    exact ⟨h, find?_index_of_mem hi, rfl, _, typed, hrows, htyped, huntyped,
      reportsClaims_index _ kind i⟩
  · rw [hx, lookup_index_of_no_fact h]
    exact ⟨rfl, h⟩

end MusicIndex
