import MusicIndex.Index.Read
import MusicIndex.Proofs.LedgerStep

namespace MusicIndex

open Index

theorem Fact.ofValues?_values {kind : RecordKind} (f : Fact kind) :
    Fact.ofValues? kind f.values = some f := by
  unfold Fact.ofValues?
  rw [dif_pos f.complete.ge]
  congr
  rw [← f.complete, List.take_length]

theorem Record.ofValues?_values (r : Record) : Record.ofValues? r.kind r.values = some r := by
  unfold Record.ofValues? Record.values
  rw [Fact.ofValues?_values]
  rfl

theorem mapM_eq_ok_map {α β ε : Type} {f : α → Except ε β} {g : α → β} {l : List α}
    (h : ∀ a ∈ l, f a = .ok (g a)) : l.mapM f = .ok (l.map g) := by
  induction l with
  | nil => rfl
  | cons a l ih =>
    obtain ⟨ha, hl⟩ := List.forall_mem_cons.mp h
    rw [List.mapM_cons, ha, ih hl]
    rfl

def FactRow.untyped {kind : RecordKind} (row : FactRow kind) : RecordRow :=
  ⟨row.id, ⟨kind, row.fact⟩, row.source⟩

theorem mapM_eq_map_mapM {α β γ ε : Type} {f : α → Except ε β} {g : α → Except ε γ} {h : β → γ}
    {l : List α} (e : ∀ a ∈ l, g a = (f a).map h) : l.mapM g = (l.mapM f).map (List.map h) := by
  induction l with
  | nil => rfl
  | cons a l ih =>
    obtain ⟨ha, hl⟩ := List.forall_mem_cons.mp e
    rw [List.mapM_cons, List.mapM_cons, ha, ih hl]
    cases f a with
    | error e => rfl
    | ok b =>
      cases l.mapM f with
      | error e => rfl
      | ok bs => rfl

theorem Index.recordsOf_eq_facts (x : Index) (kind : RecordKind) (id : Nat) :
    x.recordsOf kind id = (x.facts kind id).map (·.map FactRow.untyped) := by
  unfold recordsOf facts
  apply mapM_eq_map_mapM
  intro row _
  unfold Record.ofValues?
  cases Fact.ofValues? kind row.content.values with
  | none => rfl
  | some fact => rfl

theorem Index.exists_facts {x : Index} {kind : RecordKind} {id : Nat} {rows : List RecordRow}
    (h : x.recordsOf kind id = .ok rows) :
    ∃ typed, x.facts kind id = .ok typed ∧ typed.map FactRow.untyped = rows := by
  rw [recordsOf_eq_facts] at h
  cases ht : x.facts kind id with
  | error e => rw [ht] at h; cases h
  | ok typed =>
    rw [ht] at h
    exact ⟨typed, rfl, Except.ok.inj h⟩

namespace Ledger

variable {log : List Call}

theorem find?_index (log : List Call) (i : Identifier) :
    (index log).find? i =
      if i ∈ identifiers log then some ⟨number (identifiers log) i, i⟩ else none := by
  change ((Table.keyed (identifiers log) id).find? _).map _ = _
  rw [Table.find?_keyed fun _ _ => beq_iff_eq]
  split <;> rfl

theorem find?_index_of_mem {i : Identifier} (h : i ∈ identifiers log) :
    (index log).find? i = some ⟨number (identifiers log) i, i⟩ := by
  rw [find?_index, if_pos h]

theorem identifier?_index {i : Identifier} (h : i ∈ identifiers log) :
    (index log).identifier? (number (identifiers log) i) =
      some ⟨number (identifiers log) i, i⟩ := by
  change ((Table.keyed (identifiers log) id).get? _).map _ = _
  rw [Table.get?_keyed h]
  rfl

theorem sourceName_index {name : String} (h : name ∈ sources log) :
    (index log).sourceName (number (sources log) name) = .ok name := by
  have hget : (index log).sources.get? (number (sources log) name) = some name :=
    Table.get?_keyed h
  simp only [sourceName, source, hget]
  rfl

theorem mem_assignments_index {a : Assignment} :
    a ∈ (index log).assignments.contents ↔ ∃ f ∈ facts log, assignmentRow log f = a := by
  change a ∈ (Table.keyed _ _).contents ↔ _
  rw [Table.contents_keyed, List.mem_map]
  simp only [List.mem_eraseDups]

theorem mem_records_index {kind : RecordKind} {c : RecordClaim} :
    c ∈ ((index log).records kind).contents ↔
      ∃ claim ∈ claims kind (facts log), recordRow log claim = c := by
  change c ∈ (Table.keyed (claims kind (facts log)) (recordRow log)).contents ↔ _
  rw [Table.contents_keyed, List.mem_map]

theorem mem_links_index {kind : LinkKind} {c : LinkClaim} :
    c ∈ ((index log).links kind).contents ↔
      ∃ key ∈ keys kind (links log), linkRow log kind key = c := by
  change c ∈ (Table.keyed (keys kind (links log)) (linkRow log kind)).contents ↔ _
  rw [Table.contents_keyed, List.mem_map]

theorem standsFor_index {kind : RecordKind} {i : Identifier} :
    (index log).standsFor kind (number (identifiers log) i) = true ↔
      ∃ f ∈ facts log, f.record.kind = kind ∧ f.identifier = i := by
  simp only [standsFor, List.any_eq_true, mem_assignments_index, Bool.and_eq_true, beq_iff_eq]
  constructor
  · rintro ⟨_, ⟨f, hf, rfl⟩, hi, hk⟩
    exact ⟨f, hf, hk, (number_inj (identifier_mem_of_fact hf)).mp hi⟩
  · rintro ⟨f, hf, hk, rfl⟩
    exact ⟨_, ⟨f, hf, rfl⟩, rfl, hk⟩

theorem mem_recordIds_index {kind : RecordKind} {i : Identifier} {c : SourcedRecord}
    (hc : c ∈ claims kind (facts log)) :
    number (claims kind (facts log)) c ∈
        (index log).recordIds kind (number (identifiers log) i) ↔
      i ∈ boundTo c (facts log) := by
  simp only [mem_recordIds, mem_assignments_index]
  constructor
  · rintro ⟨_, ⟨f, hf, rfl⟩, hi, rfl, hr⟩
    obtain rfl := (number_inj (identifier_mem_of_fact hf)).mp hi
    obtain rfl := (number_inj (claim_mem_claims hf)).mp hr
    exact mem_boundTo.mpr hf
  · intro hi
    have hf := mem_boundTo.mp hi
    obtain ⟨rfl, -⟩ := mem_claims.mp hc
    exact ⟨_, ⟨_, hf, rfl⟩, rfl, rfl, rfl⟩

theorem recordClaims_index (log : List Call) (kind : RecordKind) (i : Identifier) :
    (index log).recordClaims kind (number (identifiers log) i) =
      ((claims kind (facts log)).filter (i ∈ boundTo · (facts log))).map fun c =>
        ⟨number (claims kind (facts log)) c, recordRow log c⟩ := by
  change List.filter _ (Table.keyed (claims kind (facts log)) (recordRow log)).rows = _
  rw [Table.keyed, List.filter_map]
  congr 1
  apply List.filter_congr
  intro c hc
  simp only [Function.comp_apply, mem_recordIds_index hc]

theorem recordsOf_index (log : List Call) (kind : RecordKind) (i : Identifier) :
    (index log).recordsOf kind (number (identifiers log) i) =
      .ok (((claims kind (facts log)).filter (i ∈ boundTo · (facts log))).map fun c =>
        ⟨number (claims kind (facts log)) c, c.record, number (sources log) c.source⟩) := by
  unfold recordsOf
  rw [recordClaims_index, List.mapM_map]
  apply mapM_eq_ok_map
  intro c hc
  obtain ⟨rfl, -⟩ := mem_claims.mp (List.mem_filter.mp hc).1
  simp only [Function.comp_apply, recordRow, Record.ofValues?_values]

theorem identifiersOf_index {kind : RecordKind} {c : SourcedRecord}
    (hc : c ∈ claims kind (facts log)) :
    (index log).identifiersOf kind (number (claims kind (facts log)) c) =
      ((facts log).eraseDups.filter (·.claim = c)).map fun f =>
        ⟨number (facts log).eraseDups f,
          ⟨number (identifiers log) f.identifier, f.identifier⟩, kind,
          number (claims kind (facts log)) c, number (sources log) c.source⟩ := by
  change List.filterMap _ (Table.keyed (facts log).eraseDups (assignmentRow log)).rows = _
  rw [Table.keyed, List.filterMap_map, ← List.filterMap_eq_filter, List.map_filterMap]
  apply List.filterMap_congr
  intro f hf
  have hf := List.mem_eraseDups.mp hf
  obtain ⟨rfl, -⟩ := mem_claims.mp hc
  simp only [Function.comp_apply, assignmentRow, Option.guard, decide_eq_true_eq]
  by_cases hfc : f.claim = c
  · subst hfc
    rw [identifier?_index (identifier_mem_of_fact hf), if_pos rfl, if_pos ⟨rfl, rfl⟩]
    rfl
  · have hrow : ¬ (f.record.kind = c.record.kind ∧
        number (claims f.record.kind (facts log)) f.claim =
          number (claims c.record.kind (facts log)) c) := by
      rintro ⟨hk, hr⟩
      rw [← hk] at hr
      exact hfc ((number_inj (claim_mem_claims hf)).mp hr)
    rw [if_neg hrow, if_neg hfc]
    rfl

def listedLink (log : List Call) (kind : LinkKind) (key : LinkKey) : StoredLink :=
  ⟨number (keys kind (links log)) key, kind, ⟨number (identifiers log) key.a, key.a⟩,
    ⟨number (identifiers log) key.b, key.b⟩, reportedRole key.role,
    if kind.attributes = .roleAndShares then some (lastShares kind key (links log)).kept else none,
    number (sources log) key.source⟩

theorem storedLink?_index {kind : LinkKind} {key : LinkKey} (hk : key ∈ keys kind (links log)) :
    (index log).storedLink? kind ⟨number (keys kind (links log)) key, linkRow log kind key⟩ =
      some (listedLink log kind key) := by
  obtain ⟨-, ha, hb⟩ := known_of_key hk
  have hrole : (if kind.attributes = .none then none else reportedRole key.role) =
      reportedRole key.role := by
    split
    · rename_i hnone
      rw [role_of_mem_keys hk hnone]
      rfl
    · rfl
  simp only [storedLink?, linkRow, identifier?_index ha, identifier?_index hb, hrole, rowShares,
    listedLink]
  split <;> rfl

theorem linksOf_index (log : List Call) (kind : LinkKind) (direction : Direction) (i : Identifier) :
    (index log).linksOf kind direction (number (identifiers log) i) =
      ((keys kind (links log)).filter (·.near direction = i)).map (listedLink log kind) := by
  change List.filterMap _ (Table.keyed (keys kind (links log)) (linkRow log kind)).rows = _
  rw [Table.keyed, List.filterMap_map, ← List.filterMap_eq_filter, List.map_filterMap]
  apply List.filterMap_congr
  intro key hk
  obtain ⟨-, ha, hb⟩ := known_of_key hk
  have hnear : nearEnd (linkRow log kind key) direction = number (identifiers log) i ↔
      key.near direction = i := by
    cases direction with
    | forward => exact number_inj ha
    | reverse => exact number_inj hb
  simp only [Function.comp_apply, Option.guard, decide_eq_true_eq, hnear, storedLink?_index hk]
  split <;> rfl

end Ledger

end MusicIndex
