import MusicIndex.Proofs.Content
import MusicIndex.Proofs.FeedRun

namespace MusicIndex

open Ledger

namespace Table

variable {α : Type} {t u : Table α} {most : Nat}

/-- The rows stand in another table as they are, with at most so many more after them. -/
def Appends (t : Table α) (most : Nat) (u : Table α) : Prop :=
  ∃ new, u.rows = t.rows ++ new ∧ new.length ≤ most

theorem Appends.mono {more : Nat} (h : t.Appends most u) (hm : most ≤ more) : t.Appends more u := by
  obtain ⟨new, hrows, hnew⟩ := h
  exact ⟨new, hrows, hnew.trans hm⟩

theorem Appends.get? (h : t.Appends most u) {id : Nat} {a : α} (ha : t.get? id = some a) :
    u.get? id = some a := by
  obtain ⟨new, hrows, -⟩ := h
  obtain ⟨row, hrow, rfl⟩ := Option.map_eq_some_iff.mp ha
  rw [Table.get?, hrows, List.find?_append, hrow]
  rfl

variable {κ : Type} [DecidableEq κ]

theorem appends_keyed {l m : List κ} {content other : κ → α}
    (h : ∀ key ∈ l.eraseDups, content key = other key) :
    (keyed l.eraseDups content).Appends (m.removeAll l).length
      (keyed (l ++ m).eraseDups other) := by
  refine ⟨(m.removeAll l).eraseDups.map fun key => ⟨number (l ++ m).eraseDups key, other key⟩,
    ?_, ?_⟩
  · change List.map _ (l ++ m).eraseDups = List.map _ l.eraseDups ++ _
    rw [List.eraseDups_append, List.map_append, List.append_cancel_right_eq]
    apply List.map_congr_left
    intro key hk
    rw [number_append hk, h key hk]
  · rw [List.length_map]
    have hsub : (m.removeAll l).eraseDups ⊆ m.removeAll l := fun _ h => List.mem_eraseDups.mp h
    exact (List.subperm_of_subset (nodup_eraseDups _) hsub).length_le

end Table

namespace Ledger

def sharesGiven (given : List LinkFact) (kind : LinkKind) (key : LinkKey) :
    Option (Shares Binary64) :=
  if (kind = .composerWork ∨ kind = .publisherWork) ∧ key ∈ keys kind given then
    some (lastShares kind key given).kept
  else none

end Ledger

namespace Index

variable {x y z : Index} {most : TableName → Nat} {given : List LinkFact}

/-- A row of links with the shares that its key is given, or with its own. -/
def reshared (x : Index) (given : List LinkFact) (kind : LinkKind) (c : LinkClaim) : LinkClaim :=
  { c with shares := ((x.linkKey? c).bind (sharesGiven given kind)).getD c.shares }

def resharedLinks (x : Index) (given : List LinkFact) (kind : LinkKind) : Table LinkClaim :=
  ⟨(x.links kind).rows.map fun row => ⟨row.id, x.reshared given kind row.content⟩⟩

/-- At most so many rows are appended to each table, and links get the shares that are given. -/
structure Grows (x : Index) (most : TableName → Nat) (given : List LinkFact) (y : Index) :
    Prop where
  sources : x.sources.Appends (most .source) y.sources
  identifiers : x.identifiers.Appends (most .identifier) y.identifiers
  assignments : x.assignments.Appends (most .assignment) y.assignments
  records : ∀ kind, (x.records kind).Appends (most (.record kind)) (y.records kind)
  links : ∀ kind, (x.resharedLinks given kind).Appends (most (.link kind)) (y.links kind)

def bindingAt? (x : Index) (id : Nat) : Option Binding := do
  x.binding? (← x.assignments.get? id)

def linkKeyAt? (x : Index) (kind : LinkKind) (id : Nat) : Option LinkKey := do
  x.linkKey? (← (x.links kind).get? id)

/-- Whatever a number stands for in one index, it stands for in the other. -/
structure Keeps (x y : Index) : Prop where
  source : ∀ {id name}, x.sources.get? id = some name → y.sources.get? id = some name
  identifier : ∀ {id i}, x.identifiers.get? id = some i → y.identifiers.get? id = some i
  record : ∀ {kind id r}, x.recordAt? kind id = some r → y.recordAt? kind id = some r
  binding : ∀ {id b}, x.bindingAt? id = some b → y.bindingAt? id = some b
  link : ∀ {kind id key}, x.linkKeyAt? kind id = some key → y.linkKeyAt? kind id = some key

theorem Keeps.refl (x : Index) : x.Keeps x :=
  ⟨id, id, id, id, id⟩

theorem Keeps.trans (h : x.Keeps y) (h' : y.Keeps z) : x.Keeps z where
  source hs := h'.source (h.source hs)
  identifier hi := h'.identifier (h.identifier hi)
  record hr := h'.record (h.record hr)
  binding hb := h'.binding (h.binding hb)
  link hl := h'.link (h.link hl)

section Grows

variable (h : x.Grows most given y)

include h

theorem Grows.mono {more : TableName → Nat} (hm : ∀ table, most table ≤ more table) :
    x.Grows more given y where
  sources := h.sources.mono (hm _)
  identifiers := h.identifiers.mono (hm _)
  assignments := h.assignments.mono (hm _)
  records kind := (h.records kind).mono (hm _)
  links kind := (h.links kind).mono (hm _)

theorem Grows.sourcedRecord? {kind : RecordKind} {c : RecordClaim} {r : SourcedRecord}
    (hr : x.sourcedRecord? kind c = some r) : y.sourcedRecord? kind c = some r := by
  simp only [Index.sourcedRecord?, Option.bind_eq_bind, Option.bind_eq_some_iff] at hr ⊢
  obtain ⟨record, hrecord, source, hsource, hr⟩ := hr
  exact ⟨record, hrecord, source, h.sources.get? hsource, hr⟩

theorem Grows.recordAt? {kind : RecordKind} {id : Nat} {r : SourcedRecord}
    (hr : x.recordAt? kind id = some r) : y.recordAt? kind id = some r := by
  obtain ⟨c, hc, hr⟩ := Option.bind_eq_some_iff.mp hr
  exact Option.bind_eq_some_iff.mpr ⟨c, (h.records kind).get? hc, h.sourcedRecord? hr⟩

theorem Grows.binding? {a : Assignment} {b : Binding} (hb : x.binding? a = some b) :
    y.binding? a = some b := by
  simp only [Index.binding?, Option.bind_eq_bind, Option.bind_eq_some_iff] at hb ⊢
  obtain ⟨record, hrecord, i, hi, source, hsource, hb⟩ := hb
  exact ⟨record, h.recordAt? hrecord, i, h.identifiers.get? hi, source, h.sources.get? hsource, hb⟩

theorem Grows.linkKey? {c : LinkClaim} {key : LinkKey} (hk : x.linkKey? c = some key) :
    y.linkKey? c = some key := by
  simp only [Index.linkKey?, Option.bind_eq_bind, Option.bind_eq_some_iff] at hk ⊢
  obtain ⟨a, ha, b, hb, source, hsource, hk⟩ := hk
  exact ⟨a, h.identifiers.get? ha, b, h.identifiers.get? hb, source, h.sources.get? hsource, hk⟩

theorem Grows.linkKeyAt? {kind : LinkKind} {id : Nat} {key : LinkKey}
    (hk : x.linkKeyAt? kind id = some key) : y.linkKeyAt? kind id = some key := by
  obtain ⟨c, hc, hk⟩ := Option.bind_eq_some_iff.mp hk
  -- the row has the same number and the same key, whatever shares it gets
  have hreshared : (x.resharedLinks given kind).get? id = some (x.reshared given kind c) := by
    obtain ⟨row, hrow, rfl⟩ := Option.map_eq_some_iff.mp hc
    rw [Table.get?, resharedLinks, List.find?_map]
    simp only [Function.comp_def, hrow]
    rfl
  exact Option.bind_eq_some_iff.mpr
    ⟨x.reshared given kind c, (h.links kind).get? hreshared, h.linkKey? (c := c) hk⟩

theorem Grows.keeps : x.Keeps y where
  source := h.sources.get?
  identifier := h.identifiers.get?
  record := h.recordAt?
  binding hb := by
    obtain ⟨a, ha, hb⟩ := Option.bind_eq_some_iff.mp hb
    exact Option.bind_eq_some_iff.mpr ⟨a, h.assignments.get? ha, h.binding? hb⟩
  link := h.linkKeyAt?

end Grows

end Index

namespace Ledger

def newRows (log more : List Call) : TableName → Nat
  | .source => ((more.filterMap Call.source?).removeAll (log.filterMap Call.source?)).length
  | .identifier =>
    ((more.flatMap Call.identifiers).removeAll (log.flatMap Call.identifiers)).length
  | .assignment => ((facts more).removeAll (facts log)).length
  | .record kind =>
    ((((facts more).filter (·.record.kind = kind)).map (·.claim)).removeAll
      (((facts log).filter (·.record.kind = kind)).map (·.claim))).length
  | .link kind =>
    ((((links more).filter (·.link.kind = kind)).map (·.key)).removeAll
      (((links log).filter (·.link.kind = kind)).map (·.key))).length

theorem facts_append (log more : List Call) : facts (log ++ more) = facts log ++ facts more :=
  List.filterMap_append

theorem links_append (log more : List Call) : links (log ++ more) = links log ++ links more :=
  List.filterMap_append

theorem rowShares_append (log more : List Call) (kind : LinkKind) (key : LinkKey) :
    rowShares (log ++ more) kind key =
      (sharesGiven (links more) kind key).getD (rowShares log kind key) := by
  simp only [rowShares, sharesGiven, ← LinkKind.attributes_eq_roleAndShares_iff, links_append,
    lastShares_append]
  by_cases hk : kind.attributes = .roleAndShares <;> by_cases hkey : key ∈ keys kind (links more)
  · simp only [hk, hkey, if_true, and_self, Option.getD_some]
  · simp only [hk, hkey, if_true, if_false, and_false, Option.getD_none]
  · simp only [hk, if_false, false_and, Option.getD_none]
  · simp only [hk, if_false, false_and, Option.getD_none]

theorem resharedLinks_index (log : List Call) (given : List LinkFact) (kind : LinkKind) :
    (index log).resharedLinks given kind =
      .keyed (keys kind (links log)) fun key =>
        { linkRow log kind key with
          shares := (sharesGiven given kind key).getD (rowShares log kind key) } := by
  change Table.mk (List.map _ (Table.keyed (keys kind (links log)) (linkRow log kind)).rows) = _
  rw [Table.keyed, Table.keyed, List.map_map]
  congr 1
  apply List.map_congr_left
  intro key hk
  simp only [Function.comp_apply, Index.reshared, linkKey?_linkRow hk, Option.bind_some]
  rfl

theorem grows_append (log more : List Call) :
    (index log).Grows (newRows log more) (links more) (index (log ++ more)) where
  sources := by
    change (Table.keyed (log.filterMap _).eraseDups id).Appends _
      (.keyed ((log ++ more).filterMap _).eraseDups id)
    rw [List.filterMap_append]
    exact Table.appends_keyed fun _ _ => rfl
  identifiers := by
    change (Table.keyed (log.flatMap _).eraseDups id).Appends _
      (.keyed ((log ++ more).flatMap _).eraseDups id)
    rw [List.flatMap_append]
    exact Table.appends_keyed fun _ _ => rfl
  assignments := by
    change (Table.keyed (facts log).eraseDups _).Appends _
      (.keyed (facts (log ++ more)).eraseDups _)
    rw [facts_append]
    apply Table.appends_keyed
    intro f hf
    exact (assignmentRow_append (List.mem_eraseDups.mp hf) more).symm
  records kind := by
    change (Table.keyed (claims kind (facts log)) _).Appends _
      (.keyed (claims kind (facts (log ++ more))) _)
    unfold claims
    rw [facts_append, List.filter_append, List.map_append]
    apply Table.appends_keyed
    intro c hc
    exact (recordRow_append hc more).symm
  links kind := by
    rw [resharedLinks_index]
    change Table.Appends _ _ (.keyed (keys kind (links (log ++ more))) _)
    unfold keys
    rw [links_append, List.filter_append, List.map_append]
    apply Table.appends_keyed
    intro key hk
    -- the shares are the one column that a later call can change
    rw [linkRow_append hk, rowShares_append]

end Ledger

end MusicIndex
