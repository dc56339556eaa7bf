import MusicIndex.Proofs.Integrity
import MusicIndex.View.Resolve

namespace MusicIndex

open Ledger

theorem mapM_eq_ok_filterMap {α β ε : Type} {f : α → Except ε β} {g : α → Option β} {l : List α}
    (h : ∀ a ∈ l, ∃ b, g a = some b ∧ f a = .ok b) : l.mapM f = .ok (l.filterMap g) := by
  induction l with
  | nil => rfl
  | cons a l ih =>
    obtain ⟨⟨b, hg, hf⟩, hl⟩ := List.forall_mem_cons.mp h
    rw [List.mapM_cons, hf, ih hl, List.filterMap_cons_some hg]
    rfl

theorem foldlM_eq_ok_foldl {α β ε : Type} {f : β → α → Except ε β} {g : β → α → β} {l : List α}
    (h : ∀ a ∈ l, ∀ b, f b a = .ok (g b a)) (b : β) : l.foldlM f b = .ok (l.foldl g b) := by
  induction l generalizing b with
  | nil => rfl
  | cons a l ih =>
    obtain ⟨ha, hl⟩ := List.forall_mem_cons.mp h
    rw [List.foldlM_cons, ha b]
    exact ih hl (g b a)

def LinkClaim.near (kind : LinkKind) (c : LinkClaim) (direction : Direction) : Entity :=
  ⟨kind.nearKind direction, Index.nearEnd c direction⟩

def StoredLink.near (l : StoredLink) (direction : Direction) : Entity :=
  ⟨l.kind.nearKind direction, (l.far direction.opposite).id⟩

namespace Index

/-- Rows are numbered and complete, and what they refer to is there. -/
structure Sound (x : Index) : Prop where
  numbered : x.Numbered
  referenced : x.Referenced
  complete : ∀ kind, ∀ row ∈ (x.records kind).rows,
    row.content.values.length = kind.columns.length

/-- A record of its kind is known of an entity. -/
def Live (x : Index) (e : Entity) : Prop :=
  x.recordClaims e.kind e.id ≠ []

/-- A link that some row is reported as. -/
def HasLink (x : Index) (l : StoredLink) : Prop :=
  ∃ row ∈ (x.links l.kind).rows, x.storedLink? l.kind row = some l

def recordRows (x : Index) (kind : RecordKind) (id : Nat) : List RecordRow :=
  (x.recordClaims kind id).filterMap fun row =>
    (Record.ofValues? kind row.content.values).map fun r => ⟨row.id, r, row.content.source⟩

def nameOf (x : Index) (id : Nat) : String :=
  (x.sources.get? id).getD ""

variable {x : Index} {kind : RecordKind} {id : Nat} {i : Identifier}

section Rows

theorem sourceName_eq_ok (h : (x.sources.get? id).isSome) :
    x.sourceName id = .ok (x.nameOf id) := by
  obtain ⟨name, hname⟩ := Option.isSome_iff_exists.mp h
  have hsource : x.source id = .ok ⟨id, name⟩ := by
    simp only [source, hname]
  rw [sourceName, hsource, nameOf, hname]
  rfl

theorem identifier?_id {s : StoredIdentifier} (h : x.identifier? id = some s) : s.id = id := by
  obtain ⟨i, -, rfl⟩ := Option.map_eq_some_iff.mp h
  rfl

theorem mem_recordClaims {row : Row RecordClaim} : row ∈ x.recordClaims kind id ↔
    row ∈ (x.records kind).rows ∧
      ∃ a ∈ x.assignments.contents, a.identifier = id ∧ a.kind = kind ∧ a.record = row.id := by
  simp only [recordClaims, List.mem_filter, decide_eq_true_eq, mem_recordIds]

theorem mem_recordRows {row : RecordRow} (h : row ∈ x.recordRows kind id) :
    row.record.kind = kind ∧
      ∃ claim ∈ x.recordClaims kind id, claim.content.source = row.source := by
  obtain ⟨claim, hclaim, hrow⟩ := List.mem_filterMap.mp h
  obtain ⟨r, hr, rfl⟩ := Option.map_eq_some_iff.mp hrow
  obtain ⟨f, -, rfl⟩ := Option.map_eq_some_iff.mp hr
  exact ⟨rfl, claim, hclaim, rfl⟩

theorem storedLink?_kind {kind : LinkKind} {row : Row LinkClaim} {l : StoredLink}
    (h : x.storedLink? kind row = some l) :
    l.kind = kind ∧ l.id = row.id ∧ l.source = row.content.source := by
  obtain ⟨a, -, h⟩ := Option.bind_eq_some_iff.mp h
  obtain ⟨b, -, h⟩ := Option.bind_eq_some_iff.mp h
  cases h
  exact ⟨rfl, rfl, rfl⟩

theorem storedLink?_ends {kind : LinkKind} {row : Row LinkClaim} {l : StoredLink}
    (h : x.storedLink? kind row = some l) (direction : Direction) :
    x.identifier? (nearEnd row.content direction) = some (l.far direction.opposite) := by
  obtain ⟨a, ha, h⟩ := Option.bind_eq_some_iff.mp h
  obtain ⟨b, hb, h⟩ := Option.bind_eq_some_iff.mp h
  cases h
  cases direction with
  | forward => exact ha
  | reverse => exact hb

theorem storedLink?_near {kind : LinkKind} {row : Row LinkClaim} {l : StoredLink}
    (h : x.storedLink? kind row = some l) (direction : Direction) :
    l.near direction = row.content.near kind direction := by
  obtain ⟨rfl, -, -⟩ := storedLink?_kind h
  have hid := identifier?_id (storedLink?_ends h direction)
  rw [StoredLink.near, LinkClaim.near, hid]

theorem HasLink.identifier?_far {l : StoredLink} (h : x.HasLink l) (direction : Direction) :
    x.identifier? (l.far direction).id = some (l.far direction) := by
  obtain ⟨row, -, he⟩ := h
  have hend (d : Direction) : x.identifier? (l.far d.opposite).id = some (l.far d.opposite) := by
    rw [identifier?_id (storedLink?_ends he d)]
    exact storedLink?_ends he d
  cases direction with
  | forward => exact hend .reverse
  | reverse => exact hend .forward

theorem mem_linksOf {kind : LinkKind} {direction : Direction} {l : StoredLink} :
    l ∈ x.linksOf kind direction id ↔
      l.kind = kind ∧ x.HasLink l ∧ (l.far direction.opposite).id = id := by
  rw [linksOf, List.mem_filterMap]
  constructor
  · rintro ⟨row, hrow, h⟩
    split at h
    · rename_i hnear
      obtain ⟨rfl, -, -⟩ := storedLink?_kind h
      have hid := identifier?_id (storedLink?_ends h direction)
      exact ⟨rfl, ⟨row, hrow, h⟩, hid.trans hnear⟩
    · cases h
  · rintro ⟨rfl, ⟨row, hrow, h⟩, hid⟩
    have hnear := identifier?_id (storedLink?_ends h direction)
    exact ⟨row, hrow, by rw [if_pos (hnear.symm.trans hid), h]⟩

end Rows

namespace Sound

variable (h : x.Sound)

include h

theorem exists_record {row : Row RecordClaim} (hrow : row ∈ x.recordClaims kind id) :
    ∃ r, Record.ofValues? kind row.content.values = some r := by
  have hlength := h.complete kind row (mem_recordClaims.mp hrow).1
  have hfact : Fact.ofValues? kind row.content.values = some ⟨_, _⟩ := dif_pos hlength.ge
  exact ⟨_, Option.map_eq_some_iff.mpr ⟨_, hfact, rfl⟩⟩

theorem recordsOf_eq (kind : RecordKind) (id : Nat) :
    x.recordsOf kind id = .ok (x.recordRows kind id) := by
  apply mapM_eq_ok_filterMap
  intro row hrow
  obtain ⟨r, hr⟩ := h.exists_record hrow
  simp only [hr]
  exact ⟨_, rfl, rfl⟩

theorem recordRows_eq_nil_iff : x.recordRows kind id = [] ↔ ¬ x.Live ⟨kind, id⟩ := by
  rw [Live, not_not, recordRows, List.filterMap_eq_nil_iff]
  constructor
  · intro hnone
    apply List.eq_nil_iff_forall_not_mem.mpr
    intro row hrow
    obtain ⟨r, hr⟩ := h.exists_record hrow
    have hn := hnone row hrow
    rw [hr] at hn
    cases hn
  · intro hnil row hrow
    rw [hnil] at hrow
    cases hrow

theorem sourceName_of_record {row : RecordRow} (hrow : row ∈ x.recordRows kind id) :
    x.sourceName row.source = .ok (x.nameOf row.source) := by
  obtain ⟨-, claim, hclaim, hsource⟩ := mem_recordRows hrow
  obtain ⟨hmem, -⟩ := mem_recordClaims.mp hclaim
  have hknown := h.referenced.recordSource kind _ (List.mem_map_of_mem hmem)
  rw [← hsource]
  exact sourceName_eq_ok hknown

theorem sourceName_of_binding {record : Nat} {a : StoredAssignment}
    (ha : a ∈ x.identifiersOf kind record) :
    x.sourceName a.source = .ok (x.nameOf a.source) := by
  obtain ⟨row, hrow, he⟩ := List.mem_filterMap.mp ha
  obtain ⟨-, hknown, -⟩ := h.referenced.assignment _ (List.mem_map_of_mem hrow)
  simp only at he
  split at he
  · obtain ⟨s, -, rfl⟩ := Option.map_eq_some_iff.mp he
    exact sourceName_eq_ok hknown
  · cases he

theorem sourceName_of_link {l : StoredLink} (hl : x.HasLink l) :
    x.sourceName l.source = .ok (x.nameOf l.source) := by
  obtain ⟨row, hrow, he⟩ := hl
  obtain ⟨-, -, hsource⟩ := storedLink?_kind he
  obtain ⟨-, -, hknown⟩ := h.referenced.link _ _ (List.mem_map_of_mem hrow)
  rw [hsource]
  exact sourceName_eq_ok hknown

theorem exists_link {kind : LinkKind} {row : Row LinkClaim} (hrow : row ∈ (x.links kind).rows) :
    ∃ l, x.storedLink? kind row = some l := by
  obtain ⟨ha, hb, -⟩ := h.referenced.link kind _ (List.mem_map_of_mem hrow)
  obtain ⟨a, ha⟩ := Option.isSome_iff_exists.mp ha
  obtain ⟨b, hb⟩ := Option.isSome_iff_exists.mp hb
  simp only [storedLink?, identifier?, ha, hb]
  exact ⟨_, rfl⟩

theorem link_eq {l m : StoredLink} (hl : x.HasLink l) (hm : x.HasLink m) (hkind : l.kind = m.kind)
    (hid : l.id = m.id) : l = m := by
  obtain ⟨row, hrow, hel⟩ := hl
  obtain ⟨other, hother, hem⟩ := hm
  rw [← hkind] at hother hem
  obtain ⟨-, hrowid, -⟩ := storedLink?_kind hel
  obtain ⟨-, hotherid, -⟩ := storedLink?_kind hem
  obtain rfl := (h.numbered.links l.kind).eq_of_id hrow hother
    (hrowid.symm.trans (hid.trans hotherid))
  exact Option.some.inj (hel.symm.trans hem)

theorem live_iff : x.Live ⟨kind, id⟩ ↔ x.standsFor kind id = true := by
  simp only [standsFor, List.any_eq_true, Bool.and_eq_true, beq_iff_eq]
  constructor
  · intro hlive
    obtain ⟨row, hrow⟩ := List.exists_mem_of_ne_nil _ hlive
    obtain ⟨-, a, ha, hid, hkind, -⟩ := mem_recordClaims.mp hrow
    exact ⟨a, ha, hid, hkind⟩
  · rintro ⟨a, ha, rfl, rfl⟩
    obtain ⟨-, -, c, hc, -⟩ := h.referenced.assignment a ha
    obtain ⟨row, hrow, hid, -⟩ := Table.exists_row_of_get? hc
    exact List.ne_nil_of_mem (mem_recordClaims.mpr ⟨hrow, a, ha, rfl, rfl, hid.symm⟩)

theorem identifier?_of_find? {s : StoredIdentifier} (hs : x.find? i = some s) :
    x.identifier? s.id = some s := by
  obtain ⟨row, hrow, rfl⟩ := Option.map_eq_some_iff.mp hs
  have hget := h.numbered.identifiers.get?_of_mem (List.mem_of_find?_eq_some hrow)
  rw [identifier?, hget]
  rfl

theorem lookup_eq_ok_iff {s : StoredIdentifier} :
    x.lookup kind i = .ok s ↔ x.find? i = some s ∧ x.Live ⟨kind, s.id⟩ := by
  unfold lookup
  cases hfind : x.find? i with
  | none => simp
  | some found =>
    by_cases hlive : x.standsFor kind found.id = true
    · simp only [hlive, if_true, Except.ok.injEq, Option.some.injEq]
      constructor
      · rintro rfl
        exact ⟨rfl, h.live_iff.mpr hlive⟩
      · exact fun hs => hs.1
    · simp only [hlive, Option.some.injEq]
      constructor
      · intro he
        cases he
      · rintro ⟨rfl, hs⟩
        exact absurd (h.live_iff.mp hs) hlive

end Sound

theorem lookup_error {e : Error} (h : x.lookup kind i = .error e) :
    e = .identifierNotFound kind i := by
  unfold lookup at h
  split at h
  · split at h
    · cases h
    · cases h
      rfl
  · cases h
    rfl

end Index

namespace Ledger

theorem sound_index (log : List Call) : (index log).Sound where
  numbered := numbered_index log
  referenced := referenced_index log
  complete kind row hrow := by
    obtain ⟨c, hc, rfl⟩ := Table.mem_rows_keyed.mp hrow
    obtain ⟨rfl, -⟩ := mem_claims.mp hc
    exact c.record.length_values

end Ledger

theorem Index.Reachable.sound {x : Index} (h : x.Reachable) : x.Sound := by
  obtain ⟨log, -, rfl⟩ := h.exists_log
  exact sound_index log

theorem exists_ok_of_toOption_map {ε α β : Type} {x : Except ε α} {f : α → β} {b : β}
    (h : (x.map f).toOption = some b) : ∃ a, x = .ok a ∧ f a = b := by
  cases x with
  | error e => cases h
  | ok a => exact ⟨a, rfl, Option.some.inj h⟩

/-- A song, its recording and its release in a ring of links, and a performer without records. -/
def Index.smallRing : Index :=
  let song : Identifier := .iswc "1"
  let recording : Identifier := .isrc "2"
  let release : Identifier := .upc "3"
  let performer : Identifier := .isni "4"
  Index.empty.after [
    .createRecord ⟨.song, ⟨["Air", "3:00"], rfl⟩⟩ song "radio",
    .createRecord ⟨.recording, ⟨["Air", "3:01"], rfl⟩⟩ recording "radio",
    .createRecord ⟨.release, ⟨["album", "Airs", "1999"], rfl⟩⟩ release "press",
    .createLink ⟨.songRecording, song, recording, none, none⟩ "radio",
    .createLink ⟨.releaseRecording, release, recording, none, none⟩ "press",
    .createLink ⟨.releaseSong, release, song, none, none⟩ "press",
    .createLink ⟨.performerRelease, performer, release, some "soloist", none⟩ "press"]

theorem Index.reachable_smallRing : smallRing.Reachable :=
  Reachable.empty.after _

namespace Resolver

variable {r : Resolver} {kind : RecordKind} {id : Nat}

theorem mem_links {l : StoredLink} {direction : Direction} :
    (l, direction) ∈ r.links kind id ↔ r.index.HasLink l ∧ l.near direction = ⟨kind, id⟩ := by
  simp only [links, List.mem_flatMap, List.mem_map, Prod.exists, Prod.mk.injEq,
    Index.mem_linksOf, StoredLink.near, Entity.mk.injEq]
  constructor
  · rintro ⟨k, d, hk, l', ⟨rfl, hl, hid⟩, rfl, rfl⟩
    exact ⟨hl, LinkKind.mem_touching.mp hk, hid⟩
  · rintro ⟨hl, hk, hid⟩
    exact ⟨l.kind, direction, LinkKind.mem_touching.mpr hk, l, ⟨rfl, hl, hid⟩, rfl, rfl⟩

end Resolver

end MusicIndex
