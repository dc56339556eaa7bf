import MusicIndex.Proofs.Call

namespace MusicIndex

namespace Table

/-- The link that is there already or a new one; a kind with shares takes over the new ones. -/
def putLink (carriesShares : Bool) (t : Table LinkClaim) (claim : LinkClaim) :
    Nat × Table LinkClaim :=
  match t.find? (Index.sameLink claim) with
  | none => (t.largestId + 1, t.insert claim)
  | some row =>
    (row.id,
      if carriesShares then t.modify row.id fun c => { c with shares := claim.shares } else t)

end Table

namespace Index

variable {x : Index}

def withRecord (x : Index) (r : Record) (i : Identifier) (name : String) :
    StoredIdentifier × Index :=
  let source := x.sources.ensure (· == name) name
  let claim : RecordClaim := ⟨r.values, source.1⟩
  let record := (x.records r.kind).ensure (· == claim) claim
  let identifier := x.identifiers.ensure (· == i) i
  let a : Assignment := ⟨identifier.1, r.kind, record.1, source.1⟩
  (⟨identifier.1, i⟩,
    { x.setRecords r.kind record.2 with
      sources := source.2
      identifiers := identifier.2
      assignments := (x.assignments.ensure (· == a) a).2 })

def withLink (x : Index) (l : Link Binary64) (name : String) : StoredLink × Index :=
  let source := x.sources.ensure (· == name) name
  let a := x.identifiers.ensure (· == l.a) l.a
  let b := a.2.ensure (· == l.b) l.b
  let claim : LinkClaim :=
    ⟨a.1, b.1, l.keyRole, ((keptShares l).getD .unknown).kept, source.1⟩
  let row := (x.links l.kind).putLink (l.kind.attributes = .roleAndShares) claim
  (⟨row.1, l.kind, ⟨a.1, l.a⟩, ⟨b.1, l.b⟩, reportedRole l.keyRole, keptShares l, source.1⟩,
    { x.setLinks l.kind row.2 with sources := source.2, identifiers := b.2 })

theorem ite_self_fun {ι β : Type} [DecidableEq ι] (f : ι → β) (i : ι) :
    (fun k => if k = i then f i else f k) = f := by
  funext k
  split
  · rename_i e
    rw [e]
  · rfl

theorem setRecords_self (x : Index) (kind : RecordKind) :
    x.setRecords kind (x.records kind) = x := by
  simp only [setRecords, ite_self_fun]

theorem setLinks_self (x : Index) (kind : LinkKind) : x.setLinks kind (x.links kind) = x := by
  simp only [setLinks, ite_self_fun]

section Steps

theorem IsOpen.withSources (hx : x.IsOpen) (t : Table String) : IsOpen { x with sources := t } :=
  ⟨hx.writable, hx.willing⟩

theorem IsOpen.withIdentifiers (hx : x.IsOpen) (t : Table Identifier) :
    IsOpen { x with identifiers := t } :=
  ⟨hx.writable, hx.willing⟩

theorem IsOpen.setRecords (hx : x.IsOpen) (kind : RecordKind) (t : Table RecordClaim) :
    IsOpen (x.setRecords kind t) :=
  ⟨hx.writable, hx.willing⟩

open Write

variable {α β : Type} {w : Write α} {f : α → Write β}

theorem run_bind_ok {a : α} {y : Index} (h : w.run x = .ok (a, y)) :
    (w >>= f).run x = (f a).run y := by
  rw [StateT.run_bind, h]
  rfl

theorem run_bind_error {e : Error} (h : w.run x = .error e) : (w >>= f).run x = .error e := by
  rw [StateT.run_bind, h]
  rfl

theorem run_map_ok {g : α → β} {a : α} {y : Index} (h : w.run x = .ok (a, y)) :
    (g <$> w).run x = .ok (g a, y) := by
  rw [StateT.run_map, h]
  rfl

theorem run_map_error {g : α → β} {e : Error} (h : w.run x = .error e) :
    (g <$> w).run x = .error e := by
  rw [StateT.run_map, h]
  rfl

theorem demand_ok {check : Except Invalid Unit} (h : check = .ok ()) :
    (demand check).run x = .ok ((), x) := by
  rw [h]
  rfl

theorem demand_error {check : Except Invalid Unit} {cause : Invalid} (h : check = .error cause) :
    (demand check).run x = .error (.invalid cause) := by
  rw [h]
  rfl

theorem requireWritable_run (hx : x.IsOpen) : requireWritable.run x = .ok ((), x) := by
  simp [requireWritable, hx.writable]
  rfl

theorem permit_run (hx : x.IsOpen) (table : TableName) : (permit table).run x = .ok ((), x) := by
  simp [permit, hx.willing]
  rfl

theorem ensureSource_run (hx : x.IsOpen) {name : String} (h : ¬ Text.Blank name) :
    (ensureSource name).run x =
      .ok ((x.sources.ensure (· == name) name).1,
        { x with sources := (x.sources.ensure (· == name) name).2 }) := by
  rw [ensureSource, run_bind_ok (requireWritable_run hx),
    run_bind_ok (demand_ok (checkSource_eq_ok_iff.mpr h)), run_bind_ok (permit_run hx _)]
  rfl

theorem ensureSource_refused (hx : x.IsOpen) {name : String} {cause : Invalid}
    (h : checkSource name = .error cause) :
    (ensureSource name).run x = .error (.invalid cause) := by
  rw [ensureSource, run_bind_ok (requireWritable_run hx), run_bind_error (demand_error h)]

theorem ensureIdentifier_run (hx : x.IsOpen) {i : Identifier} (h : ¬ i.Improper) :
    (ensureIdentifier i).run x =
      .ok (⟨(x.identifiers.ensure (· == i) i).1, i⟩,
        { x with identifiers := (x.identifiers.ensure (· == i) i).2 }) := by
  rw [ensureIdentifier, run_bind_ok (requireWritable_run hx),
    run_bind_ok (demand_ok (Identifier.check_eq_ok_iff.mpr h)), run_bind_ok (permit_run hx _)]
  rfl

theorem ensureIdentifier_refused (hx : x.IsOpen) {i : Identifier} {cause : Invalid}
    (h : i.check = .error cause) : (ensureIdentifier i).run x = .error (.invalid cause) := by
  rw [ensureIdentifier, run_bind_ok (requireWritable_run hx), run_bind_error (demand_error h)]

theorem ensureRecord_run (hx : x.IsOpen) (r : Record) (source : Nat) :
    (ensureRecord r source).run x =
      .ok (((x.records r.kind).ensure (· == ⟨r.values, source⟩) ⟨r.values, source⟩).1,
        x.setRecords r.kind
          ((x.records r.kind).ensure (· == ⟨r.values, source⟩) ⟨r.values, source⟩).2) := by
  rw [ensureRecord, run_bind_ok (permit_run hx _)]
  rfl

theorem ensureAssignment_run (hx : x.IsOpen) (a : Assignment) :
    (ensureAssignment a).run x =
      .ok ((), { x with assignments := (x.assignments.ensure (· == a) a).2 }) := by
  rw [ensureAssignment, run_bind_ok (permit_run hx _)]
  rfl

theorem ensureLink_run (hx : x.IsOpen) (kind : LinkKind) (claim : LinkClaim) :
    (ensureLink kind claim).run x =
      .ok (((x.links kind).putLink (kind.attributes = .roleAndShares) claim).1,
        x.setLinks kind ((x.links kind).putLink (kind.attributes = .roleAndShares) claim).2) := by
  rw [ensureLink, run_bind_ok (permit_run hx _)]
  simp only [Table.putLink]
  cases hfind : (x.links kind).find? (sameLink claim) with
  | none =>
    simp only [StateT.run_bind]
    simp [hfind]
    rfl
  | some row =>
    by_cases hk : kind.attributes = .roleAndShares
    · simp [hfind, hk]
      rfl
    · simp [hfind, hk, setLinks_self]
      rfl

end Steps

theorem createRecord_run (hx : x.IsOpen) {r : Record} {i : Identifier} {name : String}
    (hi : ¬ i.Improper) (hn : ¬ Text.Blank name) :
    (createRecord r i name).run x = .ok (x.withRecord r i name) := by
  rw [createRecord, run_bind_ok (demand_ok (Identifier.check_eq_ok_iff.mpr hi)),
    run_bind_ok (ensureSource_run hx hn), run_bind_ok (ensureRecord_run (hx.withSources _) _ _),
    run_bind_ok (ensureIdentifier_run ((hx.withSources _).setRecords _ _) hi),
    run_bind_ok (ensureAssignment_run (((hx.withSources _).setRecords _ _).withIdentifiers _) _)]
  rfl

theorem createRecord_refused (hx : x.IsOpen) {r : Record} {i : Identifier} {name : String}
    {cause : Invalid} (h : (do i.check; checkSource name) = .error cause) :
    (createRecord r i name).run x = .error (.invalid cause) := by
  rcases checks_eq_error h with hi | ⟨hi, hn⟩
  · rw [createRecord, run_bind_error (demand_error hi)]
  · rw [createRecord, run_bind_ok (demand_ok hi), run_bind_error (ensureSource_refused hx hn)]

theorem createLink_run (hx : x.IsOpen) {l : Link Double} {name : String} (hl : ¬ l.Improper)
    (hn : ¬ Text.Blank name) : (createLink l name).run x = .ok (x.withLink l.finite name) := by
  obtain ⟨ha, hb⟩ := Link.proper_ends (Link.proper_finite hl)
  rw [createLink, run_bind_ok (demand_ok (Link.check_eq_ok_iff.mpr hl)),
    run_bind_ok (ensureSource_run hx hn),
    run_bind_ok (ensureIdentifier_run (hx.withSources _) ha),
    run_bind_ok (ensureIdentifier_run ((hx.withSources _).withIdentifiers _) hb)]
  simp only
  rw [run_bind_ok (ensureLink_run ((hx.withSources _).withIdentifiers _) _ _)]
  rfl

theorem createLink_refused (hx : x.IsOpen) {l : Link Double} {name : String} {cause : Invalid}
    (h : (do l.check; checkSource name) = .error cause) :
    (createLink l name).run x = .error (.invalid cause) := by
  rcases checks_eq_error h with hl | ⟨hl, hn⟩
  · rw [createLink, run_bind_error (demand_error hl)]
  · rw [createLink, run_bind_ok (demand_ok hl), run_bind_error (ensureSource_refused hx hn)]

end Index

namespace Call

open Index

/-- What a call with proper arguments answers, and the index that it makes. -/
def keep (x : Index) : Call → Answer × Index
  | .createRecord r i name => (.identifier (x.withRecord r i name).1, (x.withRecord r i name).2)
  | .createLink l name => (.link (x.withLink l.finite name).1, (x.withLink l.finite name).2)
  | .createTypedLink l name =>
    (.link (x.withLink l.toLink.finite name).1, (x.withLink l.toLink.finite name).2)
  | .resolveSource name =>
    (.source (x.sources.ensure (· == name) name).1,
      { x with sources := (x.sources.ensure (· == name) name).2 })
  | .resolveIdentifier i =>
    (.identifier ⟨(x.identifiers.ensure (· == i) i).1, i⟩,
      { x with identifiers := (x.identifiers.ensure (· == i) i).2 })

theorem run_of_proper {x : Index} (hx : x.IsOpen) {c : Call} (h : ¬ c.Improper) :
    c.perform.run x = .ok (c.keep x) := by
  cases c with
  | createRecord r i name =>
    obtain ⟨hi, hn⟩ := not_or.mp h
    exact run_map_ok (createRecord_run hx hi hn)
  | createLink l name =>
    obtain ⟨hl, hn⟩ := not_or.mp h
    exact run_map_ok (createLink_run hx hl hn)
  | createTypedLink l name =>
    obtain ⟨hl, hn⟩ := not_or.mp h
    rw [perform, createTypedLink_eq]
    exact run_map_ok (createLink_run hx hl hn)
  | resolveSource name => exact run_map_ok (ensureSource_run hx h)
  | resolveIdentifier i => exact run_map_ok (ensureIdentifier_run hx h)

def check : Call → Except Invalid Unit
  | .createRecord _ i name => do i.check; checkSource name
  | .createLink l name => do l.check; checkSource name
  | .createTypedLink l name => do l.toLink.check; checkSource name
  | .resolveSource name => checkSource name
  | .resolveIdentifier i => i.check

theorem check_eq_ok_iff {c : Call} : c.check = .ok () ↔ ¬ c.Improper := by
  cases c with
  | createRecord r i name =>
    rw [check, checks_eq_ok_iff, Identifier.check_eq_ok_iff, checkSource_eq_ok_iff, Improper,
      not_or]
  | createLink l name =>
    rw [check, checks_eq_ok_iff, Link.check_eq_ok_iff, checkSource_eq_ok_iff, Improper, not_or]
  | createTypedLink l name =>
    rw [check, checks_eq_ok_iff, Link.check_eq_ok_iff, checkSource_eq_ok_iff, Improper, not_or]
  | resolveSource name => exact checkSource_eq_ok_iff
  | resolveIdentifier i => exact Identifier.check_eq_ok_iff

theorem exists_check_eq_error {c : Call} (h : c.Improper) : ∃ cause, c.check = .error cause := by
  cases hc : c.check with
  | error cause => exact ⟨cause, rfl⟩
  | ok u => exact absurd h (check_eq_ok_iff.mp hc)

theorem run_of_check_error {x : Index} (hx : x.IsOpen) {c : Call} {cause : Invalid}
    (h : c.check = .error cause) : c.perform.run x = .error (.invalid cause) := by
  cases c with
  | createRecord r i name => exact run_map_error (createRecord_refused hx h)
  | createLink l name => exact run_map_error (createLink_refused hx h)
  | createTypedLink l name =>
    rw [perform, createTypedLink_eq]
    exact run_map_error (createLink_refused hx h)
  | resolveSource name => exact run_map_error (ensureSource_refused hx h)
  | resolveIdentifier i => exact run_map_error (ensureIdentifier_refused hx h)

end Call

end MusicIndex
