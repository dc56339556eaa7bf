import MusicIndex.Proofs.Ledger

namespace MusicIndex

open Index

theorem Index.ext_tables {x y : Index} (sources : x.sources = y.sources)
    (identifiers : x.identifiers = y.identifiers) (assignments : x.assignments = y.assignments)
    (records : ∀ kind, x.records kind = y.records kind)
    (links : ∀ kind, x.links kind = y.links kind) (refused : x.refused = y.refused)
    (isReadOnly : x.isReadOnly = y.isReadOnly) : x = y := by
  obtain ⟨xs, xi, xa, xr, xl, xf, xo⟩ := x
  obtain ⟨ys, yi, ya, yr, yl, yf, yo⟩ := y
  obtain rfl : xr = yr := funext records
  obtain rfl : xl = yl := funext links
  cases sources
  cases identifiers
  cases assignments
  cases refused
  cases isReadOnly
  rfl

namespace Ledger

variable {log : List Call} {c : Call}

section Stability

theorem sources_snoc {name : String} (h : c.source? = some name) :
    sources (log ++ [c]) = addNew (sources log) name := by
  rw [sources, List.filterMap_append, List.filterMap_cons_some h, List.filterMap_nil,
    eraseDups_concat]
  rfl

theorem sources_snoc_of_none (h : c.source? = none) : sources (log ++ [c]) = sources log := by
  rw [sources, List.filterMap_append, List.filterMap_cons_none h, List.filterMap_nil,
    List.append_nil]
  rfl

theorem identifiers_snoc (log : List Call) (c : Call) :
    identifiers (log ++ [c]) = c.identifiers.foldl addNew (identifiers log) := by
  have hadd (l m : List Identifier) : (l ++ m).eraseDups = m.foldl addNew l.eraseDups := by
    induction m generalizing l with
    | nil => simp
    | cons i m ih =>
      rw [List.append_cons, ih, eraseDups_concat]
      rfl
  rw [identifiers, List.flatMap_append, List.flatMap_singleton, hadd]
  rfl

theorem facts_snoc {f : RecordFact} (h : c.record? = some f) :
    facts (log ++ [c]) = facts log ++ [f] := by
  rw [facts, List.filterMap_append, List.filterMap_cons_some h]
  rfl

theorem facts_snoc_of_none (h : c.record? = none) : facts (log ++ [c]) = facts log := by
  rw [facts, List.filterMap_append, List.filterMap_cons_none h, List.filterMap_nil,
    List.append_nil]
  rfl

theorem links_snoc {f : LinkFact} (h : c.link? = some f) :
    links (log ++ [c]) = links log ++ [f] := by
  rw [links, List.filterMap_append, List.filterMap_cons_some h]
  rfl

theorem links_snoc_of_none (h : c.link? = none) : links (log ++ [c]) = links log := by
  rw [links, List.filterMap_append, List.filterMap_cons_none h, List.filterMap_nil,
    List.append_nil]
  rfl

theorem claims_snoc (kind : RecordKind) (facts : List RecordFact) (f : RecordFact) :
    claims kind (facts ++ [f]) =
      if f.record.kind = kind then addNew (claims kind facts) f.claim else claims kind facts := by
  unfold claims
  rw [eraseDups_map_filter_concat]
  simp only [decide_eq_true_eq]

theorem keys_snoc (kind : LinkKind) (links : List LinkFact) (f : LinkFact) :
    keys kind (links ++ [f]) =
      if f.link.kind = kind then addNew (keys kind links) f.key else keys kind links := by
  unfold keys
  rw [eraseDups_map_filter_concat]
  simp only [decide_eq_true_eq]

theorem lastShares_snoc (kind : LinkKind) (key : LinkKey) (links : List LinkFact) (f : LinkFact) :
    lastShares kind key (links ++ [f]) =
      if f.link.kind = kind ∧ f.key = key then f.link.shares.getD .unknown
      else lastShares kind key links := by
  unfold lastShares
  rw [List.filter_append]
  split
  · rename_i h
    rw [List.filter_cons_of_pos (by simpa using h), List.filter_nil, List.getLast?_concat]
    rfl
  · rename_i h
    rw [List.filter_cons_of_neg (by simpa using h), List.filter_nil, List.append_nil]

theorem filter_key_eq_nil_iff {kind : LinkKind} {key : LinkKey} {links : List LinkFact} :
    (links.filter fun f => f.link.kind = kind ∧ f.key = key) = [] ↔ key ∉ keys kind links := by
  simp [List.filter_eq_nil_iff, mem_keys]

theorem lastShares_of_not_mem_keys {kind : LinkKind} {key : LinkKey} {links : List LinkFact}
    (h : key ∉ keys kind links) : lastShares kind key links = .unknown := by
  rw [lastShares, filter_key_eq_nil_iff.mpr h]
  rfl

theorem lastShares_append (kind : LinkKind) (key : LinkKey) (links more : List LinkFact) :
    lastShares kind key (links ++ more) =
      if key ∈ keys kind more then lastShares kind key more else lastShares kind key links := by
  unfold lastShares
  rw [List.filter_append, List.getLast?_append]
  split
  · rename_i h
    have hne : (more.filter fun f => f.link.kind = kind ∧ f.key = key) ≠ [] :=
      fun e => filter_key_eq_nil_iff.mp e h
    rw [List.getLast?_eq_some_getLast hne]
    rfl
  · rename_i h
    rw [filter_key_eq_nil_iff.mpr h]
    rfl

theorem number_sources_append {name : String} (h : name ∈ sources log) (more : List Call) :
    number (sources (log ++ more)) name = number (sources log) name := by
  unfold sources
  rw [List.filterMap_append]
  exact number_eraseDups_append (List.mem_eraseDups.mp h) _

theorem number_identifiers_append {i : Identifier} (h : i ∈ identifiers log) (more : List Call) :
    number (identifiers (log ++ more)) i = number (identifiers log) i := by
  unfold identifiers
  rw [List.flatMap_append]
  exact number_eraseDups_append (List.mem_eraseDups.mp h) _

theorem number_claims_append {kind : RecordKind} {claim : SourcedRecord}
    (h : claim ∈ claims kind (facts log)) (more : List Call) :
    number (claims kind (facts (log ++ more))) claim = number (claims kind (facts log)) claim := by
  unfold claims facts
  rw [List.filterMap_append, List.filter_append, List.map_append]
  exact number_eraseDups_append (List.mem_eraseDups.mp h) _

theorem recordRow_append {kind : RecordKind} {claim : SourcedRecord}
    (h : claim ∈ claims kind (facts log)) (more : List Call) :
    recordRow (log ++ more) claim = recordRow log claim := by
  rw [recordRow, number_sources_append (source_mem_of_claim h)]
  rfl

theorem assignmentRow_append {f : RecordFact} (h : f ∈ facts log) (more : List Call) :
    assignmentRow (log ++ more) f = assignmentRow log f := by
  rw [assignmentRow, number_identifiers_append (identifier_mem_of_fact h),
    number_claims_append (claim_mem_claims h), number_sources_append (source_mem_of_fact h)]
  rfl

theorem linkRow_append {kind : LinkKind} {key : LinkKey} (h : key ∈ keys kind (links log))
    (more : List Call) :
    linkRow (log ++ more) kind key =
      { linkRow log kind key with shares := rowShares (log ++ more) kind key } := by
  obtain ⟨hs, ha, hb⟩ := known_of_key h
  rw [linkRow, number_identifiers_append ha, number_identifiers_append hb,
    number_sources_append hs]
  rfl

end Stability

section Injectivity

theorem recordRow_inj {claim other : SourcedRecord} (hk : claim.record.kind = other.record.kind)
    (hs : claim.source ∈ sources log) :
    recordRow log claim = recordRow log other ↔ claim = other := by
  constructor
  · intro h
    obtain ⟨hv, hn⟩ := RecordClaim.mk.inj h
    obtain ⟨r, s⟩ := claim
    obtain rfl : r = other.record := Record.ext_values hk hv
    obtain rfl : s = other.source := (number_inj hs).mp hn
    rfl
  · rintro rfl
    rfl

theorem assignmentRow_inj {f g : RecordFact} (hf : f ∈ facts log) :
    assignmentRow log f = assignmentRow log g ↔ f = g := by
  constructor
  · intro h
    obtain ⟨hi, hk, hr, hs⟩ := Assignment.mk.inj h
    have hi := (number_inj (identifier_mem_of_fact hf)).mp hi
    rw [← hk] at hr
    have hc := (number_inj (claim_mem_claims hf)).mp hr
    obtain ⟨r, i, s⟩ := f
    obtain ⟨hr, hs⟩ := SourcedRecord.mk.inj hc
    cases hi
    cases hr
    cases hs
    rfl
  · rintro rfl
    rfl

theorem sameLink_iff {claim other : LinkClaim} : sameLink claim other = true ↔
    claim.a = other.a ∧ claim.b = other.b ∧ claim.role = other.role ∧
      claim.source = other.source := by
  simp [sameLink, and_assoc]

theorem sameLink_linkRow {kind : LinkKind} {key other : LinkKey} (ha : other.a ∈ identifiers log)
    (hb : other.b ∈ identifiers log) (hs : other.source ∈ sources log) :
    sameLink (linkRow log kind key) (linkRow log kind other) = true ↔ other = key := by
  rw [sameLink_iff]
  simp only [linkRow, eq_comm (a := number _ key.a), eq_comm (a := number _ key.b),
    eq_comm (a := number _ key.source), number_inj ha, number_inj hb, number_inj hs]
  constructor
  · rintro ⟨ha, hb, hr, hs⟩
    cases key
    cases other
    cases ha
    cases hb
    cases hr
    cases hs
    rfl
  · rintro rfl
    exact ⟨rfl, rfl, rfl, rfl⟩

end Injectivity

theorem ensure_keyed_id {α : Type} [DecidableEq α] {l : List α} (h : l.Nodup) (a : α) :
    (Table.keyed l id).ensure (· == a) a = (number (addNew l a) a, .keyed (addNew l a) id) :=
  Table.ensure_keyed h fun _ _ => beq_iff_eq

theorem ensure_source {name : String} (h : c.source? = some name) :
    (index log).sources.ensure (· == name) name =
      (number (sources (log ++ [c])) name, (index (log ++ [c])).sources) := by
  change (Table.keyed (sources log) id).ensure _ _ = (_, Table.keyed (sources (log ++ [c])) id)
  rw [ensure_keyed_id nodup_sources, sources_snoc h]

theorem source?_of_record? {f : RecordFact} (h : c.record? = some f) :
    c.source? = some f.source := by
  cases c <;> cases h
  rfl

theorem records_snoc_of_ne {kind : RecordKind}
    (h : ∀ f, c.record? = some f → f.record.kind ≠ kind) :
    (index (log ++ [c])).records kind = (index log).records kind := by
  have hsame : claims kind (facts (log ++ [c])) = claims kind (facts log) := by
    cases hc : c.record? with
    | none => rw [facts_snoc_of_none hc]
    | some f => rw [facts_snoc hc, claims_snoc, if_neg (h f hc)]
  change Table.keyed (claims kind (facts (log ++ [c]))) _ = Table.keyed (claims kind (facts log)) _
  rw [hsame]
  exact Table.keyed_congr fun claim hc => recordRow_append hc [c]

theorem ensure_record {f : RecordFact} (h : c.record? = some f) :
    ((index log).records f.record.kind).ensure (· == recordRow (log ++ [c]) f.claim)
        (recordRow (log ++ [c]) f.claim) =
      (number (claims f.record.kind (facts (log ++ [c]))) f.claim,
        (index (log ++ [c])).records f.record.kind) := by
  change (Table.keyed (claims f.record.kind (facts log)) (recordRow log)).ensure _ _ =
    (_, Table.keyed _ _)
  rw [Table.keyed_congr fun claim hc => (recordRow_append hc [c]).symm, facts_snoc h, claims_snoc,
    if_pos rfl]
  apply Table.ensure_keyed nodup_claims
  intro claim hc
  have hs : claim.source ∈ sources (log ++ [c]) := by
    rw [sources_snoc (source?_of_record? h)]
    exact mem_addNew.mpr (.inl (source_mem_of_claim hc))
  rw [beq_iff_eq, recordRow_inj (mem_claims.mp hc).1 hs]

theorem assignments_snoc_of_none (h : c.record? = none) :
    (index (log ++ [c])).assignments = (index log).assignments := by
  change Table.keyed (facts (log ++ [c])).eraseDups _ = Table.keyed (facts log).eraseDups _
  rw [facts_snoc_of_none h]
  exact Table.keyed_congr fun f hf => assignmentRow_append (List.mem_eraseDups.mp hf) [c]

theorem ensure_assignment {f : RecordFact} (h : c.record? = some f) :
    ((index log).assignments.ensure (· == assignmentRow (log ++ [c]) f)
      (assignmentRow (log ++ [c]) f)).2 = (index (log ++ [c])).assignments := by
  change ((Table.keyed (facts log).eraseDups (assignmentRow log)).ensure _ _).2 = Table.keyed _ _
  rw [Table.keyed_congr fun g hg => (assignmentRow_append (List.mem_eraseDups.mp hg) [c]).symm,
    facts_snoc h, eraseDups_concat, Table.ensure_keyed (nodup_eraseDups _)]
  intro g hg
  have hg : g ∈ facts (log ++ [c]) := by
    rw [facts_snoc h]
    exact List.mem_append_left _ (List.mem_eraseDups.mp hg)
  rw [beq_iff_eq, assignmentRow_inj hg]

theorem linkTable_snoc_of_ne {kind : LinkKind} (h : ∀ f, c.link? = some f → f.link.kind ≠ kind) :
    (index (log ++ [c])).links kind = (index log).links kind := by
  have hsame : keys kind (links (log ++ [c])) = keys kind (links log) ∧
      ∀ key, lastShares kind key (links (log ++ [c])) = lastShares kind key (links log) := by
    cases hc : c.link? with
    | none => simp [links_snoc_of_none hc]
    | some f => simp [links_snoc hc, keys_snoc, lastShares_snoc, h f hc]
  change Table.keyed (keys kind (links (log ++ [c]))) _ = Table.keyed (keys kind (links log)) _
  rw [hsame.1]
  apply Table.keyed_congr
  intro key hk
  rw [linkRow_append hk, rowShares, hsame.2]
  rfl

theorem withRecord_index (log : List Call) (r : Record) (i : Identifier) (name : String) :
    (index log).withRecord r i name =
      (⟨number (identifiers (log ++ [.createRecord r i name])) i, i⟩,
        index (log ++ [.createRecord r i name])) := by
  obtain ⟨c, hc⟩ : ∃ c, c = Call.createRecord r i name := ⟨_, rfl⟩
  have hr : c.record? = some ⟨r, i, name⟩ := by rw [hc]; rfl
  have hl : c.link? = none := by rw [hc]; rfl
  have hi : identifiers (log ++ [c]) = addNew (identifiers log) i := by
    rw [identifiers_snoc, hc]
    rfl
  have hsource := @ensure_source log c _ (source?_of_record? hr)
  have hidentifier : (index log).identifiers.ensure (· == i) i =
      (number (identifiers (log ++ [c])) i, (index (log ++ [c])).identifiers) := by
    change (Table.keyed (identifiers log) id).ensure _ _ = (_, Table.keyed (identifiers _) id)
    rw [ensure_keyed_id nodup_identifiers, hi]
  have hrecord := @ensure_record log c _ hr
  have hassignment := @ensure_assignment log c _ hr
  simp only [recordRow, assignmentRow, RecordFact.claim] at hsource hrecord hassignment
  rw [← hc]
  simp only [withRecord, Record.values] at hsource hrecord hassignment ⊢
  simp only [hsource, hidentifier, hrecord, hassignment]
  congr 1
  apply ext_tables
  case records =>
    intro kind
    by_cases hk : kind = r.kind
    · subst hk
      simp
    · have hkeep : (index (log ++ [c])).records kind = (index log).records kind := by
        apply records_snoc_of_ne
        rw [hr]
        rintro f ⟨⟩
        exact Ne.symm hk
      rw [hkeep]
      exact records_setRecords_of_ne hk
  case links =>
    intro kind
    rw [linkTable_snoc_of_ne]
    · rfl
    · rw [hl]
      rintro f ⟨⟩
  all_goals rfl

theorem linkRow_snoc {f : LinkFact} (h : c.link? = some f) {key : LinkKey}
    (hk : key ∈ keys f.link.kind (links log))
    (hold : key ≠ f.key ∨ f.link.kind.attributes ≠ .roleAndShares) :
    linkRow (log ++ [c]) f.link.kind key = linkRow log f.link.kind key := by
  have hshares : rowShares (log ++ [c]) f.link.kind key = rowShares log f.link.kind key := by
    unfold rowShares
    split
    · rename_i ha
      have hne : f.key ≠ key := (hold.resolve_right fun h => h ha).symm
      rw [links_snoc h, lastShares_snoc, if_neg fun he => hne he.2]
    · rfl
  rw [linkRow_append hk, hshares]
  rfl

theorem sameLink_linkRow_snoc {f : LinkFact} (h : c.link? = some f) {key : LinkKey}
    (hk : key ∈ keys f.link.kind (links log)) :
    sameLink (linkRow (log ++ [c]) f.link.kind f.key) (linkRow log f.link.kind key) = true ↔
      key = f.key := by
  have hmem : key ∈ keys f.link.kind (links (log ++ [c])) := by
    rw [links_snoc h, keys_snoc, if_pos rfl]
    exact mem_addNew.mpr (.inl hk)
  obtain ⟨hs, ha, hb⟩ := known_of_key hmem
  rw [← sameLink_linkRow ha hb hs, linkRow_append hk]
  rfl

/-- A link is found or added, and the shares of its row are those of the longer log. -/
theorem putLink_index {f : LinkFact} (h : c.link? = some f) :
    ((index log).links f.link.kind).putLink (f.link.kind.attributes = .roleAndShares)
        (linkRow (log ++ [c]) f.link.kind f.key) =
      (number (keys f.link.kind (links (log ++ [c]))) f.key,
        (index (log ++ [c])).links f.link.kind) := by
  change (Table.keyed (keys f.link.kind (links log)) (linkRow log f.link.kind)).putLink _ _ =
    (_, Table.keyed (keys f.link.kind (links (log ++ [c]))) _)
  rw [links_snoc h, keys_snoc, if_pos rfl]
  by_cases hk : f.key ∈ keys f.link.kind (links log)
  · rw [addNew_of_mem hk, Table.putLink,
      Table.find?_keyed fun key hkey => sameLink_linkRow_snoc h hkey, if_pos hk]
    by_cases ha : f.link.kind.attributes = .roleAndShares
    · simp only [ha, decide_true, if_true, Table.modify_keyed]
      congr 1
      apply Table.keyed_congr
      intro key hkey
      split
      · rename_i e
        subst e
        exact (linkRow_append hkey [c]).symm
      · rename_i e
        exact (linkRow_snoc h hkey (.inl e)).symm
    · simp only [ha, decide_false, Bool.false_eq_true, if_false]
      congr 1
      apply Table.keyed_congr
      intro key hkey
      exact (linkRow_snoc h hkey (.inr ha)).symm
  · have hold : Table.keyed (keys f.link.kind (links log)) (linkRow log f.link.kind) =
        Table.keyed (keys f.link.kind (links log)) (linkRow (log ++ [c]) f.link.kind) := by
      apply Table.keyed_congr
      intro key hkey
      exact (linkRow_snoc h hkey (.inl fun e => hk (e ▸ hkey))).symm
    rw [Table.putLink, Table.find?_keyed fun key hkey => sameLink_linkRow_snoc h hkey, if_neg hk,
      Table.largestId_of_numbered (Table.numbered_keyed nodup_keys), Table.size_keyed,
      number_addNew_self_of_not_mem hk, addNew_of_not_mem hk, hold,
      Table.insert_keyed nodup_keys hk]

theorem source?_of_link? {f : LinkFact} (h : c.link? = some f) :
    c.source? = some f.source ∧ c.record? = none ∧ c.identifiers = [f.link.a, f.link.b] := by
  cases c <;> cases h <;> exact ⟨rfl, rfl, rfl⟩

theorem proper_of_link? {f : LinkFact} (h : c.link? = some f) (hp : ¬ c.Improper) :
    ¬ f.link.Improper := by
  cases c <;> cases h <;> exact Link.proper_finite (not_or.mp hp).1

theorem key_role_of_proper {f : LinkFact} (hp : ¬ f.link.Improper) :
    f.key.role = f.link.keyRole := by
  unfold LinkFact.key
  split
  · rename_i ha
    exact (Link.keyRole_of_proper hp ha).symm
  · rfl

theorem lastShares_of_link? {f : LinkFact} (h : c.link? = some f) :
    lastShares f.link.kind f.key (links (log ++ [c])) = f.link.shares.getD .unknown := by
  rw [links_snoc h, lastShares_snoc, if_pos ⟨rfl, rfl⟩]

theorem linkRow_of_proper {f : LinkFact} (h : c.link? = some f) (hp : ¬ f.link.Improper) :
    linkRow (log ++ [c]) f.link.kind f.key =
      ⟨number (identifiers (log ++ [c])) f.link.a, number (identifiers (log ++ [c])) f.link.b,
        f.link.keyRole, ((Index.keptShares f.link).getD .unknown).kept,
        number (sources (log ++ [c])) f.source⟩ := by
  have hshares : rowShares (log ++ [c]) f.link.kind f.key =
      ((Index.keptShares f.link).getD .unknown).kept := by
    unfold rowShares Index.keptShares
    rw [lastShares_of_link? h]
    cases f.link.kind.attributes <;> rfl
  rw [linkRow, key_role_of_proper hp, hshares]
  rfl

def storedLink (log : List Call) (f : LinkFact) : StoredLink :=
  ⟨number (keys f.link.kind (links log)) f.key, f.link.kind,
    ⟨number (identifiers log) f.link.a, f.link.a⟩, ⟨number (identifiers log) f.link.b, f.link.b⟩,
    reportedRole f.link.keyRole, Index.keptShares f.link, number (sources log) f.source⟩

theorem withLink_index {f : LinkFact} (h : c.link? = some f) (hp : ¬ f.link.Improper) :
    (index log).withLink f.link f.source =
      (storedLink (log ++ [c]) f, index (log ++ [c])) := by
  obtain ⟨hs, hr, hi⟩ := source?_of_link? h
  have hids : identifiers (log ++ [c]) =
      addNew (addNew (identifiers log) f.link.a) f.link.b := by
    rw [identifiers_snoc, hi]
    rfl
  have hsource := @ensure_source log c _ hs
  have ha : (index log).identifiers.ensure (· == f.link.a) f.link.a =
      (number (identifiers (log ++ [c])) f.link.a,
        .keyed (addNew (identifiers log) f.link.a) id) := by
    change (Table.keyed (identifiers log) id).ensure _ _ = _
    rw [ensure_keyed_id nodup_identifiers, hids, number_addNew (mem_addNew_self _ _)]
  have hb : (Table.keyed (addNew (identifiers log) f.link.a) id).ensure (· == f.link.b) f.link.b =
      (number (identifiers (log ++ [c])) f.link.b, (index (log ++ [c])).identifiers) := by
    change _ = (_, Table.keyed (identifiers (log ++ [c])) id)
    rw [ensure_keyed_id (nodup_addNew nodup_identifiers _), hids]
  have hrow := @putLink_index log c _ h
  rw [linkRow_of_proper h hp] at hrow
  simp only [withLink, hsource, ha, hb, hrow]
  congr 1
  apply ext_tables
  case assignments => exact (assignments_snoc_of_none hr).symm
  case records =>
    intro kind
    have hkeep : (index (log ++ [c])).records kind = (index log).records kind := by
      apply records_snoc_of_ne
      rw [hr]
      rintro g ⟨⟩
    rw [hkeep]
    rfl
  case links =>
    intro kind
    by_cases hk : kind = f.link.kind
    · subst hk
      simp
    · have hkeep : (index (log ++ [c])).links kind = (index log).links kind := by
        apply linkTable_snoc_of_ne
        rw [h]
        rintro g ⟨⟩
        exact Ne.symm hk
      rw [hkeep]
      exact links_setLinks_of_ne hk
  all_goals rfl

end Ledger

end MusicIndex
