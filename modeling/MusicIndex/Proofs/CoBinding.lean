import MusicIndex.Proofs.FanOut

namespace MusicIndex

theorem flatMap_ite_singleton {α β : Type} (test : α → Bool) (f : α → β) (l : List α) :
    (l.flatMap fun a => if test a then [f a] else []) = (l.filter test).map f := by
  induction l with
  | nil => rfl
  | cons a l ih =>
    rw [List.flatMap_cons, ih, List.filter_cons]
    split <;> rfl

namespace Index

/-- The records of a kind that two identifiers both stand for, in order of number. -/
def sharedRows (x : Index) (kind : RecordKind) (i j : Nat) : List (Row RecordClaim) :=
  (x.records kind).rows.filter fun row => row.id ∈ x.recordIds kind i ∧ row.id ∈ x.recordIds kind j

/-- The sources of these records, each once, in the order of its first record. -/
def sharedSources (x : Index) (kind : RecordKind) (i j : Nat) : List String :=
  ((x.sharedRows kind i j).map fun row => x.nameOf row.content.source).eraseDups

/-- The identifiers of the records that an identifier stands for, record by record, each with the
source that lets it stand for the record. -/
def bindings (x : Index) (kind : RecordKind) (id : Nat) : List (StoredIdentifier × String) :=
  (x.recordClaims kind id).flatMap fun row =>
    (x.identifiersOf kind row.id).map fun a => (a.identifier, x.nameOf a.source)

end Index

/-- The aliases of a view are the identifiers that share a record with its own, each once and with
the sources of the records shared. -/
structure EntityView.ListsAliases (x : Index) (v : EntityView) : Prop where
  distinct : (v.aliases.map (·.identifier.id)).Nodup
  listed : ∀ j, j ∈ v.aliases.map (·.identifier) ↔
    x.identifier? j.id = some j ∧ x.sharedRows v.kind v.identifier.id j.id ≠ []
  sources : ∀ entry ∈ v.aliases,
    entry.sources = x.sharedSources v.kind v.identifier.id entry.identifier.id

namespace Resolver

/-- Aliases as they are gathered from identifiers and sources. -/
def gathered (bindings : List (StoredIdentifier × String)) : List Alias :=
  (bindings.map (·.1)).eraseDups.map fun i =>
    ⟨i, ((bindings.filter (·.1 = i)).map (·.2)).eraseDups⟩

section Gathering

variable {i : StoredIdentifier} {source : String} {ids : List StoredIdentifier}
  {sources : StoredIdentifier → List String}

theorem addAlias_map (hids : ids.Nodup) (hsame : ∀ k ∈ ids, k.id = i.id → k = i)
    (hnew : i ∉ ids → sources i = []) :
    addAlias i source (ids.map fun k => ⟨k, sources k⟩) =
      (addNew ids i).map fun k => ⟨k, if i = k then addNew (sources k) source else sources k⟩ := by
  induction ids with
  | nil =>
    rw [addNew_of_not_mem List.not_mem_nil, List.nil_append, List.map_singleton, if_pos rfl,
      hnew List.not_mem_nil]
    rfl
  | cons k ids ih =>
    obtain ⟨hk, hids⟩ := List.nodup_cons.mp hids
    obtain ⟨hhead, hsame⟩ := List.forall_mem_cons.mp hsame
    rw [List.map_cons, addAlias]
    by_cases hid : k.id = i.id
    · obtain rfl := hhead hid
      have hrest : ids.map (fun j => Alias.mk j (if k = j then addNew (sources j) source
          else sources j)) = ids.map fun j => ⟨j, sources j⟩ := by
        apply List.map_congr_left
        intro j hj
        have hne : k ≠ j := by
          rintro rfl
          exact hk hj
        rw [if_neg hne]
      rw [if_pos rfl, addNew_of_mem List.mem_cons_self, List.map_cons, hrest, if_pos rfl, addNew]
      split <;> rfl
    · have hne : i ≠ k := fun heq => hid (congrArg _ heq.symm)
      have hcons : addNew (k :: ids) i = k :: addNew ids i := by
        unfold addNew
        simp only [List.mem_cons, hne, false_or]
        split <;> rfl
      rw [if_neg hid, hcons, List.map_cons, if_neg hne,
        ih hids hsame fun hi => hnew (mt List.mem_cons.mp (not_or.mpr ⟨hne, hi⟩))]

theorem foldl_addAlias {bindings : List (StoredIdentifier × String)}
    (hsame : ∀ b ∈ bindings, ∀ c ∈ bindings, b.1.id = c.1.id → b.1 = c.1) :
    bindings.foldl (fun known b => addAlias b.1 b.2 known) [] = gathered bindings := by
  induction bindings using List.reverseRecOn with
  | nil => rfl
  | append_singleton bindings b ih =>
    have hmem := List.mem_append_right bindings (List.mem_singleton_self b)
    have hold : ∀ c ∈ bindings, ∀ d ∈ bindings, c.1.id = d.1.id → c.1 = d.1 := fun c hc d hd =>
      hsame c (List.mem_append_left _ hc) d (List.mem_append_left _ hd)
    rw [List.foldl_append, ih hold, List.foldl_cons, List.foldl_nil, gathered, addAlias_map]
    · rw [gathered, List.map_append, List.map_singleton, eraseDups_concat]
      simp only [eraseDups_map_filter_concat, decide_eq_true_eq]
    · exact nodup_eraseDups _
    · intro k hk hid
      obtain ⟨c, hc, rfl⟩ := List.mem_map.mp (List.mem_eraseDups.mp hk)
      exact hsame c (List.mem_append_left _ hc) b hmem hid
    · intro hb
      have hnone : bindings.filter (·.1 = b.1) = [] := by
        apply List.filter_eq_nil_iff.mpr
        intro c hc hcb
        exact hb (List.mem_eraseDups.mpr (List.mem_map.mpr ⟨c, hc, of_decide_eq_true hcb⟩))
      rw [hnone]
      rfl

end Gathering

end Resolver

namespace Index

variable {x : Index} {kind : RecordKind} {id record : Nat} {i j : StoredIdentifier}

theorem sharedRows_comm (x : Index) (kind : RecordKind) (i j : Nat) :
    x.sharedRows kind i j = x.sharedRows kind j i := by
  apply List.filter_congr
  intro row _
  simp only [and_comm]

theorem sharedSources_comm (x : Index) (kind : RecordKind) (i j : Nat) :
    x.sharedSources kind i j = x.sharedSources kind j i := by
  rw [sharedSources, sharedRows_comm, sharedSources]

theorem sharedRows_self (x : Index) (kind : RecordKind) (id : Nat) :
    x.sharedRows kind id id = x.recordClaims kind id := by
  apply List.filter_congr
  intro row _
  simp only [and_self]

theorem sharedRows_eq_filter (x : Index) (kind : RecordKind) (i j : Nat) :
    x.sharedRows kind i j = (x.recordClaims kind i).filter (·.id ∈ x.recordIds kind j) := by
  rw [recordClaims, List.filter_filter]
  apply List.filter_congr
  intro row _
  simp only [Bool.decide_and, Bool.and_comm]

theorem content_of_assigned {row : Row Assignment} {a : StoredAssignment}
    (ha : a ∈ if row.content.kind = kind ∧ row.content.record = record then
        (x.identifier? row.content.identifier).map fun i =>
          StoredAssignment.mk row.id i kind record row.content.source
      else none) :
    row.content = ⟨a.identifier.id, kind, record, a.source⟩ ∧
      x.identifier? a.identifier.id = some a.identifier := by
  split at ha
  · rename_i hassigned
    obtain ⟨i, hi, rfl⟩ := Option.map_eq_some_iff.mp ha
    obtain ⟨rfl, rfl⟩ := hassigned
    have hid := identifier?_id hi
    rw [← hid] at hi
    exact ⟨by rw [hid], hi⟩
  · cases ha

theorem content_mem_of_identifiersOf {a : StoredAssignment}
    (ha : a ∈ x.identifiersOf kind record) :
    ⟨a.identifier.id, kind, record, a.source⟩ ∈ x.assignments.contents := by
  obtain ⟨row, hrow, he⟩ := List.mem_filterMap.mp ha
  rw [← (content_of_assigned he).1]
  exact List.mem_map_of_mem hrow

theorem mem_map_identifiersOf : i ∈ (x.identifiersOf kind record).map (·.identifier) ↔
    x.identifier? i.id = some i ∧ record ∈ x.recordIds kind i.id := by
  rw [mem_recordIds]
  constructor
  · intro hi
    obtain ⟨a, ha, rfl⟩ := List.mem_map.mp hi
    obtain ⟨row, -, he⟩ := List.mem_filterMap.mp ha
    exact ⟨(content_of_assigned he).2, _, content_mem_of_identifiersOf ha, rfl, rfl, rfl⟩
  · rintro ⟨hi, a, ha, hid, hkind, hrecord⟩
    obtain ⟨row, hrow, rfl⟩ := List.mem_map.mp ha
    refine List.mem_map.mpr ⟨⟨row.id, i, kind, record, row.content.source⟩,
      List.mem_filterMap.mpr ⟨row, hrow, ?_⟩, rfl⟩
    rw [if_pos ⟨hkind, hrecord⟩, hid, hi]
    rfl

theorem Reachable.distinct (h : x.Reachable) : x.Distinct := by
  obtain ⟨log, -, rfl⟩ := h.exists_log
  exact Ledger.distinct_index log

theorem Distinct.find?_identifier (h : x.Distinct) (hi : x.identifier? i.id = some i) :
    x.find? i.identifier = some i := by
  obtain ⟨id, identifier⟩ := i
  obtain ⟨content, hget, hcontent⟩ := Option.map_eq_some_iff.mp hi
  obtain rfl : content = identifier := congrArg (·.identifier) hcontent
  obtain ⟨row, hrow, rfl, rfl⟩ := Table.exists_row_of_get? hget
  have hunique : ∀ other ∈ x.identifiers.rows,
      (other.content == row.content) = true ↔ other = row := by
    intro other hother
    rw [beq_iff_eq]
    constructor
    · exact List.inj_on_of_nodup_map h.identifiers hother hrow
    · rintro rfl
      rfl
  have hfind := find?_of_unique hunique
  rw [if_pos hrow] at hfind
  rw [Index.find?, Table.find?, hfind]
  rfl

section Record

variable (h : x.Sound) {row : Row RecordClaim} (hrow : row ∈ (x.records kind).rows)

include h hrow

theorem Sound.source_of_identifiersOf {a : StoredAssignment}
    (ha : a ∈ x.identifiersOf kind row.id) : a.source = row.content.source := by
  obtain ⟨-, -, c, hc, hsource⟩ := h.referenced.assignment _ (content_mem_of_identifiersOf ha)
  rw [(h.numbered.records kind).get?_of_mem hrow] at hc
  obtain rfl := Option.some.inj hc
  exact hsource.symm

theorem Sound.nodup_identifiersOf (hdistinct : x.Distinct) :
    ((x.identifiersOf kind row.id).map (·.identifier)).Nodup := by
  have hrows : x.assignments.rows.Pairwise fun a b => a.content ≠ b.content :=
    List.pairwise_map.mp hdistinct.assignments
  rw [List.Nodup, List.pairwise_map, identifiersOf, List.pairwise_filterMap]
  apply hrows.imp_of_mem
  intro a b ha hb hne s hs t ht hsame
  have hsource := h.source_of_identifiersOf hrow (List.mem_filterMap.mpr ⟨a, ha, hs⟩)
  have hother := h.source_of_identifiersOf hrow (List.mem_filterMap.mpr ⟨b, hb, ht⟩)
  apply hne
  rw [(content_of_assigned hs).1, (content_of_assigned ht).1, hsame, hsource, hother]

theorem Sound.names_of_identifiersOf (hdistinct : x.Distinct)
    (hj : x.identifier? j.id = some j) :
    ((x.identifiersOf kind row.id).filter (·.identifier = j)).map (x.nameOf ·.source) =
      if row.id ∈ x.recordIds kind j.id then [x.nameOf row.content.source] else [] := by
  have hname : ∀ a ∈ (x.identifiersOf kind row.id).filter (·.identifier = j),
      x.nameOf a.source = x.nameOf row.content.source := by
    intro a ha
    rw [h.source_of_identifiersOf hrow (List.mem_of_mem_filter ha)]
  have honce : ((x.identifiersOf kind row.id).filter (·.identifier = j)).map (·.identifier) =
      if row.id ∈ x.recordIds kind j.id then [j] else [] := by
    have hunique : ((x.identifiersOf kind row.id).map (·.identifier)).filter (· = j) = _ :=
      filter_of_unique (h.nodup_identifiersOf hrow hdistinct) fun i _ => decide_eq_true_iff
    rw [List.filter_map] at hunique
    simp only [mem_map_identifiersOf, hj, true_and] at hunique
    exact hunique
  calc ((x.identifiersOf kind row.id).filter (·.identifier = j)).map (x.nameOf ·.source)
      = (((x.identifiersOf kind row.id).filter (·.identifier = j)).map (·.identifier)).map
          fun _ => x.nameOf row.content.source := by
        rw [List.map_map]
        exact List.map_congr_left hname
    _ = if row.id ∈ x.recordIds kind j.id then [x.nameOf row.content.source] else [] := by
        rw [honce]
        split <;> rfl

end Record

section Bindings

theorem map_fst_bindings (x : Index) (kind : RecordKind) (id : Nat) :
    (x.bindings kind id).map (·.1) = (x.recordClaims kind id).flatMap fun row =>
      (x.identifiersOf kind row.id).map (·.identifier) := by
  simp only [bindings, List.map_flatMap, List.map_map]
  rfl

theorem mem_map_bindings : j ∈ (x.bindings kind id).map (·.1) ↔
    x.identifier? j.id = some j ∧ x.sharedRows kind id j.id ≠ [] := by
  rw [map_fst_bindings, List.mem_flatMap, sharedRows_eq_filter]
  simp only [mem_map_identifiersOf, ne_eq, List.filter_eq_nil_iff, decide_eq_true_eq, not_forall,
    not_not, exists_prop]
  constructor
  · rintro ⟨row, hrow, hj, hrecord⟩
    exact ⟨hj, row, hrow, hrecord⟩
  · rintro ⟨hj, row, hrow, hrecord⟩
    exact ⟨row, hrow, hj, hrecord⟩

theorem bindings_faithful {b c : StoredIdentifier × String} (hb : b ∈ x.bindings kind id)
    (hc : c ∈ x.bindings kind id) (hid : b.1.id = c.1.id) : b.1 = c.1 := by
  have hknown {d : StoredIdentifier × String} (hd : d ∈ x.bindings kind id) :
      x.identifier? d.1.id = some d.1 :=
    (mem_map_bindings.mp (List.mem_map_of_mem hd)).1
  have hsame := hknown hb
  rw [hid, hknown hc] at hsame
  exact (Option.some.inj hsame).symm

theorem Sound.names_of_bindings (h : x.Sound) (hdistinct : x.Distinct)
    (hj : x.identifier? j.id = some j) :
    ((x.bindings kind id).filter (·.1 = j)).map (·.2) =
      (x.sharedRows kind id j.id).map fun row => x.nameOf row.content.source := by
  have hrow : ∀ row ∈ x.recordClaims kind id,
      (((x.identifiersOf kind row.id).map fun a => (a.identifier, x.nameOf a.source)).filter
          (·.1 = j)).map (·.2) =
        if row.id ∈ x.recordIds kind j.id then [x.nameOf row.content.source] else [] := by
    intro row hrow
    rw [List.filter_map, List.map_map]
    exact h.names_of_identifiersOf (mem_recordClaims.mp hrow).1 hdistinct hj
  rw [bindings, List.filter_flatMap, List.map_flatMap, List.flatMap_congr hrow,
    sharedRows_eq_filter, ← flatMap_ite_singleton]
  simp only [decide_eq_true_eq]

end Bindings

end Index

namespace Resolver

variable {r : Resolver} {depth : Nat} {above : List Entity} {kind : RecordKind}
  {seed : StoredIdentifier} {v root : EntityView}

theorem map_id_recordRows (h : r.index.Sound) (kind : RecordKind) (id : Nat) :
    (r.index.recordRows kind id).map (·.id) = (r.index.recordClaims kind id).map (·.id) := by
  have hid : ∀ row ∈ r.index.recordClaims kind id,
      ((Record.ofValues? kind row.content.values).map fun record =>
        RecordRow.mk row.id record row.content.source).map (·.id) = some row.id := by
    intro row hrow
    obtain ⟨record, hrecord⟩ := h.exists_record hrow
    rw [hrecord]
    rfl
  rw [Index.recordRows, List.map_filterMap, List.filterMap_congr hid, List.filterMap_eq_map']

theorem aliasesOf_eq_gathered (h : r.index.Sound) (kind : RecordKind) (id : Nat) :
    r.aliasesOf kind id = gathered (r.index.bindings kind id) := by
  have hrows : (r.index.recordRows kind id).flatMap (fun row => r.index.identifiersOf kind row.id) =
      (r.index.recordClaims kind id).flatMap fun row => r.index.identifiersOf kind row.id := by
    rw [← List.flatMap_map RecordRow.id (r.index.identifiersOf kind), map_id_recordRows h,
      List.flatMap_map]
  rw [← foldl_addAlias fun b hb c hc => Index.bindings_faithful hb hc, Index.bindings,
    ← List.map_flatMap, List.foldl_map, aliasesOf, hrows]

theorem listsAliases_of_aliases (h : r.index.Sound) (hdistinct : r.index.Distinct)
    (hv : v.aliases = r.aliasesOf v.kind v.identifier.id) : v.ListsAliases r.index := by
  rw [aliasesOf_eq_gathered h] at hv
  have hids : v.aliases.map (·.identifier) =
      ((r.index.bindings v.kind v.identifier.id).map (·.1)).eraseDups := by
    rw [hv, gathered, List.map_map]
    exact List.map_id _
  have hlisted : ∀ j, j ∈ v.aliases.map (·.identifier) ↔ r.index.identifier? j.id = some j ∧
      r.index.sharedRows v.kind v.identifier.id j.id ≠ [] := by
    intro j
    rw [hids, List.mem_eraseDups, Index.mem_map_bindings]
  refine ⟨?distinct, hlisted, ?sources⟩
  case distinct =>
    have hdistinctIds : (v.aliases.map (·.identifier)).Nodup := by
      rw [hids]
      exact nodup_eraseDups _
    have hmap : v.aliases.map (·.identifier.id) = (v.aliases.map (·.identifier)).map (·.id) := by
      rw [List.map_map]
      rfl
    rw [hmap]
    apply hdistinctIds.map_on
    intro i hi j hj hid
    have hsame := ((hlisted i).mp hi).1
    rw [hid, ((hlisted j).mp hj).1] at hsame
    exact (Option.some.inj hsame).symm
  case sources =>
    intro entry hentry
    have hknown := ((hlisted _).mp (List.mem_map_of_mem hentry)).1
    rw [hv] at hentry
    obtain ⟨j, -, rfl⟩ := List.mem_map.mp hentry
    exact congrArg List.eraseDups (h.names_of_bindings hdistinct hknown)

theorem identifier?_of_below (h : r.index.Sound)
    (hseed : r.index.identifier? seed.id = some seed)
    (hroot : r.viewOf depth [] kind seed = some root) (hv : root.Below above v) :
    r.index.identifier? v.identifier.id = some v.identifier := by
  cases hv with
  | root =>
    obtain rfl := viewOf_eq_some hroot
    exact hseed
  | child hv hn hw =>
    rw [((expands_of_below h hroot hv).own _ hn _ hw).2]
    exact (view_of_neighbour hroot hv hn).1

theorem listsAliases_of_below (h : r.index.Sound) (hdistinct : r.index.Distinct)
    (hroot : r.viewOf depth [] kind seed = some root) (hv : root.Below above v) :
    v.ListsAliases r.index := by
  obtain ⟨-, -, hview⟩ := viewOf_of_below hroot hv
  apply listsAliases_of_aliases h hdistinct
  conv_lhs => rw [viewOf_eq_some hview]
  rfl

end Resolver

section Symmetry

variable {r : Resolver} {x : Index} {depth : Nat} {kind : RecordKind} {seed i j : StoredIdentifier}
  {v w root : EntityView} {sources : List String}

namespace EntityView

theorem ListsAliases.mem_iff (h : v.ListsAliases x) : ⟨j, sources⟩ ∈ v.aliases ↔
    x.identifier? j.id = some j ∧ x.sharedRows v.kind v.identifier.id j.id ≠ [] ∧
      sources = x.sharedSources v.kind v.identifier.id j.id := by
  constructor
  · intro hmem
    obtain ⟨hj, hshared⟩ := (h.listed j).mp (List.mem_map_of_mem hmem)
    exact ⟨hj, hshared, h.sources _ hmem⟩
  · rintro ⟨hj, hshared, rfl⟩
    obtain ⟨entry, hentry, rfl⟩ := List.mem_map.mp ((h.listed j).mpr ⟨hj, hshared⟩)
    rw [← h.sources entry hentry]
    exact hentry

theorem ListsAliases.identifier_mem (h : v.ListsAliases x)
    (hi : x.identifier? v.identifier.id = some v.identifier) (hlive : x.Live v.entity) :
    v.identifier ∈ v.aliases.map (·.identifier) := by
  rw [h.listed, Index.sharedRows_self]
  exact ⟨hi, hlive⟩

theorem ListsAliases.live (h : v.ListsAliases x) (hj : ⟨j, sources⟩ ∈ v.aliases) :
    x.Live ⟨v.kind, j.id⟩ := by
  obtain ⟨-, hshared, -⟩ := h.mem_iff.mp hj
  intro hnone
  apply hshared
  rw [Index.sharedRows_comm, Index.sharedRows_eq_filter, hnone, List.filter_nil]

theorem ListsAliases.symm_iff (hv : v.ListsAliases x) (hw : w.ListsAliases x)
    (hkind : v.kind = w.kind) (hi : x.identifier? v.identifier.id = some v.identifier)
    (hj : x.identifier? w.identifier.id = some w.identifier) :
    ⟨w.identifier, sources⟩ ∈ v.aliases ↔ ⟨v.identifier, sources⟩ ∈ w.aliases := by
  rw [hv.mem_iff, hw.mem_iff, hkind, Index.sharedRows_comm, Index.sharedSources_comm]
  simp only [hi, hj, true_and]

end EntityView

/-- An identifier is an alias of another if and only if it resolves to a view that has the other for
an alias, with the same sources. -/
theorem Resolver.mem_aliases_comm (h : r.index.Sound) (hdistinct : r.index.Distinct)
    (hseed : r.index.identifier? seed.id = some seed)
    (hroot : r.viewOf depth [] kind seed = some root) (other : Nat) :
    ⟨j, sources⟩ ∈ root.aliases ↔ ∃ back, r.resolve kind j.identifier other = .ok back ∧
      back.identifier = j ∧ ⟨seed, sources⟩ ∈ back.aliases := by
  have hlists := listsAliases_of_below h hdistinct hroot .root
  -- the view of the other identifier is of the same kind, so either view lists the identifier of
  -- the other
  have hboth {back : EntityView} (hknown : r.index.identifier? j.id = some j)
      (hback : r.viewOf other [] kind j = some back) :
      ⟨j, sources⟩ ∈ root.aliases ↔ ⟨seed, sources⟩ ∈ back.aliases := by
    have hlistsBack := listsAliases_of_below h hdistinct hback .root
    rw [viewOf_eq_some hroot] at hlists ⊢
    rw [viewOf_eq_some hback] at hlistsBack ⊢
    exact hlists.symm_iff hlistsBack rfl hseed hknown
  constructor
  · intro hj
    have hknown := (hlists.mem_iff.mp hj).1
    have hlive := hlists.live hj
    rw [viewOf_eq_some hroot] at hlive
    obtain ⟨back, hback, hresolve⟩ := exists_viewOf_of_lookup h
      (h.lookup_eq_ok_iff.mpr ⟨hdistinct.find?_identifier hknown, hlive⟩) other
    refine ⟨back, hresolve, ?_, (hboth hknown hback).mp hj⟩
    rw [viewOf_eq_some hback]
    rfl
  · rintro ⟨back, hresolve, rfl, hback⟩
    obtain ⟨hlookup, hview⟩ := viewOf_of_resolve h hresolve
    have hknown := h.identifier?_of_find? (h.lookup_eq_ok_iff.mp hlookup).1
    exact (hboth hknown hview).mpr hback

end Symmetry

/-- The aliases of every view in a tree are the identifiers that share a record with its own, which
is one of them, and an alias is listed with the sources of the records shared. So an identifier is
an alias of another if and only if the other is an alias of it, and the sources are the same. -/
theorem aliases_share_records (r : Resolver) (hx : r.index.Reachable) {kind : RecordKind}
    {i : Identifier} {seed : StoredIdentifier} (hseed : r.index.find? i = some seed)
    (hbound : r.index.standsFor kind seed.id = true) (depth : Nat) :
    (∀ row ∈ (r.index.records kind).rows,
      r.index.sourceName row.content.source = .ok (r.index.nameOf row.content.source)) ∧
    ∃ root, r.resolve kind i depth = .ok root ∧ root.kind = kind ∧ root.identifier = seed ∧
      (∀ above v, root.Below above v →
        v.ListsAliases r.index ∧ v.identifier ∈ v.aliases.map (·.identifier)) ∧
      ∀ j sources other, ⟨j, sources⟩ ∈ root.aliases ↔
        ∃ back, r.resolve kind j.identifier other = .ok back ∧ back.identifier = j ∧
          ⟨seed, sources⟩ ∈ back.aliases := by
  have h := hx.sound
  have hknown := h.identifier?_of_find? hseed
  have hlive : r.index.Live ⟨kind, seed.id⟩ := h.live_iff.mpr hbound
  refine ⟨?named, ?views⟩
  case named =>
    intro row hrow
    exact Index.sourceName_eq_ok
      (h.referenced.recordSource kind row.content (List.mem_map_of_mem hrow))
  case views =>
    obtain ⟨root, hroot, hresolve⟩ :=
      Resolver.exists_viewOf_of_lookup h (h.lookup_eq_ok_iff.mpr ⟨hseed, hlive⟩) depth
    obtain ⟨hkind, hidentifier⟩ : root.kind = kind ∧ root.identifier = seed := by
      rw [Resolver.viewOf_eq_some hroot]
      exact ⟨rfl, rfl⟩
    refine ⟨root, hresolve, hkind, hidentifier, ?below, fun j sources =>
      Resolver.mem_aliases_comm h hx.distinct hknown hroot⟩
    intro above v hv
    have hlists := Resolver.listsAliases_of_below h hx.distinct hroot hv
    exact ⟨hlists, hlists.identifier_mem (Resolver.identifier?_of_below h hknown hroot hv)
      (Resolver.live_of_below h hroot hv)⟩

/-- Three identifiers share the record of the press, two of them that of the radio too, and the
record of the label is of one alone. -/
theorem aliases_of_repeated_recording :
    let air (length : String) : Record := ⟨.recording, ⟨["Air", length], rfl⟩⟩
    let isrc : Identifier := .isrc "1"
    let mbid : Identifier := .mbid "2"
    let grid : Identifier := .grid "3"
    let r : Resolver := ⟨Index.empty.after [.createRecord (air "3:00") isrc "radio",
      .createRecord (air "3:00") mbid "radio", .createRecord (air "3:10") mbid "label",
      .createRecord (air "3:00") mbid "press", .createRecord (air "3:00") grid "press",
      .createRecord (air "3:00") isrc "press"], .empty⟩
    r.index.Reachable ∧ r.index.find? isrc = some ⟨1, isrc⟩ ∧
      r.index.standsFor .recording 1 = true ∧
      ∃ root back, r.resolve .recording isrc 0 = .ok root ∧ r.resolve .recording mbid 2 = .ok back ∧
        root.aliases = [⟨⟨1, isrc⟩, ["radio", "press"]⟩, ⟨⟨2, mbid⟩, ["radio", "press"]⟩,
          ⟨⟨3, grid⟩, ["press"]⟩] ∧
        ⟨⟨1, isrc⟩, ["radio", "press"]⟩ ∈ back.aliases := by
  intro air isrc mbid grid r
  have hx : r.index.Reachable := Index.Reachable.empty.after _
  have hseed : r.index.find? isrc = some ⟨1, isrc⟩ := by decide +kernel
  have hbound : r.index.standsFor .recording 1 = true := by decide +kernel
  have haliases : ((r.resolve .recording isrc 0).map (·.aliases)).toOption =
      some [⟨⟨1, isrc⟩, ["radio", "press"]⟩, ⟨⟨2, mbid⟩, ["radio", "press"]⟩,
        ⟨⟨3, grid⟩, ["press"]⟩] := by
    decide +kernel
  obtain ⟨root, hresolve, hlist⟩ := exists_ok_of_toOption_map haliases
  obtain ⟨-, same, hsame, -, -, -, hsymm⟩ := aliases_share_records r hx hseed hbound 0
  obtain rfl : root = same := Except.ok.inj (hresolve.symm.trans hsame)
  have hmbid : ⟨⟨2, mbid⟩, ["radio", "press"]⟩ ∈ root.aliases := by
    rw [hlist]
    exact List.mem_cons_of_mem _ List.mem_cons_self
  obtain ⟨back, hback, -, hmem⟩ := (hsymm _ _ 2).mp hmbid
  exact ⟨hx, hseed, hbound, root, back, hresolve, hback, hlist, hmem⟩

end MusicIndex
