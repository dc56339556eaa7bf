import MusicIndex.Proofs.Viewing

namespace MusicIndex

/-- The title of a record, or else all its values. -/
def Record.label (r : Record) : String :=
  match r.members.find? (·.1 == "title") with
  | some (_, title) => title
  | none => " ".intercalate r.values

/-- The claims that stand at the same place in all columns, place by place. -/
def claimRows (fields : List FieldValue) : List (List ScoredClaim) :=
  let places := fields.head?.elim 0 (·.merged.sources.length)
  (List.range places).map fun k => fields.filterMap (·.merged.sources[k]?)

theorem label_eq_of_values {fields : List FieldValue} {r : Record}
    (hcolumns : fields.map (·.column) = r.kind.columns)
    (hvalues : fields.map (·.merged.value) = r.values) : label fields = r.label := by
  have hmembers : r.members = fields.map fun f => (f.column, f.merged.value) := by
    rw [Record.members, ← hcolumns, ← hvalues, List.zip_map']
  have hfind : r.members.find? (·.1 == "title") =
      (fields.find? (·.column == "title")).map fun f => (f.column, f.merged.value) := by
    rw [hmembers, List.find?_map]
    rfl
  unfold label Record.label
  rw [hfind, ← hvalues]
  cases fields.find? (·.column == "title") with
  | none => rfl
  | some f => rfl

theorem Index.Sound.sorted_recordRows {x : Index} (h : x.Sound) (kind : RecordKind) (id : Nat) :
    (x.recordRows kind id).Pairwise (·.id < ·.id) := by
  rw [recordRows, List.pairwise_filterMap]
  refine ((h.numbered.records kind).sorted.filter _).imp ?_
  intro row other hlt a ha b hb
  obtain ⟨-, -, rfl⟩ := Option.map_eq_some_iff.mp ha
  obtain ⟨-, -, rfl⟩ := Option.map_eq_some_iff.mp hb
  exact hlt

namespace Resolver

def priorityOf (r : Resolver) (row : RecordRow) : Nat :=
  r.policy.priorityFor (r.index.nameOf row.source)

/-- A row with the highest priority among others, and with the largest number among those that share
it. -/
structure Leads (r : Resolver) (rows : List RecordRow) (row : RecordRow) : Prop where
  mem : row ∈ rows
  others : ∀ other ∈ rows, other ≠ row → r.priorityOf other < r.priorityOf row ∨
    r.priorityOf other = r.priorityOf row ∧ other.id < row.id

/-- A claim about the column at a position is what a row says of it. -/
structure ClaimsFor (r : Resolver) (position : Nat) (row : RecordRow) (claim : ScoredClaim) :
    Prop where
  value : row.record.values[position]? = some claim.value
  source : r.index.sourceName row.source = .ok claim.source
  score : claim.score = r.policy.priorityFor claim.source

/-- Fields of a kind that are merged from rows. One row gives all the current values. Every column
lists one claim for each row, in the order of rows, and together the columns have the rows. -/
structure MergesRows (r : Resolver) (kind : RecordKind) (rows : List RecordRow)
    (fields : List FieldValue) : Prop where
  columns : fields.map (·.column) = kind.columns
  current : ∃ row, r.Leads rows row ∧ fields.map (·.merged.value) = row.record.values ∧
    label fields = row.record.label
  claims : ∀ position field, fields[position]? = some field →
    List.Forall₂ (r.ClaimsFor position) rows field.merged.sources
  readBack : claimRows fields = rows.map fun row =>
    row.record.values.map fun value => ⟨value, r.index.nameOf row.source, r.priorityOf row⟩

def claimOf (r : Resolver) (position : Nat) (row : RecordRow) : Claim :=
  ⟨row.record.values.getD position "", r.index.nameOf row.source, row.id⟩

def fieldAt (r : Resolver) (rows : List RecordRow) (row : RecordRow) (column : String × Nat) :
    FieldValue :=
  ⟨column.1, row.record.values.getD column.2 "",
    rows.map fun row => (r.claimOf column.2 row).scored r.policy⟩

variable {r : Resolver} {kind : RecordKind} {rows : List RecordRow} {row : RecordRow}

theorem claimsAt_eq_map {position : Nat} (hkind : ∀ row ∈ rows, row.record.kind = kind)
    (hposition : position < kind.columns.length) :
    claimsAt position (rows.map fun row => (row, r.index.nameOf row.source)) =
      rows.map (r.claimOf position) := by
  rw [claimsAt, List.filterMap_map, ← List.filterMap_eq_map']
  apply List.filterMap_congr
  intro row hrow
  have hlength : position < row.record.values.length := by
    rw [row.record.length_values, hkind row hrow]
    exact hposition
  simp [claimOf, List.getElem?_eq_getElem hlength]

theorem Leads.prevails (h : r.Leads rows row) (position : Nat) :
    (r.claimOf position row).Prevails r.policy (rows.map (r.claimOf position)) where
  mem := List.mem_map_of_mem h.mem
  others := by
    intro d hd hne
    obtain ⟨other, hother, rfl⟩ := List.mem_map.mp hd
    have hbelow := h.others other hother fun heq => hne (congrArg _ heq)
    exact hbelow.imp_right (And.imp_right Int.ofNat_lt.mpr)

section Sorted

variable (hsorted : rows.Pairwise (·.id < ·.id))

include hsorted

theorem sorted_claims (position : Nat) :
    (rows.map (r.claimOf position)).Pairwise (·.record < ·.record) := by
  rw [List.pairwise_map]
  exact hsorted.imp fun hlt => Int.ofNat_lt.mpr hlt

theorem nodup_claims (position : Nat) :
    ((rows.map (r.claimOf position)).map (·.record)).Nodup := by
  rw [List.Nodup, List.pairwise_map]
  exact (sorted_claims hsorted position).imp ne_of_lt

theorem exists_leads (r : Resolver) (hrows : rows ≠ []) : ∃ row, r.Leads rows row := by
  obtain ⟨c, hc⟩ := MergedValue.exists_selected r.policy (mt List.map_eq_nil_iff.mp hrows)
  rw [MergedValue.selected_eq_some_iff (nodup_claims hsorted 0)] at hc
  obtain ⟨row, hrow, rfl⟩ := List.mem_map.mp hc.mem
  refine ⟨row, hrow, fun other hother hne => ?_⟩
  have hdistinct : r.claimOf 0 other ≠ r.claimOf 0 row := by
    intro heq
    have hids : (rows.map (·.id)).Nodup := by
      rw [List.Nodup, List.pairwise_map]
      exact hsorted.imp ne_of_lt
    exact hne (List.inj_on_of_nodup_map hids hother hrow (Int.ofNat.inj (congrArg (·.record) heq)))
  have hbelow := hc.others _ (List.mem_map_of_mem hother) hdistinct
  exact hbelow.imp_right (And.imp_right Int.ofNat_lt.mp)

theorem merge_claims (h : r.Leads rows row) (position : Nat) :
    MergedValue.merge r.policy (rows.map (r.claimOf position)) =
      some ⟨row.record.values.getD position "",
        rows.map fun row => (r.claimOf position row).scored r.policy⟩ := by
  rw [MergedValue.merge_eq_some_iff (nodup_claims hsorted position)]
  refine ⟨_, h.prevails position, ?_⟩
  rw [Claim.byRecord_of_sorted (sorted_claims hsorted position), List.map_map]
  rfl

theorem mergeRows_eq (hkind : ∀ row ∈ rows, row.record.kind = kind) (h : r.Leads rows row) :
    r.mergeRows kind (rows.map fun row => (row, r.index.nameOf row.source)) =
      kind.columns.zipIdx.map (r.fieldAt rows row) := by
  have hfield : ∀ c ∈ kind.columns.zipIdx,
      (MergedValue.merge r.policy
        (claimsAt c.2 (rows.map fun row => (row, r.index.nameOf row.source)))).map
          (FieldValue.mk c.1) = some (r.fieldAt rows row c) := by
    intro c hc
    have hposition : c.2 < kind.columns.length := by
      have hbound := (List.mem_zipIdx hc).2.1
      omega
    rw [claimsAt_eq_map hkind hposition, merge_claims hsorted h]
    rfl
  rw [mergeRows, List.filterMap_congr hfield, List.filterMap_eq_map']

end Sorted

theorem map_getD_zipIdx {values columns : List String} (h : values.length = columns.length) :
    (columns.zipIdx.map fun c => values.getD c.2 "") = values := by
  apply List.ext_getElem
  · simp [h]
  · intro position _ hposition
    simp [List.getElem?_eq_getElem hposition]

theorem claimsFor_scored {position : Nat} (hkind : row.record.kind = kind)
    (hposition : position < kind.columns.length)
    (hsource : r.index.sourceName row.source = .ok (r.index.nameOf row.source)) :
    r.ClaimsFor position row ((r.claimOf position row).scored r.policy) where
  value := by
    have hlength : position < row.record.values.length := by
      rw [row.record.length_values, hkind]
      exact hposition
    simp [Claim.scored, claimOf, List.getElem?_eq_getElem hlength]
  source := hsource
  score := rfl

theorem forall₂_claimsFor {row : RecordRow} (hkind : ∀ row ∈ rows, row.record.kind = kind)
    (hsource : ∀ row ∈ rows, r.index.sourceName row.source = .ok (r.index.nameOf row.source))
    {position : Nat} {field : FieldValue}
    (hfield : (kind.columns.zipIdx.map (r.fieldAt rows row))[position]? = some field) :
    List.Forall₂ (r.ClaimsFor position) rows field.merged.sources := by
  rw [List.getElem?_map] at hfield
  obtain ⟨c, hc, rfl⟩ := Option.map_eq_some_iff.mp hfield
  have hposition : position < kind.columns.length := by
    simpa using (List.getElem?_eq_some_iff.mp hc).1
  obtain rfl : c.2 = position := by
    rw [List.getElem?_zipIdx] at hc
    obtain ⟨column, -, rfl⟩ := Option.map_eq_some_iff.mp hc
    simp
  rw [fieldAt, List.forall₂_map_right_iff, List.forall₂_same]
  intro other hother
  exact claimsFor_scored (hkind other hother) hposition (hsource other hother)

theorem length_claims (row : RecordRow) :
    (kind.columns.zipIdx.map (r.fieldAt rows row)).head?.elim 0 (·.merged.sources.length) =
      rows.length := by
  obtain ⟨column, rest, hcolumns⟩ := List.exists_cons_of_ne_nil kind.columns_ne_nil
  rw [hcolumns]
  exact List.length_map _

theorem claimRows_fields (hkind : ∀ row ∈ rows, row.record.kind = kind) (row : RecordRow) :
    claimRows (kind.columns.zipIdx.map (r.fieldAt rows row)) = rows.map fun row =>
      row.record.values.map fun value => ⟨value, r.index.nameOf row.source, r.priorityOf row⟩ := by
  rw [claimRows, length_claims]
  apply List.ext_getElem
  · simp
  · intro k hk hk'
    have hrow : k < rows.length := by simpa using hk'
    have hvalues : rows[k].record.values.length = kind.columns.length := by
      rw [rows[k].record.length_values, hkind _ (List.getElem_mem hrow)]
    have hplace : ∀ c ∈ kind.columns.zipIdx, (r.fieldAt rows row c).merged.sources[k]? =
        some ((r.claimOf c.2 rows[k]).scored r.policy) := by
      intro c _
      simp [fieldAt, List.getElem?_eq_getElem hrow]
    rw [List.getElem_map, List.getElem_map, List.getElem_range, List.filterMap_map]
    refine (List.filterMap_congr hplace).trans ?_
    rw [List.filterMap_eq_map']
    conv_rhs => rw [← map_getD_zipIdx hvalues, List.map_map]
    rfl

theorem exists_fieldsOf_eq (h : r.index.Sound) {id : Nat}
    (hrows : r.index.recordRows kind id ≠ []) :
    ∃ row, r.Leads (r.index.recordRows kind id) row ∧ r.fieldsOf kind id =
      kind.columns.zipIdx.map (r.fieldAt (r.index.recordRows kind id) row) := by
  have hsorted := h.sorted_recordRows kind id
  obtain ⟨row, hrow⟩ := exists_leads hsorted r hrows
  exact ⟨row, hrow, mergeRows_eq hsorted (fun row hrow => (Index.mem_recordRows hrow).1) hrow⟩

theorem mergesRows_fieldsOf (h : r.index.Sound) {id : Nat} (hlive : r.index.Live ⟨kind, id⟩) :
    r.MergesRows kind (r.index.recordRows kind id) (r.fieldsOf kind id) := by
  have hkind : ∀ row ∈ r.index.recordRows kind id, row.record.kind = kind :=
    fun row hrow => (Index.mem_recordRows hrow).1
  obtain ⟨row, hrow, hfields⟩ := exists_fieldsOf_eq h fun hnil =>
    h.recordRows_eq_nil_iff.mp hnil hlive
  have hcolumns : (r.fieldsOf kind id).map (·.column) = kind.columns := columns_fieldsOf h hlive
  have hcurrent : (r.fieldsOf kind id).map (·.merged.value) = row.record.values := by
    rw [hfields, List.map_map]
    apply map_getD_zipIdx
    rw [row.record.length_values, hkind row hrow.mem]
  have hlabel : label (r.fieldsOf kind id) = row.record.label := by
    apply label_eq_of_values _ hcurrent
    rw [hcolumns, hkind row hrow.mem]
  refine ⟨hcolumns, ⟨row, hrow, hcurrent, hlabel⟩, ?claims, ?readBack⟩
  case claims =>
    intro position field hfield
    rw [hfields] at hfield
    exact forall₂_claimsFor hkind (fun row hrow => h.sourceName_of_record hrow) hfield
  case readBack =>
    rw [hfields]
    exact claimRows_fields hkind row

end Resolver

/-- The fields of an identifier are merged from the records that it stands for: every current value
is of the one record that leads, and the claims have every record. -/
theorem fields_are_of_whole_records (r : Resolver) (hx : r.index.Reachable) {kind : RecordKind}
    {id : Nat} (hbound : r.index.standsFor kind id = true) :
    ∃ rows fields, r.index.recordsOf kind id = .ok rows ∧ r.fields kind id = .ok fields ∧
      (∀ row ∈ rows, r.index.sourceName row.source = .ok (r.index.nameOf row.source)) ∧
      r.MergesRows kind rows fields := by
  have h := hx.sound
  exact ⟨_, _, h.recordsOf_eq kind id, Resolver.fields_eq h kind id,
    fun row hrow => h.sourceName_of_record hrow,
    Resolver.mergesRows_fieldsOf h (h.live_iff.mpr hbound)⟩

/-- Composers under two identifiers, one of which stands for four records of three sources. -/
def Index.composers : Index :=
  let composer (first last : String) : Record := ⟨.composer, ⟨[first, last], rfl⟩⟩
  Index.empty.after [
    .createRecord (composer "Jane" "Doe") (.ipi "1") "cwr",
    .createRecord (composer "John" "Doe") (.ipi "2") "cwr",
    .createRecord (composer "J." "Roe") (.ipi "1") "radio",
    .createRecord (composer "J." "Doe") (.ipi "1") "cwr",
    .createRecord (composer "Janet" "Poe") (.ipi "1") "press"]

theorem Index.reachable_composers : composers.Reachable :=
  Reachable.empty.after _

/-- Two sources share the highest priority: the name is that of the latest record of either,
although each part of it is found in other records too. -/
theorem composer_is_named_by_one_record :
    let r : Resolver := ⟨.composers, .ofEntries [("cwr", 10), ("radio", 10)]⟩
    r.index.standsFor .composer 1 = true ∧
    ∃ rows fields, r.index.recordsOf .composer 1 = .ok rows ∧ r.fields .composer 1 = .ok fields ∧
      r.index.Reachable ∧ r.MergesRows .composer rows fields ∧ rows.map (·.id) = [1, 3, 4, 5] ∧
      label fields = "J. Doe" := by
  intro r
  have hbound : r.index.standsFor .composer 1 = true := by decide +kernel
  have hids : (r.index.recordsOf .composer 1).toOption.map (·.map (·.id)) = some [1, 3, 4, 5] := by
    decide +kernel
  have hlabel : (r.fields .composer 1).toOption.map label = some "J. Doe" := by decide +kernel
  obtain ⟨rows, fields, hrows, hfields, -, hmerges⟩ :=
    fields_are_of_whole_records r Index.reachable_composers hbound
  rw [hrows] at hids
  rw [hfields] at hlabel
  exact ⟨hbound, rows, fields, hrows, hfields, Index.reachable_composers, hmerges,
    Option.some.inj hids, Option.some.inj hlabel⟩

end MusicIndex
