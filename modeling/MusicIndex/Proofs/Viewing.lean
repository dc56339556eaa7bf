import MusicIndex.Proofs.Navigation
import MusicIndex.Proofs.Selection

namespace MusicIndex

namespace Resolver

def fieldsOf (r : Resolver) (kind : RecordKind) (id : Nat) : List FieldValue :=
  r.mergeRows kind ((r.index.recordRows kind id).map fun row => (row, r.index.nameOf row.source))

def aliasesOf (r : Resolver) (kind : RecordKind) (id : Nat) : List Alias :=
  ((r.index.recordRows kind id).flatMap fun row => r.index.identifiersOf kind row.id).foldl
    (fun known a => addAlias a.identifier (r.index.nameOf a.source) known) []

def viewFrom (r : Resolver)
    (expand : List Entity → RecordKind → StoredIdentifier → Option EntityView)
    (path : List Entity) (kind : RecordKind) (i : StoredIdentifier) : Option EntityView :=
  if (r.fieldsOf kind i.id).isEmpty then none
  else
    let neighbours := (r.links kind i.id).map fun (link, direction) =>
      { kind := link.kind.farKind direction, direction, link, source := r.index.nameOf link.source
        view := expand (⟨kind, i.id⟩ :: path) (link.kind.farKind direction) (link.far direction) }
    some (.mk kind i (r.fieldsOf kind i.id) (r.aliasesOf kind i.id) neighbours)

/-- The view of an entity below a path, where no row is missing. -/
def viewOf (r : Resolver) : Nat → List Entity → RecordKind → StoredIdentifier → Option EntityView
  | 0 => r.viewFrom fun _ _ _ => none
  | depth + 1 => r.viewFrom fun path kind i =>
    if ⟨kind, i.id⟩ ∈ path then none else r.viewOf depth path kind i

variable {r : Resolver} {kind : RecordKind} {id : Nat} {i : StoredIdentifier}

theorem claimsAt_ne_nil {rows : List (RecordRow × String)} {position : Nat} (hrows : rows ≠ [])
    (hkind : ∀ row ∈ rows, row.1.record.kind = kind) (hposition : position < kind.columns.length) :
    claimsAt position rows ≠ [] := by
  obtain ⟨⟨row, source⟩, hrow⟩ := List.exists_mem_of_ne_nil rows hrows
  have hlength : position < row.record.values.length := by
    rw [row.record.length_values, hkind _ hrow]
    exact hposition
  have hvalue := List.getElem?_eq_getElem hlength
  exact List.ne_nil_of_mem (List.mem_filterMap.mpr
    ⟨(row, source), hrow, Option.map_eq_some_iff.mpr ⟨_, hvalue, rfl⟩⟩)

theorem columns_mergeRows {rows : List (RecordRow × String)} (hrows : rows ≠ [])
    (hkind : ∀ row ∈ rows, row.1.record.kind = kind) :
    (r.mergeRows kind rows).map (·.column) = kind.columns := by
  rw [mergeRows, List.map_filterMap]
  have hcolumn : ∀ c ∈ kind.columns.zipIdx,
      ((MergedValue.merge r.policy (claimsAt c.2 rows)).map (FieldValue.mk c.1)).map (·.column) =
        some c.1 := by
    intro c hc
    have hposition : c.2 < kind.columns.length := by
      have hbound := (List.mem_zipIdx hc).2.1
      omega
    obtain ⟨current, hcurrent⟩ :=
      MergedValue.exists_selected r.policy (claimsAt_ne_nil hrows hkind hposition)
    rw [MergedValue.merge_of_selected hcurrent]
    rfl
  rw [List.filterMap_congr hcolumn, List.filterMap_eq_map', List.zipIdx_map_fst]

theorem mergeRows_nil : r.mergeRows kind [] = [] := by
  apply List.filterMap_eq_nil_iff.mpr
  intro c _
  rfl

section Sound

variable (h : r.index.Sound)

include h

theorem columns_fieldsOf (hlive : r.index.Live ⟨kind, id⟩) :
    (r.fieldsOf kind id).map (·.column) = kind.columns := by
  apply columns_mergeRows
  · intro hnil
    exact h.recordRows_eq_nil_iff.mp (List.map_eq_nil_iff.mp hnil) hlive
  · intro row hrow
    obtain ⟨row, hmem, rfl⟩ := List.mem_map.mp hrow
    exact (Index.mem_recordRows hmem).1

theorem isEmpty_fieldsOf : (r.fieldsOf kind id).isEmpty = true ↔ ¬ r.index.Live ⟨kind, id⟩ := by
  rw [List.isEmpty_iff]
  constructor
  · intro hnil hlive
    have hcolumns := columns_fieldsOf h hlive
    rw [hnil] at hcolumns
    exact kind.columns_ne_nil hcolumns.symm
  · intro hdead
    rw [fieldsOf, h.recordRows_eq_nil_iff.mpr hdead]
    exact mergeRows_nil

theorem withSources_eq : r.withSources (r.index.recordRows kind id) =
    .ok ((r.index.recordRows kind id).map fun row => (row, r.index.nameOf row.source)) := by
  apply mapM_eq_ok_map
  intro row hrow
  rw [h.sourceName_of_record hrow]
  rfl

theorem fields_eq (kind : RecordKind) (id : Nat) :
    r.fields kind id = .ok (r.fieldsOf kind id) := by
  rw [fields, h.recordsOf_eq]
  change (r.withSources _ >>= fun rows => pure (r.mergeRows kind rows)) = _
  rw [withSources_eq h]
  rfl

theorem aliases_eq : r.aliases kind (r.index.recordRows kind id) = .ok (r.aliasesOf kind id) := by
  apply foldlM_eq_ok_foldl
  intro a ha known
  obtain ⟨row, -, ha⟩ := List.mem_flatMap.mp ha
  rw [h.sourceName_of_binding ha]
  rfl

theorem viewWith_eq
    {expand : List Entity → RecordKind → StoredIdentifier → Except Error (Option EntityView)}
    {expanded : List Entity → RecordKind → StoredIdentifier → Option EntityView}
    (hexpand : ∀ path kind i, expand path kind i = .ok (expanded path kind i))
    (path : List Entity) (kind : RecordKind) (i : StoredIdentifier) :
    r.viewWith expand path kind i = .ok (r.viewFrom expanded path kind i) := by
  unfold viewWith viewFrom
  simp only [h.recordsOf_eq, bind, Except.bind, withSources_eq h]
  change (if (r.fieldsOf kind i.id).isEmpty = true then _ else _) = _
  split
  · rfl
  · rw [aliases_eq h]
    dsimp only
    rw [mapM_eq_ok_map]
    · rfl
    · intro step hstep
      have hlink : r.index.HasLink step.1 := (mem_links.mp hstep).1
      rw [hexpand]
      dsimp only
      rw [h.sourceName_of_link hlink]
      rfl

/-- No view fails, whatever entity it is of. -/
theorem view_eq (depth : Nat) (path : List Entity) (kind : RecordKind) (i : StoredIdentifier) :
    r.view depth path kind i = .ok (r.viewOf depth path kind i) := by
  induction depth generalizing path kind i with
  | zero =>
    apply viewWith_eq h
    intro path kind i
    rfl
  | succ depth ih =>
    apply viewWith_eq h
    intro path kind i
    split
    · rfl
    · exact ih path kind i

end Sound

end Resolver

end MusicIndex
