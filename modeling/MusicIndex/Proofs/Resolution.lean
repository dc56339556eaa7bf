import MusicIndex.Proofs.Extent
import MusicIndex.Proofs.RecordLog
import MusicIndex.Proofs.ViewTree

namespace MusicIndex

/-- Nothing is missing that views and graphs read of any entity, and an entity that is found has a
view. -/
structure Resolver.Intact (r : Resolver) : Prop where
  records : ∀ kind id, ∃ rows, r.index.recordsOf kind id = .ok rows ∧ ∀ row ∈ rows,
    (∃ name, r.index.sourceName row.source = .ok name) ∧
    ∀ a ∈ r.index.identifiersOf kind row.id, ∃ name, r.index.sourceName a.source = .ok name
  links : ∀ kind id, ∀ step ∈ r.links kind id, ∃ name, r.index.sourceName step.1.source = .ok name
  fields : ∀ kind id, ∃ fields, r.fields kind id = .ok fields
  views : ∀ depth path kind i, ∃ view, r.view depth path kind i = .ok view
  seeds : ∀ depth kind i seed, r.index.lookup kind i = .ok seed →
    r.view depth [] kind seed ≠ .ok none

theorem Resolver.intact {r : Resolver} (h : r.index.Sound) : r.Intact where
  records kind id := by
    refine ⟨_, h.recordsOf_eq kind id, ?_⟩
    intro row hrow
    refine ⟨⟨_, h.sourceName_of_record hrow⟩, ?_⟩
    intro a ha
    exact ⟨_, h.sourceName_of_binding ha⟩
  links kind id step hstep := ⟨_, h.sourceName_of_link (mem_links.mp hstep).1⟩
  fields kind id := ⟨_, fields_eq h kind id⟩
  views depth path kind i := ⟨_, view_eq h depth path kind i⟩
  seeds depth kind i seed hseed := by
    obtain ⟨root, hroot, -⟩ := exists_viewOf_of_lookup h hseed depth
    rw [view_eq h, hroot]
    intro hnone
    cases hnone

theorem Ledger.exists_fact_iff {log : List Call} {kind : RecordKind} {i : Identifier} :
    (∃ f ∈ facts log, f.record.kind = kind ∧ f.identifier = i) ↔
      ∃ record source, Call.createRecord record i source ∈ log ∧ record.kind = kind := by
  constructor
  · rintro ⟨f, hf, hkind, rfl⟩
    obtain ⟨c, hc, hfact⟩ := List.mem_filterMap.mp hf
    cases c with
    | createRecord record i source =>
      cases hfact
      exact ⟨record, source, hc, hkind⟩
    | createLink | createTypedLink | resolveSource | resolveIdentifier => cases hfact
  · rintro ⟨record, source, hc, hkind⟩
    exact ⟨⟨record, i, source⟩, List.mem_filterMap.mpr ⟨_, hc, rfl⟩, hkind, rfl⟩

/-- Views and graphs fail if and only if no record of the kind was ever given to the identifier, and
they say so. Otherwise nothing is missing that they read: the root has a field for every column, and
the first node, which is of the same entity, has a label. -/
theorem resolution_fails_iff_unknown (r : Resolver) {log : List Call}
    (hx : Index.History log r.index) (kind : RecordKind) (i : Identifier) (depth : Nat) :
    let known := ∃ record source, Call.createRecord record i source ∈ log ∧ record.kind = kind
    r.Intact ∧
    (¬ known → r.resolve kind i depth = .error (.identifierNotFound kind i) ∧
      Graph.build r kind i depth = .error (.identifierNotFound kind i) ∧
      r.index.lookup kind i = .error (.identifierNotFound kind i)) ∧
    (known → ∃ root g, r.resolve kind i depth = .ok root ∧ Graph.build r kind i depth = .ok g ∧
      root.fields.map (·.column) = kind.columns ∧
      ∃ node label, g.nodes.head? = some node ∧ node.entity = root.entity ∧
        node.label = some label) := by
  intro known
  have h := hx.reachable.sound
  obtain ⟨hlog, -⟩ := hx.eq_index
  refine ⟨Resolver.intact h, ?_, ?_⟩
  · intro hunknown
    have hseed := Ledger.lookup_index_of_no_fact (mt Ledger.exists_fact_iff.mp hunknown)
    rw [← hlog] at hseed
    exact ⟨Resolver.resolve_of_lookup_error hseed depth, Graph.build_of_lookup_error hseed depth,
      hseed⟩
  · intro hknown
    have hseed := Ledger.lookup_index_of_fact (Ledger.exists_fact_iff.mpr hknown)
    rw [← hlog] at hseed
    have hlive := (h.lookup_eq_ok_iff.mp hseed).2
    obtain ⟨root, hroot, hresolve⟩ := Resolver.exists_viewOf_of_lookup h hseed depth
    obtain ⟨s, count, hbuild, -, hlevel⟩ := Survey.exists_level_build h hseed depth
    refine ⟨root, _, hresolve, hbuild, ?_, _, _, hlevel.head_graph, ?_,
      Survey.label_nodeOf h hlive⟩
    · rw [Resolver.viewOf_eq_some hroot]
      exact Resolver.columns_fieldsOf h hlive
    · exact (Resolver.entity_of_viewOf hroot).symm

/-- A feed that ends at its second line gives a record to the performer of its first line, and none
to the performer of the ring. -/
theorem resolution_after_feed :
    let feed := "[[\"performer\",\"Bo\"],[\"isni\",\"5\"],null,null]\noops".toUTF8.toList
    let y := (Index.ingest ⟨"feed", "press", true⟩ feed .smallRing).2
    let r : Resolver := ⟨y, .empty⟩
    let known (log : List Call) (i : Identifier) :=
      ∃ record source, Call.createRecord record i source ∈ log ∧ record.kind = .performer
    ∃ log, Index.History log y ∧ known log (.isni "5") ∧ ¬ known log (.isni "4") ∧
      (∃ root, r.resolve .performer (.isni "5") 1 = .ok root ∧
        root.fields.map (·.column) = ["name"]) ∧
      r.resolve .performer (.isni "4") 1 =
        .error (.identifierNotFound .performer (.isni "4")) := by
  intro feed y r known
  obtain ⟨log, hlog, hfive, hfour⟩ : ∃ log, Index.History log y ∧
      (∃ f ∈ Ledger.facts log, f.record.kind = .performer ∧ f.identifier = .isni "5") ∧
      ¬ ∃ f ∈ Ledger.facts log, f.record.kind = .performer ∧ f.identifier = .isni "4" :=
    ⟨_, (Index.History.empty.after _).feed _ _, by decide +kernel, by decide +kernel⟩
  rw [Ledger.exists_fact_iff] at hfive hfour
  obtain ⟨-, -, hresolved⟩ := resolution_fails_iff_unknown r hlog .performer (.isni "5") 1
  obtain ⟨-, hfailed, -⟩ := resolution_fails_iff_unknown r hlog .performer (.isni "4") 1
  obtain ⟨root, -, hroot, -, hcolumns, -⟩ := hresolved hfive
  exact ⟨log, hlog, hfive, hfour, ⟨root, hroot, hcolumns⟩, (hfailed hfour).1⟩

end MusicIndex
