import MusicIndex.Proofs.FanOut

namespace MusicIndex

def Neighbour.mapView {V : Type} (f : Option V → Option V) (n : Neighbour V) : Neighbour V :=
  { n with view := f n.view }

/-- A view without the views that are more than so many levels below it. -/
def EntityView.cut : Nat → EntityView → EntityView
  | 0, mk kind i fields aliases neighbours =>
    mk kind i fields aliases (neighbours.map (Neighbour.mapView fun _ => none))
  | levels + 1, mk kind i fields aliases neighbours =>
    mk kind i fields aliases (neighbours.map (Neighbour.mapView (Option.map (cut levels))))

namespace Index

variable {x : Index} {path : List Entity}

def entities (x : Index) : Finset Entity :=
  (x.assignments.contents.map fun a => Entity.mk a.kind a.identifier).toFinset

theorem Sound.mem_entities (h : x.Sound) {e : Entity} : e ∈ x.entities ↔ x.Live e := by
  obtain ⟨kind, id⟩ := e
  rw [h.live_iff]
  simp [entities, standsFor, and_comm]

/-- A way down a tree: distinct entities that have records. -/
structure Descent (x : Index) (path : List Entity) : Prop where
  distinct : path.Nodup
  live : ∀ e ∈ path, x.Live e

theorem Descent.cons (h : x.Descent path) {e : Entity} (hfresh : e ∉ path) (hlive : x.Live e) :
    x.Descent (e :: path) where
  distinct := List.nodup_cons.mpr ⟨hfresh, h.distinct⟩
  live := List.forall_mem_cons.mpr ⟨hlive, h.live⟩

theorem Descent.length_le (h : x.Descent path) (hx : x.Sound) :
    path.length ≤ x.entities.card := by
  rw [← List.toFinset_card_of_nodup h.distinct]
  apply Finset.card_le_card
  intro e he
  exact hx.mem_entities.mpr (h.live e (List.mem_toFinset.mp he))

end Index

namespace Resolver

variable {r : Resolver} {depth other levels : Nat} {path : List Entity} {kind : RecordKind}
  {i : StoredIdentifier}

theorem viewOf_eq_ite (depth : Nat) (path : List Entity) (kind : RecordKind)
    (i : StoredIdentifier) : r.viewOf depth path kind i =
      if (r.fieldsOf kind i.id).isEmpty then none
      else some (.mk kind i (r.fieldsOf kind i.id) (r.aliasesOf kind i.id)
        ((r.links kind i.id).map (r.neighbourOf depth (⟨kind, i.id⟩ :: path)))) := by
  rw [viewOf_eq]
  rfl

theorem cut_viewOf (hle : levels ≤ depth) :
    (r.viewOf depth path kind i).map (EntityView.cut levels) = r.viewOf levels path kind i := by
  induction levels generalizing depth path kind i with
  | zero =>
    rw [viewOf_eq_ite, viewOf_eq_ite]
    split
    · rfl
    · rw [Option.map_some, EntityView.cut, List.map_map]
      rfl
  | succ levels ih =>
    obtain ⟨depth, rfl⟩ := Nat.exists_eq_succ_of_ne_zero (Nat.ne_zero_of_lt hle)
    have hcut : ∀ path step, (r.neighbourOf (depth + 1) path step).mapView
        (Option.map (EntityView.cut levels)) = r.neighbourOf (levels + 1) path step := by
      intro path step
      rw [Neighbour.mapView, neighbourOf, neighbourOf, expandOf, expandOf]
      split
      · rfl
      · rw [ih (Nat.le_of_succ_le_succ hle)]
    rw [viewOf_eq_ite, viewOf_eq_ite]
    split
    · rfl
    · rw [Option.map_some, EntityView.cut, List.map_map]
      congr 2
      exact List.map_congr_left fun step _ => hcut _ step

theorem descent_of_fields (h : r.index.Sound) (hpath : r.index.Descent path)
    (hfresh : ⟨kind, i.id⟩ ∉ path) (hfields : ¬ (r.fieldsOf kind i.id).isEmpty = true) :
    r.index.Descent (⟨kind, i.id⟩ :: path) ∧ path.length < r.index.entities.card := by
  have hlive := not_not.mp (mt (isEmpty_fieldsOf h).mpr hfields)
  have hbelow := hpath.cons hfresh hlive
  exact ⟨hbelow, hbelow.length_le h⟩

/-- A way down has at most as many entities as the index. If two depths allow for that, they give
the same view. -/
theorem viewOf_eq_of_le (h : r.index.Sound) (hpath : r.index.Descent path)
    (hfresh : ⟨kind, i.id⟩ ∉ path) (hdepth : r.index.entities.card ≤ path.length + depth)
    (hother : r.index.entities.card ≤ path.length + other) :
    r.viewOf depth path kind i = r.viewOf other path kind i := by
  induction depth generalizing other path kind i with
  | zero =>
    rw [viewOf_eq_ite, viewOf_eq_ite]
    split
    · rfl
    · rename_i hfields
      obtain ⟨-, hlt⟩ := descent_of_fields h hpath hfresh hfields
      exact absurd hdepth hlt.not_ge
  | succ depth ih =>
    rw [viewOf_eq_ite, viewOf_eq_ite]
    split
    · rfl
    · rename_i hfields
      obtain ⟨hbelow, hlt⟩ := descent_of_fields h hpath hfresh hfields
      obtain ⟨other, rfl⟩ : ∃ fewer, other = fewer + 1 := ⟨other - 1, by omega⟩
      -- the entity is above its neighbours, for whom one level less is left
      rw [← Nat.add_assoc, Nat.add_right_comm] at hdepth hother
      congr 2
      apply List.map_congr_left
      intro step _
      rw [neighbourOf, neighbourOf, expandOf, expandOf]
      split
      · rfl
      · rename_i hnew
        rw [ih hbelow hnew hdepth hother]

theorem descent_of_below {seed : StoredIdentifier} {above : List Entity} {root v : EntityView}
    (h : r.index.Sound) (hroot : r.viewOf depth [] kind seed = some root)
    (hv : root.Below above v) : r.index.Descent (v.entity :: above) where
  distinct := (viewOf_of_below hroot hv).2.1
  live := by
    induction hv with
    | root => exact List.forall_mem_singleton.mpr (live_of_below h hroot .root)
    | child hv hn hw ih =>
      exact List.forall_mem_cons.mpr ⟨live_of_below h hroot (.child hv hn hw), ih⟩

theorem resolve_eq_bind (h : r.index.Sound) (kind : RecordKind) (i : Identifier) (depth : Nat) :
    r.resolve kind i depth = r.index.lookup kind i >>= fun seed =>
      ((r.viewOf depth [] kind seed).elim (.error (.identifierNotFound kind i)) .ok) := by
  apply bind_congr
  intro seed
  rw [view_eq h]
  cases r.viewOf depth [] kind seed with
  | none => rfl
  | some v => rfl

theorem cut_resolve (r : Resolver) (h : r.index.Sound) (kind : RecordKind) (i : Identifier)
    (hle : levels ≤ depth) :
    (r.resolve kind i depth).map (EntityView.cut levels) = r.resolve kind i levels := by
  rw [resolve_eq_bind h, resolve_eq_bind h]
  cases r.index.lookup kind i with
  | error e => rfl
  | ok seed =>
    change Except.map _ (Option.elim _ _ _) = Option.elim _ _ _
    rw [← cut_viewOf hle]
    cases r.viewOf depth [] kind seed with
    | none => rfl
    | some v => rfl

theorem resolve_eq_of_le (r : Resolver) (h : r.index.Sound) (kind : RecordKind) (i : Identifier)
    (hdepth : r.index.entities.card ≤ depth) (hother : r.index.entities.card ≤ other) :
    r.resolve kind i depth = r.resolve kind i other := by
  rw [resolve_eq_bind h, resolve_eq_bind h]
  apply bind_congr
  intro seed
  have hpath : r.index.Descent [] := ⟨List.nodup_nil, fun e he => nomatch he⟩
  rw [← Nat.zero_add depth] at hdepth
  rw [← Nat.zero_add other] at hother
  rw [viewOf_eq_of_le h hpath List.not_mem_nil hdepth hother]

end Resolver

/-- A greater depth reveals more of the same view. The view to a smaller depth is the view to a
greater one, cut off; and a tree has fewer levels below its root than the index has entities, so
that beyond that number all depths give the same view. -/
theorem depth_only_reveals_more (r : Resolver) (hx : r.index.Reachable) (kind : RecordKind)
    (i : Identifier) :
    (∀ levels depth, levels ≤ depth →
      (r.resolve kind i depth).map (EntityView.cut levels) = r.resolve kind i levels) ∧
    (∀ depth other, r.index.entities.card ≤ depth → r.index.entities.card ≤ other →
      r.resolve kind i depth = r.resolve kind i other) ∧
    ∀ depth root, r.resolve kind i depth = .ok root → ∀ above v, root.Below above v →
      above.length < r.index.entities.card := by
  have h := hx.sound
  refine ⟨fun levels depth hle => r.cut_resolve h kind i hle,
    fun depth other hdepth hother => r.resolve_eq_of_le h kind i hdepth hother, ?_⟩
  intro depth root hroot above v hv
  obtain ⟨-, hview⟩ := Resolver.viewOf_of_resolve h hroot
  exact (Resolver.descent_of_below h hview hv).length_le h

/-- The ring has three entities with records, so no depth shows more than depth 3, and one level of
the greatest depth is what depth 1 shows: the views of the two neighbours, neither of which is there
at depth 0. -/
theorem depth_of_small_ring :
    let r : Resolver := ⟨.smallRing, .empty⟩
    let greatest := 2 ^ 64 - 1
    r.index.Reachable ∧ r.index.entities.card = 3 ∧ ∃ root,
      r.resolve .song (.iswc "1") 3 = .ok root ∧ r.resolve .song (.iswc "1") greatest = .ok root ∧
      r.resolve .song (.iswc "1") 1 = .ok (root.cut 1) ∧
      (∀ above v, root.Below above v → above.length < 3) ∧
      (root.cut 1).neighbours.map (fun n => (n.entity, n.view.isSome)) =
        [(⟨.recording, 2⟩, true), (⟨.release, 3⟩, true)] ∧
      r.resolve .song (.iswc "1") 0 = .ok (root.cut 0) ∧
      (root.cut 0).neighbours.map (fun n => (n.entity, n.view.isSome)) =
        [(⟨.recording, 2⟩, false), (⟨.release, 3⟩, false)] := by
  intro r greatest
  obtain ⟨hcut, hsame, hlevels⟩ :=
    depth_only_reveals_more r Index.reachable_smallRing .song (.iswc "1")
  have hcard : r.index.entities.card = 3 := by decide +kernel
  have hresolved : (r.resolve .song (.iswc "1") 3).toOption.isSome = true := by decide +kernel
  rw [hcard] at hsame hlevels
  have viewed {depth : Nat} {v : EntityView} {ends : List (Entity × Bool)}
      (hv : r.resolve .song (.iswc "1") depth = .ok v)
      (hends : ((r.resolve .song (.iswc "1") depth).map fun v =>
        v.neighbours.map fun n => (n.entity, n.view.isSome)).toOption = some ends) :
      v.neighbours.map (fun n => (n.entity, n.view.isSome)) = ends := by
    rw [hv] at hends
    exact Option.some.inj hends
  cases hroot : r.resolve .song (.iswc "1") 3 with
  | error e =>
    rw [hroot] at hresolved
    cases hresolved
  | ok root =>
    have hgreatest := hsame greatest 3 (by decide) le_rfl
    have hone := hcut 1 3 (by decide)
    have hnone := hcut 0 3 (by decide)
    rw [hroot] at hgreatest hone hnone
    refine ⟨Index.reachable_smallRing, hcard, root, rfl, hgreatest, hone.symm,
      hlevels 3 root hroot, ?_, hnone.symm, ?_⟩
    · exact viewed hone.symm (by decide +kernel)
    · exact viewed hnone.symm (by decide +kernel)

end MusicIndex
