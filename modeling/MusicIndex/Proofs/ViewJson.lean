import MusicIndex.Proofs.JsonData
import MusicIndex.Proofs.Validity
import MusicIndex.View.Encode

namespace MusicIndex

open Json

variable {ι : Type}

def StoredLink.mapShares (f : Binary64 → Binary64) (l : StoredLink ι) : StoredLink ι :=
  { l with shares := l.shares.map (·.map f) }

namespace EntityView

mutual
/-- The view with a function applied to each known share in its tree. -/
def mapShares (f : Binary64 → Binary64) : EntityView ι → EntityView ι
  | .mk kind identifier fields aliases neighbours =>
    .mk kind identifier fields aliases (mapNeighbours f neighbours)

def mapNeighbours (f : Binary64 → Binary64) :
    List (Neighbour (EntityView ι) ι) → List (Neighbour (EntityView ι) ι)
  | [] => []
  | ⟨kind, direction, link, source, view⟩ :: rest =>
    ⟨kind, direction, link.mapShares f, source, mapNested f view⟩ :: mapNeighbours f rest

def mapNested (f : Binary64 → Binary64) : Option (EntityView ι) → Option (EntityView ι)
  | none => none
  | some view => some (mapShares f view)
end

end EntityView

section Identity

theorem StoredLink.mapShares_id (l : StoredLink ι) : l.mapShares (fun x => x) = l := by
  have hshares : Shares.map (fun x : Binary64 => x) = fun s => s := by
    funext s
    simp [Shares.map]
  rw [mapShares, hshares, Option.map_id']

namespace EntityView

mutual
theorem mapShares_id : ∀ v : EntityView ι, v.mapShares (fun x => x) = v
  | .mk kind identifier fields aliases neighbours => by
    rw [mapShares, mapNeighbours_id neighbours]

theorem mapNeighbours_id : ∀ ns : List (Neighbour (EntityView ι) ι),
    mapNeighbours (fun x => x) ns = ns
  | [] => rfl
  | ⟨kind, direction, link, source, view⟩ :: rest => by
    rw [mapNeighbours, StoredLink.mapShares_id, mapNested_id view, mapNeighbours_id rest]

theorem mapNested_id : ∀ o : Option (EntityView ι), mapNested (fun x => x) o = o
  | none => rfl
  | some view => congrArg some (mapShares_id view)
end

end EntityView

end Identity

section Same

variable [RowNumber ι] {α : Type} {read : Binary64 → α} {f : Binary64 → Binary64}

theorem StoredIdentifier.same_toJson {i j : StoredIdentifier ι} :
    i.toJson.Same read j.toJson ↔ i = j := by
  obtain ⟨m, s, x⟩ := i
  obtain ⟨n, t, y⟩ := j
  simp [toJson, RowNumber.toInt_inj, Identifier.numberedJson, Identifier.toMembers,
    sameMembers_cons]

theorem ScoredClaim.same_toJson {c d : ScoredClaim} : c.toJson.Same read d.toJson ↔ c = d := by
  obtain ⟨x, s, m⟩ := c
  obtain ⟨y, t, n⟩ := d
  simp [toJson, sameMembers_cons]

theorem FieldValue.same_toJson {f g : FieldValue} : f.toJson.Same read g.toJson ↔ f = g := by
  obtain ⟨column, x, claims⟩ := f
  obtain ⟨column', y, claims'⟩ := g
  have hclaims : (ofList ScoredClaim.toJson claims).Same read (ofList ScoredClaim.toJson claims') ↔
      claims = claims' := by
    simpa using same_ofList (g := id) fun _ _ => ScoredClaim.same_toJson
  -- the members of the merged value stand beside the column
  simp [toJson, MergedValue.toMembers, sameMembers_cons, hclaims]

theorem Alias.same_toJson {a b : Alias ι} : a.toJson.Same read b.toJson ↔ a = b := by
  obtain ⟨i, sources⟩ := a
  obtain ⟨j, sources'⟩ := b
  have hsources : (ofList string sources).Same read (ofList string sources') ↔
      sources = sources' := by
    simpa using same_ofList (g := id) fun _ _ => same_string
  simp [toJson, sameMembers_cons, StoredIdentifier.same_toJson, hsources]

theorem Shares.same_toJson (hread : ∀ x y, read x = read y ↔ f x = f y) {s t : Shares Binary64} :
    s.toJson.Same read t.toJson ↔ s.map f = t.map f := by
  have hshare {x y : Option Binary64} : (ofOption real x).Same read (ofOption real y) ↔
      x.map f = y.map f :=
    same_ofOption (f := real) (fun _ => nofun) fun x y => same_real.trans (hread x y)
  simp [toJson, named, sameMembers_cons, hshare, map]

theorem StoredLink.same_toJson (hread : ∀ x y, read x = read y ↔ f x = f y) {l m : StoredLink ι} :
    l.toJson.Same read m.toJson ↔ l.mapShares f = m.mapShares f := by
  have hrole {r r' : Option String} : (ofOption string r).Same read (ofOption string r') ↔
      r = r' := by
    simpa using
      same_ofOption (f := string) (g := fun r => r) (fun _ => nofun) fun _ _ => same_string
  have hshares {s t : Option (Shares Binary64)} :
      (ofOption Shares.toJson s).Same read (ofOption Shares.toJson t) ↔
        s.map (·.map f) = t.map (·.map f) :=
    same_ofOption (f := Shares.toJson) (fun _ => nofun) fun _ _ => Shares.same_toJson hread
  simp [toJson, mapShares, sameMembers_cons, RowNumber.toInt_inj, LinkKind.name_inj,
    StoredIdentifier.same_toJson, hrole, hshares]

namespace EntityView

theorem not_mem_viewMember {name : String} (hname : name ≠ "view") (v : Json)
    (o : Option (EntityView ι)) : (name, v) ∉ viewMember o := by
  cases o <;> simp [viewMember, hname]

mutual
theorem same_toJson (hread : ∀ x y, read x = read y ↔ f x = f y) {v w : EntityView ι} :
    v.toJson.Same read w.toJson ↔ v.mapShares f = w.mapShares f := by
  obtain ⟨kind, i, fields, aliases, neighbours⟩ := v
  obtain ⟨kind', i', fields', aliases', neighbours'⟩ := w
  have hfields : (ofList FieldValue.toJson fields).Same read (ofList FieldValue.toJson fields') ↔
      fields = fields' := by
    simpa using same_ofList (g := id) fun _ _ => FieldValue.same_toJson
  have haliases : (ofList Alias.toJson aliases).Same read (ofList Alias.toJson aliases') ↔
      aliases = aliases' := by
    simpa using same_ofList (g := id) fun _ _ => Alias.same_toJson
  have hneighbours : SameItems read (neighbourItems neighbours) (neighbourItems neighbours') ↔
      mapNeighbours f neighbours = mapNeighbours f neighbours' := sameItems_neighbourItems hread
  simp [toJson, mapShares, sameMembers_cons, RecordKind.name_inj, StoredIdentifier.same_toJson,
    hfields, haliases, hneighbours]

theorem sameItems_neighbourItems (hread : ∀ x y, read x = read y ↔ f x = f y)
    {ns ms : List (Neighbour (EntityView ι) ι)} :
    SameItems read (neighbourItems ns) (neighbourItems ms) ↔
      mapNeighbours f ns = mapNeighbours f ms := by
  match ns, ms with
  | [], [] => simp [neighbourItems, mapNeighbours]
  | [], _ :: _ => simp [neighbourItems, mapNeighbours]
  | _ :: _, [] => simp [neighbourItems, mapNeighbours]
  | ⟨kind, direction, link, source, view⟩ :: ns, ⟨kind', direction', link', source', view'⟩ :: ms =>
    have hview : SameMembers read (viewMember view) (viewMember view') ↔
        mapNested f view = mapNested f view' := sameMembers_viewMember hread
    have hrest : SameItems read (neighbourItems ns) (neighbourItems ms) ↔
        mapNeighbours f ns = mapNeighbours f ms := sameItems_neighbourItems hread
    simp [neighbourItems, mapNeighbours, sameMembers_cons, not_mem_viewMember, RecordKind.name_inj,
      Direction.name_inj, StoredLink.same_toJson hread, hview, hrest]

theorem sameMembers_viewMember (hread : ∀ x y, read x = read y ↔ f x = f y)
    {o p : Option (EntityView ι)} :
    SameMembers read (viewMember o) (viewMember p) ↔ mapNested f o = mapNested f p := by
  match o, p with
  | none, none => simp [viewMember, mapNested]
  | none, some _ => simp [viewMember, mapNested]
  | some _, none => simp [viewMember, mapNested, not_sameMembers_cons_nil]
  | some v, some w =>
    have hview : v.toJson.Same read w.toJson ↔ v.mapShares f = w.mapShares f := same_toJson hread
    simp [viewMember, mapNested, sameMembers_cons, hview]
end

end EntityView

end Same

/-- A view is determined by its JSON value; and where that is known as data only, members in any
order and reals as numbers, it is determined up to the signs of zero shares. -/
theorem json_determines_view [RowNumber ι] (v w : EntityView ι) :
    (v.toJson = w.toJson ↔ v = w) ∧
    (v.toJson.Same Binary64.toRat w.toJson ↔
      v.mapShares Binary64.plainZero = w.mapShares Binary64.plainZero) := by
  refine ⟨⟨fun h => ?_, congrArg _⟩, EntityView.same_toJson fun _ _ => Binary64.toRat_inj⟩
  have hsame : v.toJson.Same (fun x => x) w.toJson := h ▸ Same.refl _ v.toJson
  rwa [EntityView.same_toJson (f := fun x => x) fun _ _ => Iff.rfl, EntityView.mapShares_id,
    EntityView.mapShares_id] at hsame

end MusicIndex
