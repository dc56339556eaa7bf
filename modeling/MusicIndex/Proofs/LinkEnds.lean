import MusicIndex.Proofs.ViewTree

namespace MusicIndex

@[simp]
theorem Direction.opposite_opposite (direction : Direction) :
    direction.opposite.opposite = direction := by
  cases direction <;> rfl

namespace Resolver

/-- The fan-out of an identifier, as an entity of one kind, has a link that leads to another
identifier, as an entity of another kind. -/
structure LeadsTo (r : Resolver) (near : RecordKind) (i : StoredIdentifier)
    (step : StoredLink × Direction) (far : RecordKind) (j : StoredIdentifier) : Prop where
  listed : step ∈ r.links near i.id
  kind : step.1.kind.farKind step.2 = far
  identifier : step.1.far step.2 = j

/-- What a fan-out has of the link with a number, walked in a direction. -/
def walksAlong (r : Resolver) (near : RecordKind) (id : Nat) (kind : LinkKind) (link : Nat)
    (direction : Direction) : List (StoredLink × Direction) :=
  (r.links near id).filter fun step =>
    step.1.kind = kind ∧ step.1.id = link ∧ step.2 = direction

variable {r : Resolver} {near far : RecordKind} {i j : StoredIdentifier} {l : StoredLink}
  {direction : Direction}

theorem nodup_links (h : r.index.Sound) (near : RecordKind) (id : Nat) :
    (r.links near id).Nodup := by
  apply (sorted_links h near id).imp
  rintro step other hlt rfl
  exact lt_irrefl _ hlt

theorem LeadsTo.opposite (h : r.LeadsTo near i (l, direction) far j)
    (hi : r.index.identifier? i.id = some i) : r.LeadsTo far j (l, direction.opposite) near i := by
  obtain ⟨hl, hnear⟩ := mem_links.mp h.listed
  obtain ⟨hkind, hid⟩ := Entity.mk.inj hnear
  have hend : l.far direction.opposite = i := by
    have hknown := hl.identifier?_far direction.opposite
    rw [hid, hi] at hknown
    exact (Option.some.inj hknown).symm
  refine ⟨mem_links.mpr ⟨hl, ?_⟩, ?_, hend⟩
  · rw [StoredLink.near, Direction.opposite_opposite, h.identifier]
    exact congrArg (Entity.mk · j.id) h.kind
  · rw [LinkKind.farKind, Direction.opposite_opposite]
    exact hkind

theorem leadsTo_opposite_iff (hi : r.index.identifier? i.id = some i)
    (hj : r.index.identifier? j.id = some j) :
    r.LeadsTo near i (l, direction) far j ↔ r.LeadsTo far j (l, direction.opposite) near i := by
  constructor
  · exact fun h => h.opposite hi
  · intro h
    rw [← direction.opposite_opposite]
    exact h.opposite hj

theorem walksAlong_eq (h : r.index.Sound) {kind : LinkKind} {row : Row LinkClaim}
    (hrow : row ∈ (r.index.links kind).rows) (hl : r.index.storedLink? kind row = some l)
    (near : RecordKind) (id : Nat) (direction : Direction) :
    r.walksAlong near id kind row.id direction =
      if row.content.near kind direction = ⟨near, id⟩ then [(l, direction)] else [] := by
  have hnear := Index.storedLink?_near hl direction
  obtain ⟨rfl, hid, -⟩ := Index.storedLink?_kind hl
  have hlink : r.index.HasLink l := ⟨row, hrow, hl⟩
  have hunique : ∀ step ∈ r.links near id,
      decide (step.1.kind = l.kind ∧ step.1.id = row.id ∧ step.2 = direction) = true ↔
        step = (l, direction) := by
    rintro ⟨m, d⟩ hstep
    rw [decide_eq_true_iff]
    constructor
    · rintro ⟨hkind, hnumber, rfl⟩
      obtain rfl := h.link_eq (mem_links.mp hstep).1 hlink hkind (hnumber.trans hid.symm)
      rfl
    · rintro ⟨⟩
      exact ⟨rfl, hid, rfl⟩
  rw [walksAlong, filter_of_unique (nodup_links h near id) hunique]
  simp only [mem_links, hlink, hnear, true_and]

theorem walksAlong_of_mem (h : r.index.Sound) {id : Nat} (hl : (l, direction) ∈ r.links near id) :
    r.walksAlong near id l.kind l.id direction = [(l, direction)] := by
  obtain ⟨⟨row, hrow, hrowl⟩, hnear⟩ := mem_links.mp hl
  obtain ⟨-, hid, -⟩ := Index.storedLink?_kind hrowl
  rw [hid, walksAlong_eq h hrow hrowl, ← Index.storedLink?_near hrowl, if_pos hnear]

end Resolver

/-- Fan-outs are symmetric: a link leads from one stored identifier to another if and only if it
leads back in the opposite direction, and either fan-out has it once. Every row is a link that is
found from its two ends, under the kinds that its own kind gives to them, and from nowhere else. -/
theorem fan_out_is_symmetric (r : Resolver) (hx : r.index.Reachable) :
    (∀ near far i j, r.index.identifier? i.id = some i → r.index.identifier? j.id = some j →
      ∀ l direction, (r.LeadsTo near i (l, direction) far j ↔
        r.LeadsTo far j (l, direction.opposite) near i) ∧
      (r.LeadsTo near i (l, direction) far j →
        r.walksAlong near i.id l.kind l.id direction = [(l, direction)] ∧
        r.walksAlong far j.id l.kind l.id direction.opposite = [(l, direction.opposite)])) ∧
    ∀ kind, ∀ row ∈ (r.index.links kind).rows, ∃ l, r.index.storedLink? kind row = some l ∧
      ∀ near id direction, r.walksAlong near id kind row.id direction =
        if kind.nearKind direction = near ∧ Index.nearEnd row.content direction = id
          then [(l, direction)] else [] := by
  have h := hx.sound
  refine ⟨?symmetric, ?rows⟩
  case symmetric =>
    intro near far i j hi hj l direction
    refine ⟨Resolver.leadsTo_opposite_iff hi hj, fun hleads => ?_⟩
    exact ⟨Resolver.walksAlong_of_mem h hleads.listed,
      Resolver.walksAlong_of_mem h (hleads.opposite hi).listed⟩
  case rows =>
    intro kind row hrow
    obtain ⟨l, hl⟩ := h.exists_link hrow
    refine ⟨l, hl, fun near id direction => ?_⟩
    rw [Resolver.walksAlong_eq h hrow hl, LinkClaim.near]
    simp only [Entity.mk.injEq]

/-- One identifier stands at both ends of a link and is a song beside. Its fan-out as a recording
has the link once, against its direction. -/
theorem fan_out_of_one_identifier :
    let isni : Identifier := .isni "1"
    let r : Resolver := ⟨Index.empty.after [
      .createLink ⟨.performerRecording, isni, isni, some "soloist", none⟩ "radio",
      .createLink ⟨.songRecording, isni, isni, none, none⟩ "press"], .empty⟩
    let i : StoredIdentifier := ⟨1, isni⟩
    let l : StoredLink := ⟨1, .performerRecording, i, i, some "soloist", none, 1⟩
    r.index.Reachable ∧ r.index.identifier? 1 = some i ∧
      r.LeadsTo .performer i (l, .forward) .recording i ∧
      r.LeadsTo .recording i (l, .reverse) .performer i ∧
      r.walksAlong .recording 1 .performerRecording 1 .reverse = [(l, .reverse)] ∧
      r.walksAlong .recording 1 .performerRecording 1 .forward = [] := by
  intro isni r i l
  have hx : r.index.Reachable := Index.Reachable.empty.after _
  have hi : r.index.identifier? 1 = some i := by decide +kernel
  have hl : (l, .forward) ∈ r.links .performer 1 := by decide +kernel
  obtain ⟨hsymmetric, hrows⟩ := fan_out_is_symmetric r hx
  obtain ⟨hback, honce⟩ := hsymmetric .performer .recording i i hi hi l .forward
  obtain ⟨m, -, hwalks⟩ :=
    hrows .performerRecording ⟨1, ⟨1, 1, "soloist", .unknown, 1⟩⟩ (by decide +kernel)
  have hforward : r.LeadsTo .performer i (l, .forward) .recording i := ⟨hl, rfl, rfl⟩
  exact ⟨hx, hi, hforward, hback.mp hforward, (honce hforward).2, hwalks .recording 1 .forward⟩

end MusicIndex
