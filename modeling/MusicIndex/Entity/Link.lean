import MusicIndex.Decimal.Binary64
import MusicIndex.Entity.Identifier
import MusicIndex.Entity.LinkKind

namespace MusicIndex

/-- Rights shares in percent, as numbers of some type; each may be unknown. -/
structure Shares (α : Type) where
  performance : Option α
  mechanical : Option α
  synchronization : Option α
deriving DecidableEq

namespace Shares

variable {α β : Type}

def unknown : Shares α := ⟨none, none, none⟩

instance : Inhabited (Shares α) := ⟨unknown⟩

def named (s : Shares α) : List (String × Option α) :=
  [("performance", s.performance), ("mechanical", s.mechanical),
    ("synchronization", s.synchronization)]

def map (f : α → β) (s : Shares α) : Shares β :=
  ⟨s.performance.map f, s.mechanical.map f, s.synchronization.map f⟩

def kept (s : Shares Binary64) : Shares Binary64 :=
  s.map .plainZero

def given [ToDouble α] (s : Shares α) : Shares Double :=
  s.map ToDouble.toDouble

/-- The shares that are numbers; others count as unknown. -/
def finite (s : Shares Double) : Shares Binary64 :=
  ⟨s.performance.bind (·.finite?), s.mechanical.bind (·.finite?),
    s.synchronization.bind (·.finite?)⟩

end Shares

structure Link (α : Type) where
  kind : LinkKind
  a : Identifier
  b : Identifier
  role : Option String
  shares : Option (Shares α)
deriving DecidableEq

namespace Link

variable {α : Type}

/-- The role that tells links apart: an absent role and the empty one are the same. -/
def keyRole (l : Link α) : String :=
  l.role.getD ""

def given [ToDouble α] (l : Link α) : Link Double :=
  ⟨l.kind, l.a, l.b, l.role, l.shares.map .given⟩

instance : Coe (Link Binary64) (Link Double) := ⟨given⟩

@[simp]
theorem given_double (l : Link Double) : l.given = l := by
  have hshares : (Shares.given : Shares Double → Shares Double) = id := by
    funext ⟨p, m, y⟩
    simp [Shares.given, Shares.map, ToDouble.toDouble]
  rw [given, hshares, Option.map_id, id]

def finite (l : Link Double) : Link Binary64 :=
  ⟨l.kind, l.a, l.b, l.role, l.shares.map .finite⟩

end Link

def reportedRole (role : String) : Option String :=
  if role = "" then none else some role

structure StoredLink (ι : Type := Nat) where
  id : ι
  kind : LinkKind
  a : StoredIdentifier ι
  b : StoredIdentifier ι
  role : Option String
  shares : Option (Shares Binary64)
  source : ι
deriving DecidableEq

def StoredLink.far {ι : Type} (l : StoredLink ι) : Direction → StoredIdentifier ι
  | .forward => l.b
  | .reverse => l.a

def LinkAttributes.Input (α : Type) : LinkAttributes → Type
  | .none => Unit
  | .role => String
  | .roleAndShares => String × Shares α

namespace LinkAttributes.Input

variable {α : Type}

def role : {attributes : LinkAttributes} → attributes.Input α → Option String
  | .none, () => Option.none
  | .role, role => some (show String from role)
  | .roleAndShares, (role, _) => some role

def shares : {attributes : LinkAttributes} → attributes.Input α → Option (Shares α)
  | .none, () => Option.none
  | .role, _ => Option.none
  | .roleAndShares, (_, shares) => some shares

/-- The attributes of a kind, from a role and shares that are dropped where they do not belong. -/
def ofParts : (attributes : LinkAttributes) → String → Shares α → attributes.Input α
  | .none, _, _ => ()
  | .role, role, _ => role
  | .roleAndShares, role, shares => (role, shares)

end LinkAttributes.Input

/-- A link of one kind with just the attributes of that kind. -/
structure TypedLink (kind : LinkKind) (α : Type) where
  a : Identifier
  b : Identifier
  attributes : kind.attributes.Input α

def TypedLink.toLink {kind : LinkKind} {α : Type} (l : TypedLink kind α) : Link α :=
  ⟨kind, l.a, l.b, l.attributes.role, l.attributes.shares⟩

end MusicIndex
