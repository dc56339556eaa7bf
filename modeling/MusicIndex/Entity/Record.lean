import MusicIndex.Entity.RecordKind

namespace MusicIndex

/-- What a source says about one entity: a value for each column of its kind. -/
structure Fact (kind : RecordKind) where
  values : List String
  complete : values.length = kind.columns.length
deriving DecidableEq

/-- The fact whose values a list begins with; `none` if the list is too short. -/
def Fact.ofValues? (kind : RecordKind) (values : List String) : Option (Fact kind) :=
  if h : kind.columns.length ≤ values.length then
    some ⟨values.take kind.columns.length, by simp [h]⟩
  else none

structure Record where
  kind : RecordKind
  fact : Fact kind

namespace Record

def values (r : Record) : List String :=
  r.fact.values

def ofValues? (kind : RecordKind) (values : List String) : Option Record :=
  (Fact.ofValues? kind values).map (Record.mk kind)

def members (r : Record) : List (String × String) :=
  r.kind.columns.zip r.values

theorem length_values (r : Record) : r.values.length = r.kind.columns.length :=
  r.fact.complete

@[ext]
theorem ext_values {r s : Record} (kind : r.kind = s.kind) (values : r.values = s.values) :
    r = s := by
  obtain ⟨k, ⟨v, hv⟩⟩ := r
  obtain ⟨l, ⟨w, hw⟩⟩ := s
  obtain rfl : k = l := kind
  obtain rfl : v = w := values
  rfl

instance : DecidableEq Record := fun r s =>
  if h : r.kind = s.kind ∧ r.values = s.values then isTrue (ext_values h.1 h.2)
  else isFalse fun e => h (e ▸ ⟨rfl, rfl⟩)

end Record

end MusicIndex
