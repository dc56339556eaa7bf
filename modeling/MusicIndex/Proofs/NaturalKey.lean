import MusicIndex.Proofs.LedgerRead
import MusicIndex.Proofs.Spelling

namespace MusicIndex

/-- The natural key of an entity of a kind, part by part. -/
inductive NaturalKey : RecordKind → Type where
  | performer (name : String) : NaturalKey .performer
  | contributor (name : String) : NaturalKey .contributor
  | composer (firstName lastName : String) : NaturalKey .composer
  | recordLabel (name : String) : NaturalKey .recordLabel
  | publisher (name : String) : NaturalKey .publisher
  | recording (title duration : String) : NaturalKey .recording
  | work (title : String) : NaturalKey .work
  | song (title duration : String) : NaturalKey .song
  | release (type title date : String) : NaturalKey .release
  | organisation (name : String) : NaturalKey .organisation
  | series (name : String) : NaturalKey .series
  | season (name : String) : NaturalKey .season
  | episode (name : String) : NaturalKey .episode
  | supplemental (name : String) : NaturalKey .supplemental

namespace NaturalKey

variable {kind : RecordKind}

def members : NaturalKey kind → List (String × String)
  | composer firstName lastName => [("first_name", firstName), ("last_name", lastName)]
  | recording title duration | song title duration => [("title", title), ("duration", duration)]
  | work title => [("title", title)]
  | release type title date => [("type", type), ("title", title), ("date", date)]
  | performer name | contributor name | recordLabel name | publisher name | organisation name
  | series name | season name | episode name | supplemental name => [("name", name)]

def values : NaturalKey kind → List String
  | composer firstName lastName => [firstName, lastName]
  | recording title duration | song title duration => [title, duration]
  | work title => [title]
  | release type title date => [type, title, date]
  | performer name | contributor name | recordLabel name | publisher name | organisation name
  | series name | season name | episode name | supplemental name => [name]

def ofValues? : (kind : RecordKind) → List String → Option (NaturalKey kind)
  | .performer, name :: _ => some (.performer name)
  | .contributor, name :: _ => some (.contributor name)
  | .composer, firstName :: lastName :: _ => some (.composer firstName lastName)
  | .recordLabel, name :: _ => some (.recordLabel name)
  | .publisher, name :: _ => some (.publisher name)
  | .recording, title :: duration :: _ => some (.recording title duration)
  | .work, title :: _ => some (.work title)
  | .song, title :: duration :: _ => some (.song title duration)
  | .release, type :: title :: date :: _ => some (.release type title date)
  | .organisation, name :: _ => some (.organisation name)
  | .series, name :: _ => some (.series name)
  | .season, name :: _ => some (.season name)
  | .episode, name :: _ => some (.episode name)
  | .supplemental, name :: _ => some (.supplemental name)
  | _, _ => none

theorem map_fst_members (k : NaturalKey kind) : k.members.map (·.1) = kind.columns := by
  cases k <;> rfl

theorem map_snd_members (k : NaturalKey kind) : k.members.map (·.2) = k.values := by
  cases k <;> rfl

theorem members_eq_zip (k : NaturalKey kind) : k.members = kind.columns.zip k.values := by
  rw [← map_fst_members k, ← map_snd_members k, List.zip_map', List.map_id']

theorem length_values (k : NaturalKey kind) : k.values.length = kind.columns.length := by
  rw [← map_snd_members, ← map_fst_members k, List.length_map, List.length_map]

def toFact (k : NaturalKey kind) : Fact kind := ⟨k.values, k.length_values⟩

def toRecord (k : NaturalKey kind) : Record := ⟨kind, k.toFact⟩

theorem ofValues?_append (k : NaturalKey kind) (rest : List String) :
    ofValues? kind (k.values ++ rest) = some k := by
  cases k <;> rfl

theorem ofValues?_eq_none_iff {values : List String} :
    ofValues? kind values = none ↔ values.length < kind.columns.length := by
  -- no key has more than three parts
  cases kind <;> rcases values with _ | ⟨a, _ | ⟨b, _ | ⟨c, rest⟩⟩⟩ <;>
    simp [ofValues?, RecordKind.columns]

theorem exists_rest_of_ofValues? {values : List String} {k : NaturalKey kind}
    (h : ofValues? kind values = some k) : ∃ rest, values = k.values ++ rest := by
  unfold ofValues? at h
  split at h <;> cases h <;> exact ⟨_, rfl⟩

theorem exists_ofValues?_eq {values : List String} (h : kind.columns.length ≤ values.length) :
    ∃ k : NaturalKey kind, ofValues? kind values = some k ∧
      k.values = values.take kind.columns.length := by
  obtain ⟨k, hk⟩ := Option.ne_none_iff_exists'.mp (mt ofValues?_eq_none_iff.mp h.not_gt)
  obtain ⟨rest, rfl⟩ := exists_rest_of_ofValues? hk
  exact ⟨k, hk, by rw [← k.length_values, List.take_left]⟩

theorem map_toFact_ofValues? (kind : RecordKind) (values : List String) :
    (ofValues? kind values).map toFact = Fact.ofValues? kind values := by
  unfold Fact.ofValues?
  split
  · rename_i h
    obtain ⟨k, hk, hvalues⟩ := exists_ofValues?_eq h
    rw [hk, Option.map_some, toFact]
    congr
  · rename_i h
    rw [ofValues?_eq_none_iff.mpr (not_le.mp h)]
    rfl

theorem toRecord_eq_iff {r : Record} {k : NaturalKey r.kind} :
    k.toRecord = r ↔ k.values = r.values :=
  ⟨congrArg Record.values, fun h => Record.ext_values rfl h⟩

/-- Every record is that of one natural key. -/
theorem existsUnique_toRecord_eq (r : Record) : ∃! k : NaturalKey r.kind, k.toRecord = r := by
  obtain ⟨k, hk, hvalues⟩ := exists_ofValues?_eq r.length_values.ge
  rw [← r.length_values, List.take_length] at hvalues
  refine ⟨k, toRecord_eq_iff.mpr hvalues, fun l hl => ?_⟩
  have hread := ofValues?_append l []
  rw [List.append_nil, toRecord_eq_iff.mp hl, hk] at hread
  exact (Option.some.inj hread).symm

end NaturalKey

namespace Record

/-- A record has a natural key whose parts are its row of values, the values of its columns and,
after the kind, the members of its object. -/
structure HasKey (r : Record) (k : NaturalKey r.kind) : Prop where
  row : r.values = k.values
  columns : r.kind.columns.zip r.values = k.members
  object : r.toJson =
    .object (("kind", .string r.kind.name) :: k.members.map fun m => (m.1, .string m.2))

theorem hasKey_iff {r : Record} {k : NaturalKey r.kind} : r.HasKey k ↔ k.toRecord = r := by
  refine ⟨fun h => NaturalKey.toRecord_eq_iff.mpr h.row.symm, fun h => ?_⟩
  have hrow := NaturalKey.toRecord_eq_iff.mp h
  have hcolumns : r.kind.columns.zip r.values = k.members := by
    rw [← hrow, NaturalKey.members_eq_zip]
  exact ⟨hrow.symm, hcolumns, by rw [← hcolumns]; rfl⟩

theorem ofValues?_eq_none_iff {kind : RecordKind} {values : List String} :
    ofValues? kind values = none ↔ values.length < kind.columns.length := by
  rw [ofValues?, Option.map_eq_none_iff, ← NaturalKey.map_toFact_ofValues?, Option.map_eq_none_iff,
    NaturalKey.ofValues?_eq_none_iff]

theorem ofValues?_eq_some_iff {kind : RecordKind} {values : List String} {r : Record} :
    ofValues? kind values = some r ↔ r.kind = kind ∧ kind.columns.length ≤ values.length ∧
      r.values = values.take kind.columns.length := by
  constructor
  · intro h
    have hlong : kind.columns.length ≤ values.length := by
      by_contra hshort
      rw [ofValues?_eq_none_iff.mpr (not_le.mp hshort)] at h
      cases h
    obtain ⟨k, hk, hvalues⟩ := NaturalKey.exists_ofValues?_eq hlong
    rw [ofValues?, ← NaturalKey.map_toFact_ofValues?, hk] at h
    obtain rfl := Option.some.inj h
    exact ⟨rfl, hlong, hvalues⟩
  · rintro ⟨rfl, hlong, hvalues⟩
    obtain ⟨k, hk, hkey⟩ := NaturalKey.exists_ofValues?_eq hlong
    rw [ofValues?, ← NaturalKey.map_toFact_ofValues?, hk]
    exact congrArg some (NaturalKey.toRecord_eq_iff.mpr (hkey.trans hvalues.symm))

end Record

/-- A list of values gives a record if it is long enough, and the record has the values that the
list begins with; records and natural keys are taken from a list alike. Every record comes back from
its own values, and from its object. It has one natural key: its row, its columns and the members of
its object speak of the same parts, each under a name of its own. -/
theorem records_are_rows_of_values (kind : RecordKind) (values : List String) (r : Record) :
    (Record.ofValues? kind values = none ↔ values.length < kind.columns.length) ∧
    (∀ s, Record.ofValues? kind values = some s ↔ s.kind = kind ∧
      kind.columns.length ≤ values.length ∧ s.values = values.take kind.columns.length) ∧
    Record.ofValues? r.kind r.values = some r ∧
    (Fact.ofValues? kind values).map (Record.mk kind) = Record.ofValues? kind values ∧
    (NaturalKey.ofValues? kind values).map NaturalKey.toFact = Fact.ofValues? kind values ∧
    (∃! k, r.HasKey k) ∧ ("kind" :: r.kind.columns).Nodup ∧
    ∀ depth, Record.decoder (depth + 2) (.ofJson r.toJson) = .ok r := by
  refine ⟨Record.ofValues?_eq_none_iff, fun _ => Record.ofValues?_eq_some_iff,
    Record.ofValues?_values r, rfl, NaturalKey.map_toFact_ofValues? kind values, ?_,
    List.nodup_cons.mpr ⟨Record.kind_not_mem_columns r.kind, Record.nodup_columns r.kind⟩,
    fun depth => (r.spelled_toJson.reads depth).2⟩
  simp only [Record.hasKey_iff]
  exact NaturalKey.existsUnique_toRecord_eq r

end MusicIndex
