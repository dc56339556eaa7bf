namespace MusicIndex

inductive RecordKind where
  | performer
  | contributor
  | composer
  | recordLabel
  | publisher
  | recording
  | work
  | song
  | release
  | organisation
  | series
  | season
  | episode
  | supplemental
deriving DecidableEq

namespace RecordKind

instance : Inhabited RecordKind := ⟨.performer⟩

def all : List RecordKind :=
  [.performer, .contributor, .composer, .recordLabel, .publisher, .recording, .work, .song,
    .release, .organisation, .series, .season, .episode, .supplemental]

def name : RecordKind → String
  | .performer => "performer"
  | .contributor => "contributor"
  | .composer => "composer"
  | .recordLabel => "record_label"
  | .publisher => "publisher"
  | .recording => "recording"
  | .work => "work"
  | .song => "song"
  | .release => "release"
  | .organisation => "organisation"
  | .series => "series"
  | .season => "season"
  | .episode => "episode"
  | .supplemental => "supplemental"

def plural : RecordKind → String
  | .series => "series"
  | kind => kind.name ++ "s"

def title : RecordKind → String
  | .performer => "Performer"
  | .contributor => "Contributor"
  | .composer => "Composer"
  | .recordLabel => "RecordLabel"
  | .publisher => "Publisher"
  | .recording => "Recording"
  | .work => "Work"
  | .song => "Song"
  | .release => "Release"
  | .organisation => "Organisation"
  | .series => "Series"
  | .season => "Season"
  | .episode => "Episode"
  | .supplemental => "Supplemental"

/-- The columns of the natural key, in order. -/
def columns : RecordKind → List String
  | .composer => ["first_name", "last_name"]
  | .recording | .song => ["title", "duration"]
  | .work => ["title"]
  | .release => ["type", "title", "date"]
  | _ => ["name"]

def ofName? (name : String) : Option RecordKind :=
  all.find? (·.name == name)

theorem mem_all (kind : RecordKind) : kind ∈ all := by
  cases kind <;> decide

theorem columns_ne_nil (kind : RecordKind) : kind.columns ≠ [] := by
  cases kind <;> decide

theorem ofName?_name (kind : RecordKind) : ofName? kind.name = some kind := by
  cases kind <;> decide

theorem name_inj {k l : RecordKind} : k.name = l.name ↔ k = l := by
  refine ⟨fun h => ?_, congrArg name⟩
  rw [← Option.some.injEq, ← ofName?_name, h, ofName?_name]

end RecordKind

end MusicIndex
