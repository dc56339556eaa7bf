import MusicIndex.Entity.RecordKind

namespace MusicIndex

/-- What the links of a kind carry beside their two ends. -/
inductive LinkAttributes where
  | none
  | role
  | roleAndShares
deriving DecidableEq

/-- Along a link or against it: from its first end to its second, or back. -/
inductive Direction where
  | forward
  | reverse
deriving DecidableEq

namespace Direction

def name : Direction → String
  | .forward => "forward"
  | .reverse => "reverse"

def ofName? (name : String) : Option Direction :=
  [forward, reverse].find? (·.name == name)

def opposite : Direction → Direction
  | .forward => .reverse
  | .reverse => .forward

theorem name_inj {d e : Direction} : d.name = e.name ↔ d = e := by
  cases d <;> cases e <;> decide

end Direction

inductive LinkKind where
  | performerRecording
  | performerSong
  | performerRelease
  | contributorRecording
  | composerWork
  | publisherWork
  | recordLabelRecording
  | recordLabelSong
  | recordLabelRelease
  | songRecording
  | releaseRecording
  | recordingWork
  | releaseSong
  | organisationSeries
  | organisationSeason
  | organisationEpisode
  | seriesSeason
  | seasonEpisode
  | episodeSupplemental
deriving DecidableEq

namespace LinkKind

instance : Inhabited LinkKind := ⟨.performerRecording⟩

def all : List LinkKind :=
  [.performerRecording, .performerSong, .performerRelease, .contributorRecording, .composerWork,
    .publisherWork, .recordLabelRecording, .recordLabelSong, .recordLabelRelease, .songRecording,
    .releaseRecording, .recordingWork, .releaseSong, .organisationSeries, .organisationSeason,
    .organisationEpisode, .seriesSeason, .seasonEpisode, .episodeSupplemental]

def ends : LinkKind → RecordKind × RecordKind
  | .performerRecording => (.performer, .recording)
  | .performerSong => (.performer, .song)
  | .performerRelease => (.performer, .release)
  | .contributorRecording => (.contributor, .recording)
  | .composerWork => (.composer, .work)
  | .publisherWork => (.publisher, .work)
  | .recordLabelRecording => (.recordLabel, .recording)
  | .recordLabelSong => (.recordLabel, .song)
  | .recordLabelRelease => (.recordLabel, .release)
  | .songRecording => (.song, .recording)
  | .releaseRecording => (.release, .recording)
  | .recordingWork => (.recording, .work)
  | .releaseSong => (.release, .song)
  | .organisationSeries => (.organisation, .series)
  | .organisationSeason => (.organisation, .season)
  | .organisationEpisode => (.organisation, .episode)
  | .seriesSeason => (.series, .season)
  | .seasonEpisode => (.season, .episode)
  | .episodeSupplemental => (.episode, .supplemental)

def attributes : LinkKind → LinkAttributes
  | .performerRecording | .performerSong | .performerRelease | .contributorRecording => .role
  | .composerWork | .publisherWork => .roleAndShares
  | _ => .none

def name (kind : LinkKind) : String :=
  kind.ends.1.name ++ "_" ++ kind.ends.2.name

def title (kind : LinkKind) : String :=
  kind.ends.1.title ++ kind.ends.2.title ++ "Link"

def endColumns (kind : LinkKind) : String × String :=
  (kind.ends.1.name ++ "_identifier", kind.ends.2.name ++ "_identifier")

def ofName? (name : String) : Option LinkKind :=
  all.find? (·.name == name)

def nearKind (kind : LinkKind) : Direction → RecordKind
  | .forward => kind.ends.1
  | .reverse => kind.ends.2

def farKind (kind : LinkKind) (direction : Direction) : RecordKind :=
  kind.nearKind direction.opposite

def touching (near : RecordKind) : List (LinkKind × Direction) :=
  all.flatMap fun kind =>
    [(kind, Direction.forward), (kind, Direction.reverse)].filter fun (kind, direction) =>
      kind.nearKind direction == near

def listName (kind : LinkKind) (direction : Direction) : String :=
  (kind.nearKind direction).name ++ "_" ++ (kind.farKind direction).plural

theorem mem_all (kind : LinkKind) : kind ∈ all := by
  cases kind <;> decide

theorem ofName?_name (kind : LinkKind) : ofName? kind.name = some kind := by
  cases kind <;> decide

theorem name_inj {k l : LinkKind} : k.name = l.name ↔ k = l := by
  refine ⟨fun h => ?_, congrArg name⟩
  rw [← Option.some.injEq, ← ofName?_name, h, ofName?_name]

theorem nearKind_ne_farKind (kind : LinkKind) (direction : Direction) :
    kind.nearKind direction ≠ kind.farKind direction := by
  cases kind <;> cases direction <;> decide

theorem mem_touching {near : RecordKind} {kind : LinkKind} {direction : Direction} :
    (kind, direction) ∈ touching near ↔ kind.nearKind direction = near := by
  cases direction <;> simp [touching, mem_all]

theorem attributes_eq_roleAndShares_iff {kind : LinkKind} :
    kind.attributes = .roleAndShares ↔ kind = .composerWork ∨ kind = .publisherWork := by
  cases kind <;> decide

end LinkKind

end MusicIndex
