import MusicIndex.Proofs.Growth
import MusicIndex.Proofs.LinkLog
import MusicIndex.Proofs.Navigation
import MusicIndex.Proofs.Spelling

namespace MusicIndex

open Json (Decoder FieldSpec Reading Shape)
open Ledger

/-- The names of the operations on the links of a kind: the one that creates a link, and the ones
that list the links of a first end and of a second end. -/
structure LinkOperations where
  create : String
  forward : String
  reverse : String

def LinkOperations.list (o : LinkOperations) : Direction → String
  | .forward => o.forward
  | .reverse => o.reverse

namespace LinkKind

def operations : LinkKind → LinkOperations
  | .performerRecording =>
    ⟨"create_performer_recording_link", "performer_recordings", "recording_performers"⟩
  | .performerSong => ⟨"create_performer_song_link", "performer_songs", "song_performers"⟩
  | .performerRelease =>
    ⟨"create_performer_release_link", "performer_releases", "release_performers"⟩
  | .contributorRecording =>
    ⟨"create_contributor_recording_link", "contributor_recordings", "recording_contributors"⟩
  | .composerWork => ⟨"create_composer_work_link", "composer_works", "work_composers"⟩
  | .publisherWork => ⟨"create_publisher_work_link", "publisher_works", "work_publishers"⟩
  | .recordLabelRecording =>
    ⟨"create_record_label_recording_link", "record_label_recordings", "recording_record_labels"⟩
  | .recordLabelSong =>
    ⟨"create_record_label_song_link", "record_label_songs", "song_record_labels"⟩
  | .recordLabelRelease =>
    ⟨"create_record_label_release_link", "record_label_releases", "release_record_labels"⟩
  | .songRecording => ⟨"create_song_recording_link", "song_recordings", "recording_songs"⟩
  | .releaseRecording =>
    ⟨"create_release_recording_link", "release_recordings", "recording_releases"⟩
  | .recordingWork => ⟨"create_recording_work_link", "recording_works", "work_recordings"⟩
  | .releaseSong => ⟨"create_release_song_link", "release_songs", "song_releases"⟩
  | .organisationSeries =>
    ⟨"create_organisation_series_link", "organisation_series", "series_organisations"⟩
  | .organisationSeason =>
    ⟨"create_organisation_season_link", "organisation_seasons", "season_organisations"⟩
  | .organisationEpisode =>
    ⟨"create_organisation_episode_link", "organisation_episodes", "episode_organisations"⟩
  | .seriesSeason => ⟨"create_series_season_link", "series_seasons", "season_series"⟩
  | .seasonEpisode => ⟨"create_season_episode_link", "season_episodes", "episode_seasons"⟩
  | .episodeSupplemental =>
    ⟨"create_episode_supplemental_link", "episode_supplementals", "supplemental_episodes"⟩

def createdBy? (name : String) : Option LinkKind :=
  all.find? (·.operations.create == name)

theorem operations_eq (kind : LinkKind) : kind.operations =
    ⟨"create_" ++ kind.name ++ "_link", kind.listName .forward, kind.listName .reverse⟩ := by
  cases kind <;> rfl

theorem createdBy?_create (kind : LinkKind) : createdBy? kind.operations.create = some kind := by
  cases kind <;> decide

theorem ofName?_list (kind : LinkKind) (direction : Direction) :
    NamedRead.ofName? (kind.operations.list direction) = some (.links kind direction) := by
  cases kind <;> cases direction <;> decide

end LinkKind

section Members

def LinkAttributes.Input.members :
    {attributes : LinkAttributes} → attributes.Input Binary64 → List (String × Json)
  | .none, () => []
  | .role, role => [("role", .string role)]
  | .roleAndShares, (role, shares) => [("role", .string role), ("shares", shares.toJson)]

namespace TypedLink

variable {kind : LinkKind}

def members (l : TypedLink kind Binary64) : List (String × Json) :=
  [(kind.ends.1.name, l.a.toJson), (kind.ends.2.name, l.b.toJson)] ++ l.attributes.members

/-- The object of a typed link, in whatever way it is written. -/
def Spelled (l : TypedLink kind Binary64) (v : Json) : Prop :=
  v.IsObjectOf l.members ((shape kind).fields.map (·.name))

theorem lawful_shape (kind : LinkKind) : (shape kind).Lawful := by
  constructor <;>
    cases kind <;>
      simp [shape, attributeFields, LinkKind.attributes, roleField, sharesField,
        FieldSpec.fills_of, FieldSpec.apart_of]

theorem find?_ends (kind : LinkKind) :
    (shape kind).fields.find? (·.name == kind.ends.1.name) =
        some (.of kind.ends.1.name Identifier.decoder (·.a) (fun d x => { d with a := x }) false) ∧
      (shape kind).fields.find? (·.name == kind.ends.2.name) =
        some (.of kind.ends.2.name Identifier.decoder (·.b)
          (fun d x => { d with b := x }) false) := by
  cases kind <;> exact ⟨rfl, rfl⟩

theorem find?_attribute (kind : LinkKind) : ∀ f ∈ attributeFields kind.attributes,
    (shape kind).fields.find? (·.name == f.name) = some f := by
  cases kind <;> intro f hf <;>
    simp only [attributeFields, LinkKind.attributes, List.mem_cons, List.not_mem_nil,
      or_false] at hf
  all_goals first
    | (subst hf; rfl)
    | (rcases hf with rfl | rfl <;> rfl)

theorem members_attributes {attributes : LinkAttributes} (input : attributes.Input Binary64)
    (hfind : ∀ f ∈ attributeFields attributes,
      (shape kind).fields.find? (·.name == f.name) = some f)
    (a b : Option Identifier) (depth : Nat) :
    ∃ role shares, (shape kind).members (depth + 2) ⟨a, b, none, none⟩
        (Reading.ofJsonMembers input.members) = .ok ⟨a, b, role, shares⟩ ∧
      LinkAttributes.Input.ofParts attributes (role.getD "") (shares.getD .unknown) = input := by
  cases attributes with
  | none => exact ⟨none, none, rfl, rfl⟩
  | role =>
    have hrole := hfind roleField (List.mem_singleton_self _)
    exact ⟨some input, none, Shape.members_field hrole rfl rfl rfl, rfl⟩
  | roleAndShares =>
    obtain ⟨role, shares⟩ := input
    have hrole := hfind roleField List.mem_cons_self
    have hshares := hfind sharesField (List.mem_cons_of_mem _ (List.mem_singleton_self _))
    obtain ⟨-, hread⟩ := shares.spelled_toJson.reads depth
    refine ⟨some role, some shares, ?_, rfl⟩
    have hfirst : (shape kind).members (depth + 2) ⟨a, b, none, none⟩
        (Reading.ofJsonMembers [("role", .string role)]) = .ok ⟨a, b, some role, none⟩ :=
      Shape.members_field hrole rfl rfl rfl
    exact Shape.members_trans hfirst (Shape.members_field hshares rfl rfl hread)

theorem Spelled.reads {l : TypedLink kind Binary64} {v : Json} (h : l.Spelled v) (depth : Nat) :
    (decoder kind).Reads (depth + 3) l v := by
  obtain ⟨hfirst, hsecond⟩ := find?_ends kind
  obtain ⟨-, ha⟩ := l.a.spelled_toJson.reads depth
  obtain ⟨-, hb⟩ := l.b.spelled_toJson.reads depth
  obtain ⟨role, shares, hattributes, hparts⟩ :=
    members_attributes l.attributes (find?_attribute kind) (some l.a) (some l.b) depth
  have hends : (shape kind).members (depth + 2) (shape kind).blank (Reading.ofJsonMembers
      ([(kind.ends.1.name, l.a.toJson)] ++ [(kind.ends.2.name, l.b.toJson)])) =
        .ok ⟨some l.a, some l.b, none, none⟩ :=
    Shape.members_trans (Shape.members_field hfirst rfl rfl ha)
      (Shape.members_field hsecond rfl rfl hb)
  have hknown := Shape.members_trans hends hattributes
  constructor
  · obtain ⟨ms, -, rfl, -⟩ := h
    nofun
  · rw [decoder, Shape.draft_of_isObjectOf (lawful_shape kind) rfl h hknown]
    change Except.ok (TypedLink.mk l.a l.b (.ofParts _ (role.getD "") (shares.getD .unknown))) = _
    rw [hparts]

end TypedLink

end Members

section Check

namespace LinkAttributes.Input

variable {α : Type} {attributes : LinkAttributes}

theorem role_ne_none (input : attributes.Input α) (h : input.role ≠ Option.none) :
    attributes ≠ .none := by
  rintro rfl
  exact h rfl

theorem shares_ne_none_iff (input : attributes.Input α) :
    input.shares ≠ Option.none ↔ attributes = .roleAndShares := by
  cases attributes with
  | none => exact iff_of_false (absurd rfl) nofun
  | role => exact iff_of_false (absurd rfl) nofun
  | roleAndShares => exact iff_of_true nofun rfl

end LinkAttributes.Input

/-- A refusal for an attribute that does not belong to the kind of a link. -/
def Invalid.IsMisplaced : Invalid → Prop
  | .misplacedRole _ | .misplacedShares _ => True
  | _ => False

theorem Identifier.not_isMisplaced {i : Identifier} {cause : Invalid} (h : i.check = .error cause) :
    ¬ cause.IsMisplaced := by
  unfold check at h
  split at h
  · cases h
    exact id
  · split at h <;> cases h
    exact id

theorem Shares.not_isMisplaced {s : Shares Double} {cause : Invalid} (h : s.check = .error cause) :
    ¬ cause.IsMisplaced := by
  have hshare {share : String × Option Double} (h : checkShare share = .error cause) :
      ¬ cause.IsMisplaced := by
    unfold checkShare at h
    split at h
    · cases h
    · split at h <;> cases h
      exact id
  obtain h | ⟨-, h⟩ := checks_eq_error h
  · exact hshare h
  · obtain h | ⟨-, h⟩ := checks_eq_error h
    · exact hshare h
    · exact hshare h

namespace TypedLink

variable {kind : LinkKind} {l : TypedLink kind Double}

theorem checkRole_toLink (l : TypedLink kind Double) : l.toLink.checkRole = .ok () :=
  Link.checkRole_eq_ok_iff.mpr fun ⟨hnone, h⟩ => LinkAttributes.Input.role_ne_none _ h hnone

theorem improper_toLink_iff : l.toLink.Improper ↔ l.a.Improper ∨ l.b.Improper ∨
    ∃ s, l.attributes.shares = some s ∧ ¬ s.InRange := by
  have hrole : ¬ (kind.attributes = .none ∧ l.attributes.role ≠ none) :=
    fun ⟨hnone, h⟩ => LinkAttributes.Input.role_ne_none _ h hnone
  have hshares : ¬ (kind.attributes ≠ .roleAndShares ∧ l.attributes.shares ≠ none) :=
    fun ⟨hne, h⟩ => hne ((LinkAttributes.Input.shares_ne_none_iff _).mp h)
  have hcarried : (∃ s, l.attributes.shares = some s ∧ ¬ s.InRange) →
      kind.attributes = .roleAndShares := by
    rintro ⟨s, hs, -⟩
    exact (LinkAttributes.Input.shares_ne_none_iff _).mp (by rw [hs]; exact Option.some_ne_none s)
  change _ ∨ _ ∨ (kind.attributes = .none ∧ l.attributes.role ≠ none) ∨
    (kind.attributes ≠ .roleAndShares ∧ l.attributes.shares ≠ none) ∨
    (kind.attributes = .roleAndShares ∧ ∃ s, l.attributes.shares = some s ∧ ¬ s.InRange) ↔ _
  rw [or_iff_right hrole, or_iff_right hshares, and_iff_right_of_imp hcarried]
  rfl

theorem not_isMisplaced {cause : Invalid} (h : l.toLink.check = .error cause) :
    ¬ cause.IsMisplaced := by
  obtain h | ⟨-, h⟩ := checks_eq_error h
  · exact Identifier.not_isMisplaced h
  obtain h | ⟨-, h⟩ := checks_eq_error h
  · exact Identifier.not_isMisplaced h
  obtain h | ⟨-, h⟩ := checks_eq_error h
  · rw [checkRole_toLink] at h
    cases h
  · unfold Link.checkShares at h
    split at h
    · exact Shares.not_isMisplaced h
    · rename_i shares hs hcarried
      refine absurd ((LinkAttributes.Input.shares_ne_none_iff l.attributes).mp ?_) hcarried
      rw [show l.attributes.shares = some shares from hs]
      exact Option.some_ne_none shares
    · cases h

theorem shares_of_answersLink {x : Index} {source : String} {stored : StoredLink}
    (h : ¬ l.toLink.Improper) (hanswer : AnswersLink x ⟨l.toLink.finite, source⟩ stored) :
    stored.shares.map .given = l.attributes.shares := by
  have hkind : stored.kind = kind := hanswer.kind
  have hcarried := LinkAttributes.Input.shares_ne_none_iff l.attributes
  rw [hanswer.shares, hkind]
  cases hs : l.attributes.shares with
  | none =>
    rw [if_neg fun hk => hcarried.mpr hk hs]
    rfl
  | some s =>
    have hk : kind.attributes = .roleAndShares := hcarried.mp (by rw [hs]; exact nofun)
    have hrange : s.InRange := by
      by_contra hn
      exact h (improper_toLink_iff.mpr (.inr (.inr ⟨s, hs, hn⟩)))
    have hfinite : l.toLink.finite.shares = some s.finite := congrArg (Option.map Shares.finite) hs
    rw [if_pos hk, hfinite]
    exact congrArg some hrange.given_finite

end TypedLink

end Check

section Lists

namespace Index

variable {x y : Index} {kind : LinkKind}

/-- The list of a name, if it is one of links. -/
def linksNamed (x : Index) (name : String) (id : Nat) : Option (List StoredLink) :=
  match NamedRead.ofName? name with
  | some (.links kind direction) => some (x.linksOf kind direction id)
  | _ => none

theorem linksNamed_list (x : Index) (kind : LinkKind) (direction : Direction) (id : Nat) :
    x.linksNamed (kind.operations.list direction) id = some (x.linksOf kind direction id) := by
  rw [linksNamed, LinkKind.ofName?_list]

/-- The links of a kind are listed as before if its rows are the same and all identifiers are still
known. -/
theorem linksOf_eq_of_links (hx : x.Sound) (hlinks : y.links kind = x.links kind)
    (hknown : ∀ {id i}, x.identifiers.get? id = some i → y.identifiers.get? id = some i)
    (direction : Direction) (id : Nat) :
    y.linksOf kind direction id = x.linksOf kind direction id := by
  have hidentifier {id : Nat} {i : StoredIdentifier} (h : x.identifier? id = some i) :
      y.identifier? id = some i := by
    obtain ⟨i, hi, rfl⟩ := Option.map_eq_some_iff.mp h
    exact Option.map_eq_some_iff.mpr ⟨i, hknown hi, rfl⟩
  rw [linksOf, linksOf, hlinks]
  -- a row is reported as soon as its ends are known, and these were known before
  apply List.filterMap_congr
  intro row hrow
  obtain ⟨l, hl⟩ := hx.exists_link hrow
  have hl' : y.storedLink? kind row = some l := by
    obtain ⟨a, ha, h⟩ := Option.bind_eq_some_iff.mp hl
    obtain ⟨b, hb, h⟩ := Option.bind_eq_some_iff.mp h
    exact Option.bind_eq_some_iff.mpr
      ⟨a, hidentifier ha, Option.bind_eq_some_iff.mpr ⟨b, hidentifier hb, h⟩⟩
  rw [hl, hl']

end Index

namespace Ledger

variable {log : List Call} {c : Call}

theorem linksOf_snoc_of_ne {kind : LinkKind}
    (h : ∀ f, c.link? = some f → f.link.kind ≠ kind) (direction : Direction) (id : Nat) :
    (index (log ++ [c])).linksOf kind direction id = (index log).linksOf kind direction id :=
  Index.linksOf_eq_of_links (sound_index log) (linkTable_snoc_of_ne h)
    (grows_append log [c]).identifiers.get? direction id

end Ledger

end Lists

namespace Index

variable {x : Index} {kind : LinkKind}

theorem createTypedLink_cases (hx : x.Reachable) (l : TypedLink kind Double) (source : String) :
    ((l.toLink.Improper ∨ Text.Blank source) ∧
        ∃ cause, (createTypedLink l source).attempt x = (.error (.invalid cause), x)) ∨
      (¬ (l.toLink.Improper ∨ Text.Blank source) ∧
        ∃ stored y, (createTypedLink l source).attempt x = (.ok stored, y) ∧
          stored.a.identifier = l.a ∧ stored.b.identifier = l.b ∧
          AnswersLink y ⟨l.toLink.finite, source⟩ stored ∧
          ∀ other ≠ kind, ∀ direction id,
            y.linksOf other direction id = x.linksOf other direction id) := by
  obtain ⟨log, -, rfl⟩ := hx.exists_log
  have hcall := attempt_map Answer.link (createTypedLink l source) (index log)
  rcases hw : (createTypedLink l source).attempt (index log) with ⟨r, y⟩
  rw [hw] at hcall
  by_cases hc : (Call.createTypedLink l source).Improper
  · obtain ⟨cause, he⟩ := attempt_of_improper log hc
    obtain ⟨hr, rfl⟩ := Prod.mk.inj (hcall.symm.trans he)
    cases r with
    | ok stored => cases hr
    | error e =>
      cases hr
      exact .inl ⟨hc, cause, rfl⟩
  · obtain ⟨hr, rfl⟩ := Prod.mk.inj (hcall.symm.trans (attempt_of_proper hc))
    cases r with
    | error e => cases hr
    | ok stored =>
      cases hr
      have hfinite := Link.proper_finite (not_or.mp hc).1
      refine .inr ⟨hc, _, _, rfl, rfl, rfl, answersLink_storedLink rfl hfinite, ?_⟩
      intro other hother direction id
      exact linksOf_snoc_of_ne (fun f hf => by cases hf; exact hother.symm) direction id

end Index

/-- The operations on the links of a kind are named for the ends of the kind, and a typed link is
read with its ends under these names. To create it is to create the link of that kind with those
ends. No attribute is ever misplaced, so this fails only for a blank end, a share that is no
percentage, such as an infinite one, or a blank source. The shares are answered as they were given.
The link is then listed once under each of its ends by the lists of its kind, just as it was
answered except for the sign of zero shares; the lists of other kinds stay as they are. -/
theorem typed_link_is_created_as_link {x : Index} (hx : x.Reachable) (kind : LinkKind)
    (l : TypedLink kind Double) (source : String) :
    let link : Link Double := ⟨kind, l.a, l.b, l.attributes.role, l.attributes.shares⟩
    let created := (Index.createTypedLink l source).attempt x
    let y := created.2
    kind.operations =
        ⟨"create_" ++ kind.name ++ "_link", kind.listName .forward, kind.listName .reverse⟩ ∧
      LinkKind.createdBy? kind.operations.create = some kind ∧
      (∀ (written : TypedLink kind Binary64) depth v, written.Spelled v →
        (TypedLink.decoder kind).Reads (depth + 3) written v) ∧
      created = (Index.createLink link source).attempt x ∧
      (∀ cause, link.check = .error cause → ¬ cause.IsMisplaced) ∧
      ((∃ e, created.1 = .error e) ↔ l.a.Improper ∨ l.b.Improper ∨
        (∃ s, l.attributes.shares = some s ∧ ¬ s.InRange) ∨ Text.Blank source) ∧
      (∀ e, created.1 = .error e → ∃ cause, e = .invalid cause) ∧
      (∀ stored, created.1 = .ok stored →
        stored.kind = kind ∧ stored.a.identifier = l.a ∧ stored.b.identifier = l.b ∧
        stored.shares.map .given = l.attributes.shares ∧
        (∃ rows, y.linksNamed kind.operations.forward stored.a.id = some rows ∧
          rows.filter (·.id = stored.id) = [{ stored with shares := stored.shares.map .kept }]) ∧
        ∃ rows, y.linksNamed kind.operations.reverse stored.b.id = some rows ∧
          rows.filter (·.id = stored.id) = [{ stored with shares := stored.shares.map .kept }]) ∧
      ∀ other ≠ kind, ∀ direction id,
        y.linksNamed (other.operations.list direction) id =
          x.linksNamed (other.operations.list direction) id := by
  intro link created y
  have hcreated : created = (Index.createLink link source).attempt x :=
    congrArg (·.attempt x) (Index.createTypedLink_eq l source)
  have himproper : (link.Improper ∨ Text.Blank source) ↔ l.a.Improper ∨ l.b.Improper ∨
      (∃ s, l.attributes.shares = some s ∧ ¬ s.InRange) ∨ Text.Blank source := by
    rw [show link.Improper ↔ _ from TypedLink.improper_toLink_iff, or_assoc, or_assoc]
  refine ⟨kind.operations_eq, kind.createdBy?_create, fun _ depth v h => h.reads depth, hcreated,
    fun cause h => TypedLink.not_isMisplaced (l := l) h, ?_⟩
  rw [← himproper]
  obtain ⟨hbad, cause, hattempt⟩ | ⟨hgood, stored, z, hattempt, ha, hb, hanswer, hframe⟩ :=
    Index.createTypedLink_cases hx l source
  · have hy : y = x := congrArg Prod.snd hattempt
    have hr : created.1 = .error (.invalid cause) := congrArg Prod.fst hattempt
    rw [hy, hr]
    refine ⟨iff_of_true ⟨_, rfl⟩ hbad, ?_, ?_, ?_⟩
    · rintro e ⟨⟩
      exact ⟨cause, rfl⟩
    · rintro _ ⟨⟩
    · exact fun _ _ _ _ => rfl
  · have hy : y = z := congrArg Prod.snd hattempt
    have hr : created.1 = .ok stored := congrArg Prod.fst hattempt
    rw [hy, hr]
    refine ⟨iff_of_false nofun hgood, nofun, ?_, ?_⟩
    · rintro _ ⟨⟩
      have hshares := TypedLink.shares_of_answersLink (not_or.mp hgood).1 hanswer
      obtain rfl : stored.kind = kind := hanswer.kind
      exact ⟨rfl, ha, hb, hshares, ⟨_, z.linksNamed_list stored.kind .forward _,
        hanswer.listed .forward⟩, _, z.linksNamed_list stored.kind .reverse _,
        hanswer.listed .reverse⟩
    · intro other hother direction id
      rw [Index.linksNamed_list, Index.linksNamed_list, hframe other hother]

/-- A publisher's link is created beside a composer's, whose list it leaves alone; with an infinite
share it is refused. -/
theorem typed_publisher_link_is_created :
    let typed (share : Option Double) : TypedLink .publisherWork Double :=
      ⟨⟨"isni", "1"⟩, ⟨"iswc", "2"⟩, ("E", ⟨share, none, none⟩)⟩
    let composed : Link Double := ⟨.composerWork, ⟨"ipi", "3"⟩, ⟨"iswc", "2"⟩, none, none⟩
    let x := Index.empty.after [.createLink composed "labels"]
    let created := (Index.createTypedLink (typed none) "labels").attempt x
    let refused := (Index.createTypedLink (typed (some (.infinite true))) "labels").attempt x
    x.Reachable ∧ (∃ stored, created.1 = .ok stored ∧ stored.b.identifier = ⟨"iswc", "2"⟩ ∧
      (stored.shares.map .given : Option (Shares Double)) = some .unknown) ∧
      (∀ id, created.2.linksNamed "work_composers" id = x.linksNamed "work_composers" id) ∧
      ∃ e, refused.1 = .error e := by
  intro typed composed x created refused
  have hx : x.Reachable := .call _ .empty
  obtain ⟨-, -, -, -, -, hfails, -, hlisted, hframe⟩ :=
    typed_link_is_created_as_link hx .publisherWork (typed none) "labels"
  obtain ⟨-, -, -, -, -, hrefused, -⟩ :=
    typed_link_is_created_as_link hx .publisherWork (typed (some (.infinite true))) "labels"
  refine ⟨hx, ?_, hframe .composerWork (by decide) .reverse, hrefused.mpr ?_⟩
  · cases hr : created.1 with
    | ok stored =>
      obtain ⟨-, -, hb, hshares, -⟩ := hlisted stored hr
      exact ⟨stored, rfl, hb, hshares⟩
    | error e =>
      obtain ha | hb | ⟨s, hs, hrange⟩ | hsource := hfails.mp ⟨e, hr⟩
      · exact absurd ha (by decide)
      · exact absurd hb (by decide)
      · cases hs
        exact absurd Shares.inRange_unknown hrange
      · exact absurd hsource (by decide)
  · refine .inr (.inr (.inl ⟨_, rfl, fun hrange => ?_⟩))
    exact hrange "performance" (.infinite true) (.head _)

end MusicIndex
