import MusicIndex.Feed.Entry
import MusicIndex.Proofs.Spelling
import MusicIndex.Proofs.TextReading

namespace MusicIndex

open Json (Decoder Reading Shape)

section Text

theorem trimmed_eq {first last : Char} (hfirst : Text.isBlank first = false)
    (hlast : Text.isBlank last = false) (cs : List Char) :
    Text.trimmed (first :: (cs ++ [last])) = first :: (cs ++ [last]) := by
  simp [Text.trimmed, hfirst, hlast]

theorem exists_membersFrom (isFirst : Bool) (ms : List (String × Json)) :
    ∃ cs, Json.membersFrom isFirst ms = cs ++ ['\x7d'] := by
  induction ms generalizing isFirst with
  | nil => exact ⟨[], rfl⟩
  | cons m ms ih =>
    obtain ⟨cs, hcs⟩ := ih false
    obtain ⟨name, v⟩ := m
    exact ⟨Json.separator isFirst ++ (Json.stringText name ++ ':' :: (Json.compact v ++ cs)),
      by simp [Json.membersFrom, hcs]⟩

theorem text_compact {α : Type} (decoder : Decoder α) {v : Json} (hv : v.Legible) :
    decoder.text (String.ofList (Json.compact v)) = decoder Decoder.maxDepth (.ofJson v) := by
  rw [Decoder.text, String.toList_ofList, Reading.ofText_compact hv]
  exact bind_pure _

end Text

namespace FeedEntry

def parts (e : FeedEntry) : Parts :=
  match e.fact with
  | .record record identifier => ⟨some record, some identifier, none, e.source⟩
  | .link link => ⟨none, none, some link, e.source⟩

def members (e : FeedEntry) : List (String × Json) :=
  (match e.fact with
    | .record record identifier =>
      [("record", record.toJson), ("identifier", identifier.toJson)]
    | .link link => [("link", link.toJson)]) ++
  match e.source with
  | none => []
  | some source => [("source", .string source)]

def numbers (e : FeedEntry) : List Binary64 :=
  match e.fact with
  | .record _ _ => []
  | .link link => (link.shares.getD .unknown).named.filterMap (·.2)

/-- The members of an entry, in whatever way they are written. -/
def Spelled (e : FeedEntry) (ms : List (String × Json)) : Prop :=
  ∃ record identifier link source,
    Json.IsOptional "record" Record.Spelled e.parts.record record ∧
    Json.IsOptional "identifier" Identifier.Spelled e.parts.identifier identifier ∧
    Json.IsOptional "link" Link.Spelled e.parts.link link ∧
    Json.IsOptional "source" (fun s v => v = .string s) e.parts.source source ∧
    ms.Perm (record ++ identifier ++ link ++ source)

variable {e : FeedEntry} {ms : List (String × Json)}

theorem ofParts_parts (h : ∀ s, e.source = some s → Text.allBlank s = false) :
    ofParts e.parts = .ok e := by
  obtain ⟨fact, source⟩ := e
  have hblank : source.any Text.allBlank = false := by
    cases source with
    | none => rfl
    | some s => exact h s rfl
  cases fact <;> simp [parts, ofParts, Parts.fact, hblank, bind, Except.bind, pure, Except.pure]

theorem spelled_members (e : FeedEntry) : e.Spelled e.members := by
  obtain ⟨fact, source⟩ := e
  have hsource : ∃ ms, Json.IsOptional "source" (fun s v => v = .string s) source ms ∧
      (match source with
        | none => []
        | some source => [("source", Json.string source)]) = ms := by
    cases source with
    | none => exact ⟨[], .inl rfl, rfl⟩
    | some s => exact ⟨_, ⟨_, rfl, rfl⟩, rfl⟩
  obtain ⟨ms, hms, heq⟩ := hsource
  cases fact with
  | record record identifier =>
    refine ⟨_, _, [], ms, ⟨_, record.spelled_toJson, rfl⟩, ⟨_, identifier.spelled_toJson, rfl⟩,
      .inl rfl, hms, ?_⟩
    rw [← heq]
    exact .refl _
  | link link =>
    refine ⟨[], [], _, ms, .inl rfl, .inl rfl, ⟨_, link.spelled_toJson, rfl⟩, hms, ?_⟩
    rw [← heq]
    exact .refl _

theorem lawful_shape : shape.Lawful := by
  constructor
  · simp [shape, Json.FieldSpec.fills_of]
  · simp [shape, Json.FieldSpec.apart_of]

theorem Spelled.members_eq_ok (h : e.Spelled ms) (depth : Nat) :
    ∃ d : Draft, shape.members (depth + 3) shape.blank (Reading.ofJsonMembers ms) = .ok d ∧
      (⟨d.record.join, d.identifier.join, d.link.join, d.source.join⟩ : Parts) = e.parts := by
  obtain ⟨record, identifier, link, source, hr, hi, hl, hs, hperm⟩ := h
  obtain ⟨r, hr', hr⟩ : ∃ x, x.join = e.parts.record ∧
      shape.members (depth + 3) ⟨none, none, none, none⟩ (Reading.ofJsonMembers record) =
        .ok ⟨x, none, none, none⟩ :=
    Shape.members_optional (t := fun x => Draft.mk x none none none) rfl rfl rfl (fun _ => rfl)
      (fun _ _ h => Record.Spelled.reads h (depth + 1)) hr
  obtain ⟨i, hi', hi⟩ : ∃ x, x.join = e.parts.identifier ∧
      shape.members (depth + 3) ⟨r, none, none, none⟩ (Reading.ofJsonMembers identifier) =
        .ok ⟨r, x, none, none⟩ :=
    Shape.members_optional (t := fun x => Draft.mk r x none none) rfl rfl rfl (fun _ => rfl)
      (fun _ _ h => Identifier.Spelled.reads h (depth + 1)) hi
  obtain ⟨l, hl', hl⟩ : ∃ x, x.join = e.parts.link ∧
      shape.members (depth + 3) ⟨r, i, none, none⟩ (Reading.ofJsonMembers link) =
        .ok ⟨r, i, x, none⟩ :=
    Shape.members_optional (t := fun x => Draft.mk r i x none) rfl rfl rfl (fun _ => rfl)
      (fun _ _ h => Link.Spelled.reads h depth) hl
  obtain ⟨s, hs', hs⟩ : ∃ x, x.join = e.parts.source ∧
      shape.members (depth + 3) ⟨r, i, l, none⟩ (Reading.ofJsonMembers source) =
        .ok ⟨r, i, l, x⟩ :=
    Shape.members_optional (t := fun x => Draft.mk r i l x) rfl rfl rfl (fun _ => rfl)
      (Json.reads_string _) hs
  have hknown : shape.members (depth + 3) shape.blank (Reading.ofJsonMembers
      (record ++ identifier ++ link ++ source)) = .ok ⟨r, i, l, s⟩ :=
    Shape.members_trans (Shape.members_trans (Shape.members_trans hr hi) hl) hs
  refine ⟨⟨r, i, l, s⟩, Shape.members_perm lawful_shape hperm.symm hknown, ?_⟩
  rw [hr', hi', hl', hs']

theorem parse_object [Json.Places] (hlegible : (Json.object ms).Legible) :
    parse (Json.compact (.object ms)) =
      match shape.members 127 shape.blank (Reading.ofJsonMembers ms) with
      | .error fault => .error (.ofText (String.ofList (Json.compact (.object ms))) fault)
      | .ok d =>
        match ofParts ⟨d.record.join, d.identifier.join, d.link.join, d.source.join⟩ with
        | .error cause => .error (.invalid cause)
        | .ok entry => .ok (some entry) := by
  obtain ⟨cs, hcs⟩ := exists_membersFrom true ms
  have htext : Json.compact (.object ms) = '\x7b' :: (cs ++ ['\x7d']) := by
    rw [Json.compact, Json.compactMembers_eq, hcs]
  have htrimmed : Text.trimmed (Json.compact (.object ms)) = Json.compact (.object ms) := by
    rw [htext]
    exact trimmed_eq (by decide) (by decide) cs
  have hread : decoder.text (String.ofList (Json.compact (.object ms))) =
      (shape.members 127 shape.blank (Reading.ofJsonMembers ms)).map fun d =>
        ⟨d.record.join, d.identifier.join, d.link.join, d.source.join⟩ := by
    rw [text_compact decoder hlegible]
    change (shape.members 127 shape.blank (Reading.ofJsonMembers ms) >>= _) = _
    cases shape.members 127 shape.blank (Reading.ofJsonMembers ms) <;> rfl
  rw [parse, htrimmed]
  split
  · rename_i hnil
    rw [htext] at hnil
    cases hnil
  · rename_i hcomment
    rw [htext] at hcomment
    cases hcomment
  · rw [hread]
    cases shape.members 127 shape.blank (Reading.ofJsonMembers ms) <;> rfl

section Legible

variable {α : Type}

theorem legible_ofOption {f : α → Json} {o : Option α} (h : ∀ a, o = some a → (f a).Legible) :
    (Json.ofOption f o).Legible := by
  cases o with
  | none => trivial
  | some a => exact h a rfl

theorem legible_strings (members : List (String × String)) :
    (Json.object (members.map fun m => (m.1, .string m.2))).Legible := by
  refine Json.legible_object.mpr fun m hm => ?_
  obtain ⟨c, -, rfl⟩ := List.mem_map.mp hm
  trivial

theorem legible_identifier (i : Identifier) : i.toJson.Legible :=
  legible_strings [("type", i.scheme), ("value", i.value)]

theorem legible_record (r : Record) : r.toJson.Legible :=
  legible_strings (("kind", r.kind.name) :: r.members)

theorem legible_shares {s : Shares Binary64}
    (h : ∀ x ∈ s.named.filterMap (·.2), (Json.real x).Legible) : s.toJson.Legible := by
  refine Json.legible_object.mpr fun m hm => ?_
  obtain ⟨c, hc, rfl⟩ := List.mem_map.mp hm
  exact legible_ofOption fun x hx => h x (List.mem_filterMap.mpr ⟨c, hc, hx⟩)

theorem legible_link {l : Link Binary64}
    (h : ∀ x ∈ (l.shares.getD .unknown).named.filterMap (·.2), (Json.real x).Legible) :
    l.toJson.Legible := by
  have hrole : (Json.ofOption Json.string l.role).Legible := legible_ofOption fun _ _ => trivial
  have hshares : (Json.ofOption Shares.toJson l.shares).Legible := by
    refine legible_ofOption fun s hs => legible_shares ?_
    rwa [hs] at h
  simp [Link.toJson, legible_identifier, hrole, hshares]

theorem legible_members (h : ∀ x ∈ e.numbers, (Json.real x).Legible) :
    (Json.object e.members).Legible := by
  obtain ⟨fact, source⟩ := e
  refine Json.legible_object.mpr (List.forall_mem_append.mpr ⟨?_, ?_⟩)
  · cases fact with
    | record record identifier => simp [legible_record, legible_identifier]
    | link link => simp [legible_link h]
  · cases source with
    | none => simp
    | some s => simp

end Legible

/-- However an entry is spelled, its text is read as that entry: the members of each object may come
in any order, one that is absent may be null or left out, and scalars under other names may stand
inside its objects. A member that an entry does not have is refused, wherever it stands. -/
theorem entry_is_read_however_spelled [Json.Places] (e : FeedEntry)
    (hsource : ∀ s, e.source = some s → Text.allBlank s = false) :
    e.Spelled e.members ∧
      ((∀ x ∈ e.numbers, (Json.real x).Legible) → (Json.object e.members).Legible) ∧
      ∀ ms, e.Spelled ms →
        ((Json.object ms).Legible → parse (Json.compact (.object ms)) = .ok (some e)) ∧
        ∀ before after name v, ms = before ++ after →
          name ∉ ["record", "identifier", "link", "source"] →
          (Json.object (before ++ (name, v) :: after)).Legible →
          parse (Json.compact (.object (before ++ (name, v) :: after))) =
            .error (.ofText (String.ofList (Json.compact (.object (before ++ (name, v) :: after))))
              (.unknownField name ["record", "identifier", "link", "source"])) := by
  refine ⟨spelled_members e, legible_members, fun ms hms => ?_⟩
  obtain ⟨d, hread, hparts⟩ := hms.members_eq_ok 124
  refine ⟨fun hlegible => ?_, ?_⟩
  · rw [parse_object hlegible, hread]
    dsimp only
    rw [hparts, ofParts_parts hsource]
  · rintro before after name v rfl hname hlegible
    rw [parse_object hlegible, Shape.members_refused rfl hname hread]
    rfl

/-- A link whose members stand in reverse, with a note and a number that no structure knows, is read
as that link; the same note beside it is refused. -/
theorem scrambled_link_is_read :
    let share : Binary64 := ⟨false, 4632233691727265792, by decide⟩
    let shares : Shares Binary64 := ⟨none, some share, none⟩
    let payee : Identifier := ⟨"isni", "\"5\"\n\u001f\u00e9"⟩
    let work : Identifier := ⟨"iswc", "T-1"⟩
    let e : FeedEntry := ⟨.link ⟨.publisherWork, payee, work, none, some shares⟩, some "press"⟩
    let sharesJson := Json.object [("page", .integer (-7)), ("mechanical", .real share),
      ("performance", .null)]
    let linkJson := Json.object [("note", .string "?"), ("shares", sharesJson), ("role", .null),
      ("b", work.toJson), ("a", payee.toJson), ("kind", .string "publisher_work")]
    let ms := [("source", .string "press"), ("link", linkJson), ("record", .null)]
    Text.allBlank "press" = false ∧ e.Spelled ms ∧
      parse (Json.compact (.object ms)) = .ok (some e) ∧
      parse (Json.compact (.object (ms ++ [("note", .string "?")]))) =
        .error (.ofText (String.ofList (Json.compact (.object (ms ++ [("note", .string "?")]))))
          (.unknownField "note" ["record", "identifier", "link", "source"])) := by
  intro share shares payee work e sharesJson linkJson ms
  have hreal : (Json.real share).Legible := Json.readsBack_iff.mp (by decide +kernel)
  have hshares : shares.Spelled sharesJson :=
    ⟨_, _, _, .inr rfl, ⟨_, rfl, rfl⟩, .inl rfl, _, [("page", .integer (-7))], rfl,
      List.reverse_perm [_, _, _], by simp [Json.isScalar]⟩
  have hlink : Link.Spelled ⟨.publisherWork, payee, work, none, some shares⟩ linkJson :=
    ⟨_, _, _, _, payee.spelled_toJson, work.spelled_toJson, .inr rfl, ⟨_, hshares, rfl⟩, _,
      [("note", .string "?")], rfl, List.reverse_perm [_, _, _, _, _, _],
      by simp [Json.isScalar]⟩
  have hspelled : e.Spelled ms :=
    ⟨_, _, _, _, .inr rfl, .inl rfl, ⟨_, hlink, rfl⟩, ⟨_, rfl, rfl⟩,
      List.reverse_perm [_, _, _]⟩
  have hlegible : ∀ m ∈ ms, m.2.Legible := by
    have hpage : (Json.integer (-7)).Legible := ⟨by decide, by decide⟩
    simp [ms, linkJson, sharesJson, legible_identifier, hreal, hpage]
  obtain ⟨-, -, hread⟩ := entry_is_read_however_spelled e fun s hs => by
    cases hs
    decide
  obtain ⟨hparse, hrefused⟩ := hread ms hspelled
  refine ⟨by decide, hspelled, hparse (Json.legible_object.mpr hlegible), ?_⟩
  refine hrefused ms [] "note" (.string "?") (List.append_nil ms).symm (by decide) ?_
  refine Json.legible_object.mpr (List.forall_mem_append.mpr ⟨hlegible, ?_⟩)
  exact List.forall_mem_singleton.mpr trivial

end FeedEntry

end MusicIndex
