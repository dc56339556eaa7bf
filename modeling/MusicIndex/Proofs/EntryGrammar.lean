import MusicIndex.Proofs.EntrySpelling
import MusicIndex.Proofs.Validity

namespace MusicIndex

namespace Json

/-- A value says what an absent or present thing is: null, or what is read from it. -/
def Holds {α : Type} (decoder : Decoder α) (depth : Nat) (r : Reading) : Option α → Prop
  | none => r = .null
  | some a => r ≠ .null ∧ decoder depth r = .ok a

/-- What members say under a name that may be left out. -/
def Says {α : Type} (decoder : Decoder α) (depth : Nat) (name : String)
    (ms : List (String × Reading)) : Option α → Prop
  | none => ∀ r, (name, r) ∈ ms → Holds decoder depth r none
  | some a => ∃ r, (name, r) ∈ ms ∧ Holds decoder depth r (some a)

def named (ms : List (String × Reading)) : List (Reading × Reading) :=
  ms.map fun m => (.string m.1, m.2)

def under (name : String) (ms : List (String × Reading)) : List Reading :=
  (ms.filter fun m => m.1 = name).map (·.2)

/-- What becomes of the place of a field: it is left as it is, or filled by the only value. -/
inductive Fills {α : Type} (decoder : Decoder α) (depth : Nat) :
    Option α → List Reading → Option α → Prop where
  | left (o : Option α) : Fills decoder depth o [] o
  | filled {r : Reading} {a : α} : decoder depth r = .ok a → Fills decoder depth none [r] (some a)

section Members

variable {σ α : Type} {shape : Shape σ} {depth : Nat} {s t : σ} {name other : String}
  {r : Reading} {rs : List (Reading × Reading)} {ms : List (String × Reading)}
  {decoder : Decoder α} {o : Option α}

theorem optional_eq_ok_iff :
    Decoder.optional decoder depth r = .ok o ↔ Holds decoder depth r o := by
  by_cases hnull : r = .null
  · subst hnull
    cases o with
    | none => exact iff_of_true rfl rfl
    | some a => exact iff_of_false nofun fun h => h.1 rfl
  · have hread : Decoder.optional decoder depth r = some <$> decoder depth r := by
      cases r with
      | null => exact absurd rfl hnull
      | _ => rfl
    rw [hread]
    cases hvalue : decoder depth r with
    | error fault => cases o <;> simp [Holds, hnull, hvalue]
    | ok b => cases o <;> simp [Holds, hnull, hvalue]

theorem name_eq_ok_iff {key : Reading} : key.name = .ok name ↔ key = .string name := by
  cases key <;> simp [Reading.name]

theorem under_cons_self : under name ((name, r) :: ms) = r :: under name ms := by
  simp [under]

theorem under_cons_of_ne (h : other ≠ name) : under name ((other, r) :: ms) = under name ms := by
  simp [under, h]

theorem mem_under : r ∈ under name ms ↔ (name, r) ∈ ms := by
  simp [under]

theorem length_under (name : String) (ms : List (String × Reading)) :
    (under name ms).length = (ms.map (·.1)).count name := by
  rw [under, List.length_map, ← List.countP_eq_length_filter, List.count, List.countP_map]
  rfl

theorem says_iff_of_fills {x : Option (Option α)}
    (h : Fills decoder.optional depth none (under name ms) x) :
    Says decoder depth name ms o ↔ x.join = o := by
  have hmem : ∀ r, (name, r) ∈ ms ↔ r ∈ under name ms := fun r => mem_under.symm
  generalize under name ms = values at h hmem
  cases h with
  | left => cases o <;> simp [Says, hmem]
  | @filled r a hread =>
    have hone : Says decoder depth name ms o ↔ Holds decoder depth r o := by
      cases o <;> simp [Says, hmem]
    rw [hone, ← optional_eq_ok_iff, hread, Except.ok.injEq]
    rfl

theorem count_le_one_of_fills {x : Option α} (h : Fills decoder depth o (under name ms) x) :
    (ms.map (·.1)).count name ≤ 1 := by
  rw [← length_under]
  generalize under name ms = values at h
  cases h <;> simp

theorem Says.holds (h : Says decoder depth name ms o) (hnodup : (ms.map (·.1)).Nodup)
    (hm : (name, r) ∈ ms) : Holds decoder depth r o := by
  cases o with
  | none => exact h r hm
  | some a =>
    obtain ⟨r', hm', hholds⟩ := h
    cases List.inj_on_of_nodup_map hnodup hm hm' rfl
    exact hholds

theorem FieldSpec.read_of_eq_ok_iff {get : σ → Option α} {set : σ → Option α → σ} {mayEnd : Bool} :
    (FieldSpec.of name decoder get set mayEnd).read depth r s = .ok t ↔
      ∃ a, decoder depth r = .ok a ∧ set s (some a) = t := by
  rw [FieldSpec.read_of]
  cases decoder depth r <;> simp [Except.map]

theorem FieldSpec.read_of_holds {get : σ → Option (Option α)} {set : σ → Option (Option α) → σ}
    {mayEnd : Bool} (h : Holds decoder depth r o) :
    (FieldSpec.of name decoder.optional get set mayEnd).read depth r s = .ok (set s (some o)) :=
  FieldSpec.read_of_eq_ok_iff.mpr ⟨o, optional_eq_ok_iff.mpr h, rfl⟩

namespace Shape

theorem items_nil_eq_ok_iff {index : Nat} {rs : List Reading} :
    shape.items depth index s [] rs = .ok t ↔ rs = [] ∧ s = t := by
  cases rs with
  | nil => simp [items, atEnd, bind, Except.bind, pure, Except.pure]
  | cons r rs =>
    have hend : ∃ fault, shape.atEnd (r :: rs) = .error fault := by
      simp only [atEnd]
      split_ifs
      · exact ⟨_, rfl⟩
      · split <;> exact ⟨_, rfl⟩
    obtain ⟨fault, hend⟩ := hend
    simp [items, hend, bind, Except.bind]

theorem items_cons_eq_ok_iff {index : Nat} {f : FieldSpec σ} {fields : List (FieldSpec σ)}
    {rs : List Reading} (hf : f.mayEnd = false) :
    shape.items depth index s (f :: fields) rs = .ok t ↔ ∃ r rest u, rs = r :: rest ∧
      f.read depth r s = .ok u ∧ shape.items depth (index + 1) u fields rest = .ok t := by
  cases rs with
  | nil => simp [items, hf]
  | cons r rs =>
    rw [items, bind_eq_ok_iff]
    simp

theorem members_named_cons (name : String) (r : Reading) (ms : List (String × Reading)) :
    shape.members depth s (named ((name, r) :: ms)) =
      shape.member depth s name r >>= fun t => shape.members depth t (named ms) := rfl

theorem exists_named (h : shape.members depth s rs = .ok t) : ∃ ms, rs = named ms := by
  induction rs generalizing s with
  | nil => exact ⟨[], rfl⟩
  | cons m rs ih =>
    obtain ⟨key, r⟩ := m
    obtain ⟨name, hname, h⟩ := bind_eq_ok_iff.mp h
    obtain ⟨u, -, h⟩ := bind_eq_ok_iff.mp h
    obtain ⟨ms, rfl⟩ := ih h
    exact ⟨(name, r) :: ms, by rw [name_eq_ok_iff.mp hname]; rfl⟩

theorem name_of_find? {f : FieldSpec σ} (h : shape.fields.find? (·.name == name) = some f) :
    f.name = name :=
  beq_iff_eq.mp (List.find?_some (p := fun f : FieldSpec σ => f.name == name) h)

theorem member_eq_ok_iff (hclosed : shape.isClosed = true) :
    shape.member depth s name r = .ok t ↔ ∃ f, shape.fields.find? (·.name == name) = some f ∧
      f.isGiven s = false ∧ f.read depth r s = .ok t := by
  unfold member
  cases hfind : shape.fields.find? (·.name == name) with
  | none => simp [hclosed]
  | some f => cases hgiven : f.isGiven s <;> simp [hgiven]

theorem known_of_members (hclosed : shape.isClosed = true)
    (h : shape.members depth s (named ms) = .ok t) :
    ∀ m ∈ ms, m.1 ∈ shape.fields.map (·.name) := by
  induction ms generalizing s with
  | nil => exact nofun
  | cons m ms ih =>
    obtain ⟨name, r⟩ := m
    rw [members_named_cons] at h
    obtain ⟨u, hmember, h⟩ := bind_eq_ok_iff.mp h
    obtain ⟨f, hfind, -, -⟩ := (member_eq_ok_iff hclosed).mp hmember
    have hknown := List.mem_map.mpr ⟨f, List.mem_of_find?_eq_some hfind, name_of_find? hfind⟩
    exact List.forall_mem_cons.mpr ⟨hknown, ih h⟩

section Place

variable {set : σ → Option α → σ} {mayEnd : Bool}

/-- The place of a field is filled by the member with its name, of which there is at most one. -/
theorem fills_of_members (get : σ → Option α) (hclosed : shape.isClosed = true)
    (hfind : shape.fields.find? (·.name == name) = some (.of name decoder get set mayEnd))
    (hget : ∀ s x, get (set s x) = x)
    (hkeep : ∀ f ∈ shape.fields, f.name ≠ name → ∀ depth r s t, f.read depth r s = .ok t →
      get t = get s)
    (h : shape.members depth s (named ms) = .ok t) :
    Fills decoder depth (get s) (under name ms) (get t) := by
  induction ms generalizing s with
  | nil =>
    cases h
    exact .left _
  | cons m ms ih =>
    obtain ⟨other, r⟩ := m
    rw [members_named_cons] at h
    obtain ⟨u, hmember, h⟩ := bind_eq_ok_iff.mp h
    have hrest := ih h
    obtain ⟨f, hother, hgiven, hread⟩ := (member_eq_ok_iff hclosed).mp hmember
    by_cases hname : other = name
    · subst hname
      rw [hfind] at hother
      cases hother
      obtain ⟨a, ha, rfl⟩ := FieldSpec.read_of_eq_ok_iff.mp hread
      have hfree : get s = none :=
        Option.isNone_iff_eq_none.mp (by simpa [FieldSpec.of] using hgiven)
      rw [hget] at hrest
      rw [under_cons_self, hfree]
      -- now the place is taken, so no member after this one has the name
      generalize under other ms = values at hrest ⊢
      generalize get t = place at hrest ⊢
      cases hrest with
      | left => exact .filled ha
    · have hf : f.name ≠ name := by rwa [name_of_find? hother]
      rw [under_cons_of_ne hname,
        ← hkeep f (List.mem_of_find?_eq_some hother) hf depth r s u hread]
      exact hrest

end Place

theorem exists_members_eq_ok (hlawful : shape.Lawful) (hclosed : shape.isClosed = true)
    (hnodup : (ms.map (·.1)).Nodup)
    (h : ∀ m ∈ ms, ∃ f, shape.fields.find? (·.name == m.1) = some f ∧ f.isGiven s = false ∧
      ∀ s, ∃ t, f.read depth m.2 s = .ok t) :
    ∃ t, shape.members depth s (named ms) = .ok t := by
  induction ms generalizing s with
  | nil => exact ⟨s, rfl⟩
  | cons m ms ih =>
    obtain ⟨name, r⟩ := m
    obtain ⟨⟨f, hfind, hgiven, hread⟩, hrest⟩ := List.forall_mem_cons.mp h
    obtain ⟨hfresh, hnodup⟩ := List.nodup_cons.mp hnodup
    obtain ⟨u, hu⟩ := hread s
    have hmore : ∀ m ∈ ms, ∃ f, shape.fields.find? (·.name == m.1) = some f ∧
        f.isGiven u = false ∧ ∀ s, ∃ t, f.read depth m.2 s = .ok t := by
      intro m hm
      obtain ⟨f', hfind', hgiven', hread'⟩ := hrest m hm
      refine ⟨f', hfind', ?_, hread'⟩
      -- another name is that of another field, which the first member leaves free
      have hne : f ≠ f' := by
        rintro rfl
        exact hfresh (List.mem_map.mpr
          ⟨m, hm, (name_of_find? hfind').symm.trans (name_of_find? hfind)⟩)
      have hapart := hlawful.apart.forall (List.mem_of_find?_eq_some hfind)
        (List.mem_of_find?_eq_some hfind') hne
      rw [hapart.given_right depth r s u hu, hgiven']
    obtain ⟨t, ht⟩ := ih hnodup hmore
    refine ⟨t, ?_⟩
    rw [members_named_cons, (member_eq_ok_iff hclosed).mpr ⟨f, hfind, hgiven, hu⟩]
    exact ht

end Shape

end Members

end Json

namespace FeedEntry

open Json (Decoder Holds Reading Says Shape named under)

def innerDepth : Nat :=
  Decoder.maxDepth - 1

/-- The values in which the members of an entry stand: objects with at most these members, each at
most once, and arrays of all of them. -/
inductive Parts.StandIn (p : Parts) : Reading → Prop where
  | object {ms : List (String × Reading)} :
    (∀ m ∈ ms, m.1 ∈ ["record", "identifier", "link", "source"]) → (ms.map (·.1)).Nodup →
    Says Record.decoder innerDepth "record" ms p.record →
    Says Identifier.decoder innerDepth "identifier" ms p.identifier →
    Says Link.decoder innerDepth "link" ms p.link →
    Says Decoder.string innerDepth "source" ms p.source →
    StandIn p (.object (named ms))
  | array {record identifier link source : Reading} :
    Holds Record.decoder innerDepth record p.record →
    Holds Identifier.decoder innerDepth identifier p.identifier →
    Holds Link.decoder innerDepth link p.link →
    Holds Decoder.string innerDepth source p.source →
    StandIn p (.array [record, identifier, link, source])

/-- A text spells the members of an entry: it is a value in which they stand, and blanks. -/
def Parts.SpelledBy (p : Parts) (t : List Char) : Prop :=
  p.StandIn (Reading.ofText t).1 ∧ Reading.skipSpace (Reading.ofText t).2 = []

/-- A trimmed text that is empty or a comment. -/
def IsSkipped (t : List Char) : Prop :=
  t = [] ∨ ∃ rest, t = '#' :: rest

def Draft.parts (d : Draft) : Parts :=
  ⟨d.record.join, d.identifier.join, d.link.join, d.source.join⟩

variable {p : Parts} {d : Draft} {ms : List (String × Reading)} {rs : List Reading} {r : Reading}

theorem fills_of_members
    (h : shape.members innerDepth shape.blank (named ms) = .ok d) :
    Json.Fills Record.decoder.optional innerDepth none (under "record" ms) d.record ∧
      Json.Fills Identifier.decoder.optional innerDepth none (under "identifier" ms)
        d.identifier ∧
      Json.Fills Link.decoder.optional innerDepth none (under "link" ms) d.link ∧
      Json.Fills Decoder.string.optional innerDepth none (under "source" ms) d.source := by
  refine ⟨Shape.fills_of_members (·.record) rfl rfl (fun _ _ => rfl) ?_ h,
    Shape.fills_of_members (·.identifier) rfl rfl (fun _ _ => rfl) ?_ h,
    Shape.fills_of_members (·.link) rfl rfl (fun _ _ => rfl) ?_ h,
    Shape.fills_of_members (·.source) rfl rfl (fun _ _ => rfl) ?_ h⟩
  all_goals
    intro f hf hname depth r s t hread
    simp only [shape, List.mem_cons, List.not_mem_nil, or_false] at hf
    obtain rfl | rfl | rfl | rfl := hf
    all_goals first
      | exact absurd rfl hname
      | obtain ⟨x, -, rfl⟩ := Json.FieldSpec.read_of_eq_ok_iff.mp hread; rfl

theorem stands_in_object (h : shape.members innerDepth shape.blank (named ms) = .ok d) :
    d.parts.StandIn (.object (named ms)) := by
  obtain ⟨hrecord, hidentifier, hlink, hsource⟩ := fills_of_members h
  have hknown := Shape.known_of_members rfl h
  refine .object hknown (List.nodup_iff_count_le_one.mpr fun name => ?_)
    ((Json.says_iff_of_fills hrecord).mpr rfl) ((Json.says_iff_of_fills hidentifier).mpr rfl)
    ((Json.says_iff_of_fills hlink).mpr rfl) ((Json.says_iff_of_fills hsource).mpr rfl)
  by_cases hname : name ∈ ["record", "identifier", "link", "source"]
  · simp only [List.mem_cons, List.not_mem_nil, or_false] at hname
    obtain rfl | rfl | rfl | rfl := hname
    · exact Json.count_le_one_of_fills hrecord
    · exact Json.count_le_one_of_fills hidentifier
    · exact Json.count_le_one_of_fills hlink
    · exact Json.count_le_one_of_fills hsource
  · rw [List.count_eq_zero.mpr]
    · exact Nat.zero_le 1
    · intro hmem
      obtain ⟨m, hm, rfl⟩ := List.mem_map.mp hmem
      exact hname (hknown m hm)

theorem exists_draft_of_object
    (hknown : ∀ m ∈ ms, m.1 ∈ ["record", "identifier", "link", "source"])
    (hnodup : (ms.map (·.1)).Nodup) (hrecord : Says Record.decoder innerDepth "record" ms p.record)
    (hidentifier : Says Identifier.decoder innerDepth "identifier" ms p.identifier)
    (hlink : Says Link.decoder innerDepth "link" ms p.link)
    (hsource : Says Decoder.string innerDepth "source" ms p.source) :
    ∃ d, shape.members innerDepth shape.blank (named ms) = .ok d ∧ d.parts = p := by
  have hread : ∀ m ∈ ms, ∃ f, shape.fields.find? (·.name == m.1) = some f ∧
      f.isGiven shape.blank = false ∧ ∀ s, ∃ t, f.read innerDepth m.2 s = .ok t := by
    intro m hm
    obtain ⟨name, r⟩ := m
    have hname := hknown _ hm
    simp only [List.mem_cons, List.not_mem_nil, or_false] at hname
    obtain rfl | rfl | rfl | rfl := hname
    · exact ⟨_, rfl, rfl, fun _ => ⟨_, Json.FieldSpec.read_of_holds (hrecord.holds hnodup hm)⟩⟩
    · exact ⟨_, rfl, rfl,
        fun _ => ⟨_, Json.FieldSpec.read_of_holds (hidentifier.holds hnodup hm)⟩⟩
    · exact ⟨_, rfl, rfl, fun _ => ⟨_, Json.FieldSpec.read_of_holds (hlink.holds hnodup hm)⟩⟩
    · exact ⟨_, rfl, rfl, fun _ => ⟨_, Json.FieldSpec.read_of_holds (hsource.holds hnodup hm)⟩⟩
  obtain ⟨d, hd⟩ := Shape.exists_members_eq_ok lawful_shape rfl hnodup hread
  obtain ⟨hrecord', hidentifier', hlink', hsource'⟩ := fills_of_members hd
  refine ⟨d, hd, ?_⟩
  rw [Draft.parts, (Json.says_iff_of_fills hrecord').mp hrecord,
    (Json.says_iff_of_fills hidentifier').mp hidentifier,
    (Json.says_iff_of_fills hlink').mp hlink, (Json.says_iff_of_fills hsource').mp hsource]

theorem items_eq_ok_iff : shape.items innerDepth 0 shape.blank shape.fields rs = .ok d ↔
    ∃ record identifier link source, ∃ p : Parts, rs = [record, identifier, link, source] ∧
      Holds Record.decoder innerDepth record p.record ∧
      Holds Identifier.decoder innerDepth identifier p.identifier ∧
      Holds Link.decoder innerDepth link p.link ∧
      Holds Decoder.string innerDepth source p.source ∧
      d = ⟨some p.record, some p.identifier, some p.link, some p.source⟩ := by
  simp only [← Json.optional_eq_ok_iff]
  constructor
  · intro h
    obtain ⟨record, rest, d₁, rfl, h₁, h⟩ := (Shape.items_cons_eq_ok_iff rfl).mp h
    obtain ⟨identifier, rest, d₂, rfl, h₂, h⟩ := (Shape.items_cons_eq_ok_iff rfl).mp h
    obtain ⟨link, rest, d₃, rfl, h₃, h⟩ := (Shape.items_cons_eq_ok_iff rfl).mp h
    obtain ⟨source, rest, d₄, rfl, h₄, h⟩ := (Shape.items_cons_eq_ok_iff rfl).mp h
    obtain ⟨rfl, rfl⟩ := Shape.items_nil_eq_ok_iff.mp h
    obtain ⟨a, ha, rfl⟩ := Json.FieldSpec.read_of_eq_ok_iff.mp h₁
    obtain ⟨b, hb, rfl⟩ := Json.FieldSpec.read_of_eq_ok_iff.mp h₂
    obtain ⟨c, hc, rfl⟩ := Json.FieldSpec.read_of_eq_ok_iff.mp h₃
    obtain ⟨s, hs, rfl⟩ := Json.FieldSpec.read_of_eq_ok_iff.mp h₄
    exact ⟨record, identifier, link, source, ⟨a, b, c, s⟩, rfl, ha, hb, hc, hs, rfl⟩
  · rintro ⟨record, identifier, link, source, p, rfl, ha, hb, hc, hs, rfl⟩
    exact (Shape.items_cons_eq_ok_iff rfl).mpr ⟨_, _, _, rfl,
      Json.FieldSpec.read_of_eq_ok_iff.mpr ⟨_, ha, rfl⟩,
      (Shape.items_cons_eq_ok_iff rfl).mpr ⟨_, _, _, rfl,
        Json.FieldSpec.read_of_eq_ok_iff.mpr ⟨_, hb, rfl⟩,
        (Shape.items_cons_eq_ok_iff rfl).mpr ⟨_, _, _, rfl,
          Json.FieldSpec.read_of_eq_ok_iff.mpr ⟨_, hc, rfl⟩,
          (Shape.items_cons_eq_ok_iff rfl).mpr ⟨_, _, _, rfl,
            Json.FieldSpec.read_of_eq_ok_iff.mpr ⟨_, hs, rfl⟩,
            Shape.items_nil_eq_ok_iff.mpr ⟨rfl, rfl⟩⟩⟩⟩⟩

/-- A value is decoded as the members that stand in it. -/
theorem decoder_eq_ok_iff : decoder Decoder.maxDepth r = .ok p ↔ p.StandIn r := by
  have hdraft : decoder Decoder.maxDepth r = .ok p ↔
      ∃ d, shape.draft Decoder.maxDepth r = .ok d ∧ d.parts = p := by
    rw [decoder, bind_eq_ok_iff]
    simp only [pure, Except.pure, Except.ok.injEq]
    rfl
  rw [hdraft]
  constructor
  · rintro ⟨d, hd, rfl⟩
    cases r with
    | object ms =>
      obtain ⟨ms, rfl⟩ := Shape.exists_named hd
      exact stands_in_object hd
    | array rs =>
      obtain ⟨record, identifier, link, source, p, rfl, ha, hb, hc, hs, rfl⟩ :=
        items_eq_ok_iff.mp hd
      exact .array ha hb hc hs
    | _ => cases hd
  · intro h
    cases h with
    | object hknown hnodup hrecord hidentifier hlink hsource =>
      exact exists_draft_of_object hknown hnodup hrecord hidentifier hlink hsource
    | array ha hb hc hs =>
      exact ⟨_, items_eq_ok_iff.mpr ⟨_, _, _, _, p, rfl, ha, hb, hc, hs, rfl⟩, rfl⟩

section Text

variable {t line : List Char} {e : FeedEntry}

theorem text_eq_ok_iff : decoder.text (String.ofList t) = .ok p ↔ p.SpelledBy t := by
  rw [Decoder.text, String.toList_ofList, Parts.SpelledBy, ← decoder_eq_ok_iff, bind_eq_ok_iff]
  by_cases hrest : Reading.skipSpace (Reading.ofText t).2 = []
  · simp [hrest, pure, Except.pure]
  · simp [hrest, throw, throwThe, MonadExceptOf.throw]

theorem Parts.SpelledBy.not_isSkipped (h : p.SpelledBy t) : ¬ IsSkipped t := by
  obtain ⟨hstands, -⟩ := h
  rintro (rfl | ⟨rest, rfl⟩)
  · cases hstands
  · have hread : (Reading.ofText ('#' :: rest)).1 = .fails .noValue := rfl
    rw [hread] at hstands
    cases hstands

theorem parts_of_fact {fact : FeedFact} (h : p.fact = .ok fact) :
    (⟨fact, p.source⟩ : FeedEntry).parts = p := by
  obtain ⟨record, identifier, link, source⟩ := p
  cases record <;> cases identifier <;> cases link <;> cases h <;> rfl

theorem ofParts_eq_ok_iff :
    ofParts p = .ok e ↔ e.parts = p ∧ ∀ s, e.source = some s → ¬ Text.Blank s := by
  simp only [← Text.allBlank_iff, Bool.not_eq_true]
  constructor
  · intro h
    obtain ⟨fact, hfact, h⟩ := bind_eq_ok_iff.mp h
    by_cases hblank : p.source.any Text.allBlank = true
    · rw [if_pos hblank] at h
      cases h
    · rw [if_neg hblank] at h
      cases h
      refine ⟨parts_of_fact hfact, fun s hs => ?_⟩
      dsimp only at hs
      simpa [hs] using hblank
  · rintro ⟨rfl, hsource⟩
    exact ofParts_parts hsource

theorem parse_of_skipped [Json.Places] (h : IsSkipped (Text.trimmed line)) :
    parse line = .ok none := by
  obtain h | ⟨rest, h⟩ := h <;> simp only [parse, h]

theorem parse_of_not_skipped [Json.Places] (h : ¬ IsSkipped (Text.trimmed line)) :
    parse line = match decoder.text (String.ofList (Text.trimmed line)) with
      | .error fault => .error (.ofText (String.ofList (Text.trimmed line)) fault)
      | .ok parts =>
        match ofParts parts with
        | .error cause => .error (.invalid cause)
        | .ok entry => .ok (some entry) := by
  unfold parse
  split
  · exact absurd (.inl ‹_›) h
  · exact absurd (.inr ⟨_, ‹_›⟩) h
  · rfl

theorem parse_cases [Json.Places] (line : List Char) :
    let t := Text.trimmed line
    (IsSkipped t ∧ (∀ p : Parts, ¬ p.SpelledBy t) ∧ parse line = .ok none) ∨
      (¬ IsSkipped t ∧ (∀ p : Parts, ¬ p.SpelledBy t) ∧
        ∃ fault, parse line = .error (.serialization fault)) ∨
      ∃ p : Parts, p.SpelledBy t ∧ (∀ q : Parts, q.SpelledBy t → q = p) ∧ ¬ IsSkipped t ∧
        ((∃ cause, ofParts p = .error cause ∧ parse line = .error (.invalid cause)) ∨
          ∃ e, ofParts p = .ok e ∧ parse line = .ok (some e)) := by
  intro t
  by_cases hskipped : IsSkipped t
  · exact .inl ⟨hskipped, fun p hp => hp.not_isSkipped hskipped, parse_of_skipped hskipped⟩
  · have hparse := parse_of_not_skipped hskipped
    cases htext : decoder.text (String.ofList t) with
    | error fault =>
      rw [htext] at hparse
      refine .inr (.inl ⟨hskipped, fun p hp => ?_, _, hparse⟩)
      rw [← text_eq_ok_iff, htext] at hp
      cases hp
    | ok p =>
      rw [htext] at hparse
      have honly : ∀ q : Parts, q.SpelledBy t → q = p := by
        intro q hq
        rw [← text_eq_ok_iff, htext] at hq
        exact (Except.ok.inj hq).symm
      refine .inr (.inr ⟨p, text_eq_ok_iff.mp htext, honly, hskipped, ?_⟩)
      cases hparts : ofParts p with
      | error cause => exact .inl ⟨cause, rfl, by rw [hparse]; simp only [hparts]⟩
      | ok e => exact .inr ⟨e, rfl, by rw [hparse]; simp only [hparts]⟩

/-- A line is read by its trimmed text. It holds no entry exactly if that is empty or a comment. It
holds an entry exactly if the text spells that entry's parts, which are a record and its identifier,
or a link, beside a source that is absent or not blank. Any other line is refused: for its text, if
that spells no members; otherwise for its members, if they are the parts of no entry or name a blank
source. -/
theorem parse_accepts_the_grammar [Json.Places] (line : List Char) :
    (parse line = .ok none ↔ Text.trimmed line = [] ∨ ∃ rest, Text.trimmed line = '#' :: rest) ∧
      (∀ e, parse line = .ok (some e) ↔ e.parts.SpelledBy (Text.trimmed line) ∧
        ∀ s, e.source = some s → ¬ Text.Blank s) ∧
      (∀ failure, parse line = .error failure →
        (∃ fault, failure = .serialization fault) ∨ ∃ cause, failure = .invalid cause) ∧
      ((∃ fault, parse line = .error (.serialization fault)) ↔
        ¬ (Text.trimmed line = [] ∨ ∃ rest, Text.trimmed line = '#' :: rest) ∧
        ∀ p : Parts, ¬ p.SpelledBy (Text.trimmed line)) ∧
      ((∃ cause, parse line = .error (.invalid cause)) ↔
        ∃ p : Parts, p.SpelledBy (Text.trimmed line) ∧
          ∀ e : FeedEntry, e.parts = p → ∃ s, e.source = some s ∧ Text.Blank s) := by
  obtain ⟨hskipped, hnone, hparse⟩ | ⟨hskipped, hnone, fault, hparse⟩ |
    ⟨p, hp, honly, hskipped, ⟨cause, hcause, hparse⟩ | ⟨e, he, hparse⟩⟩ := parse_cases line
  · rw [hparse]
    exact ⟨iff_of_true rfl hskipped, fun e => iff_of_false nofun fun h => hnone _ h.1, nofun,
      iff_of_false nofun fun h => h.1 hskipped, iff_of_false nofun fun ⟨p, hp, _⟩ => hnone p hp⟩
  · rw [hparse]
    refine ⟨iff_of_false nofun hskipped, fun e => iff_of_false nofun fun h => hnone _ h.1, ?_,
      iff_of_true ⟨fault, rfl⟩ ⟨hskipped, hnone⟩, iff_of_false nofun fun ⟨p, hp, _⟩ => hnone p hp⟩
    rintro failure ⟨⟩
    exact .inl ⟨fault, rfl⟩
  · have hunmade : ∀ e : FeedEntry, ¬ (e.parts = p ∧ ∀ s, e.source = some s → ¬ Text.Blank s) := by
      intro e he
      rw [← ofParts_eq_ok_iff, hcause] at he
      cases he
    rw [hparse]
    refine ⟨iff_of_false nofun hskipped,
      fun e => iff_of_false nofun fun h => hunmade e ⟨honly _ h.1, h.2⟩, ?_,
      iff_of_false nofun fun h => h.2 p hp, iff_of_true ⟨cause, rfl⟩ ⟨p, hp, fun e he => ?_⟩⟩
    · rintro failure ⟨⟩
      exact .inr ⟨cause, rfl⟩
    · by_contra hsource
      exact hunmade e ⟨he, fun s hs hblank => hsource ⟨s, hs, hblank⟩⟩
  · obtain ⟨rfl, hsource⟩ := ofParts_eq_ok_iff.mp he
    rw [hparse]
    refine ⟨iff_of_false nofun hskipped, fun e' => ⟨?_, fun h => ?_⟩, nofun,
      iff_of_false nofun fun h => h.2 _ hp, iff_of_false nofun fun ⟨q, hq, hblank⟩ => ?_⟩
    · rintro ⟨⟩
      exact ⟨hp, hsource⟩
    · have he' := ofParts_eq_ok_iff.mpr ⟨honly _ h.1, h.2⟩
      rw [Except.ok.inj (he.symm.trans he')]
    · obtain ⟨s, hs, hs'⟩ := hblank e (honly q hq).symm
      exact hsource s hs hs'

end Text

end FeedEntry

end MusicIndex
