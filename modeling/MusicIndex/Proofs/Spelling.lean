import MusicIndex.Entity.Decode
import MusicIndex.Entity.Encode
import MusicIndex.Proofs.MemberOrder

namespace MusicIndex

open Json (Decoder FieldSpec Reading Shape)

namespace Json

/-- An object of some members, with scalars under none of the names anywhere among them. -/
def IsObjectOf (known : List (String × Json)) (names : List String) (v : Json) : Prop :=
  ∃ ms extra, v = .object ms ∧ ms.Perm (known ++ extra) ∧
    ∀ m ∈ extra, m.1 ∉ names ∧ m.2.isScalar = true

/-- A member of something that may be absent: left out, or null, if it is. -/
def IsOptional {α : Type} (name : String) (spelled : α → Json → Prop) (o : Option α)
    (ms : List (String × Json)) : Prop :=
  match o with
  | none => ms = [] ∨ ms = [(name, .null)]
  | some a => ∃ v, spelled a v ∧ ms = [(name, v)]

theorem isObjectOf_object (known : List (String × Json)) (names : List String) :
    (object known).IsObjectOf known names :=
  ⟨known, [], rfl, by rw [List.append_nil], nofun⟩

theorem isOptional_ofOption {α : Type} {spelled : α → Json → Prop} {f : α → Json}
    (h : ∀ a, spelled a (f a)) (name : String) (o : Option α) :
    IsOptional name spelled o [(name, ofOption f o)] := by
  cases o with
  | none => exact .inr rfl
  | some a => exact ⟨f a, h a, rfl⟩

/-- Data is read from a value, which is not null. -/
def Decoder.Reads {α : Type} (decoder : Decoder α) (depth : Nat) (a : α) (v : Json) : Prop :=
  v ≠ .null ∧ decoder depth (.ofJson v) = .ok a

theorem reads_string (depth : Nat) (x : String) (v : Json) (h : v = .string x) :
    Decoder.string.Reads depth x v := by
  rw [h]
  exact ⟨nofun, rfl⟩

theorem reads_real (depth : Nat) (x : Binary64) (v : Json) (h : v = .real x) :
    Decoder.real.Reads depth x v := by
  rw [h]
  exact ⟨nofun, rfl⟩

variable {σ α : Type} {shape : Shape σ} {depth : Nat} {s t : σ} {v : Json}
  {known ms : List (String × Json)}

theorem Shape.draft_of_isObjectOf (h : shape.Lawful) (hopen : shape.isClosed = false)
    (hv : v.IsObjectOf known (shape.fields.map (·.name)))
    (hknown : shape.members (depth + 1) shape.blank (Reading.ofJsonMembers known) = .ok t) :
    shape.draft (depth + 2) (.ofJson v) = .ok t := by
  obtain ⟨ms, extra, rfl, hperm, hextra⟩ := hv
  refine Shape.members_perm h hperm.symm ?_
  rw [Shape.members_append, hknown]
  exact Shape.members_extra hopen hextra t

theorem optional_of_ne_null {decoder : Decoder α} (hv : v ≠ .null) :
    Decoder.optional decoder depth (.ofJson v) = some <$> decoder depth (.ofJson v) := by
  cases v with
  | null => exact absurd rfl hv
  | _ => rfl

section Fields

variable {name : String} {decoder : Decoder α} {get : σ → Option α} {set : σ → Option α → σ}
  {mayEnd : Bool} {u : σ}

theorem Shape.members_field {a : α}
    (hfind : shape.fields.find? (·.name == name) = some (.of name decoder get set mayEnd))
    (hget : get s = none) (hset : set s (some a) = t)
    (hread : decoder depth (.ofJson v) = .ok a) :
    shape.members depth s (Reading.ofJsonMembers [(name, v)]) = .ok t := by
  change (shape.member depth s name (.ofJson v) >>= pure) = _
  rw [bind_pure, Shape.member, hfind]
  dsimp only
  rw [if_neg (by simp [FieldSpec.of, hget]), FieldSpec.read_of, hread, ← hset]
  rfl

theorem Shape.members_trans (h : shape.members depth s (Reading.ofJsonMembers known) = .ok t)
    (h' : shape.members depth t (Reading.ofJsonMembers ms) = .ok u) :
    shape.members depth s (Reading.ofJsonMembers (known ++ ms)) = .ok u := by
  rw [Shape.members_append, h]
  exact h'

theorem Shape.members_optional {set : σ → Option (Option α) → σ} {get : σ → Option (Option α)}
    {spelled : α → Json → Prop} {o : Option α} {t : Option (Option α) → σ}
    (hfind : shape.fields.find? (·.name == name) =
      some (.of name (.optional decoder) get set mayEnd))
    (hget : get s = none) (hnone : t none = s) (hset : ∀ x, set s x = t x)
    (hreads : ∀ a v, spelled a v → decoder.Reads depth a v)
    (h : IsOptional name spelled o ms) :
    ∃ x, x.join = o ∧ shape.members depth s (Reading.ofJsonMembers ms) = .ok (t x) := by
  cases o with
  | none =>
    rcases h with rfl | rfl
    · exact ⟨none, rfl, by rw [hnone]; rfl⟩
    · exact ⟨some none, rfl, Shape.members_field hfind hget (hset _) rfl⟩
  | some a =>
    obtain ⟨v, hv, rfl⟩ := h
    obtain ⟨hnull, hread⟩ := hreads a v hv
    refine ⟨some (some a), rfl, Shape.members_field hfind hget (hset _) ?_⟩
    rw [optional_of_ne_null hnull, hread]
    rfl

end Fields

end Json

namespace Identifier

/-- The object of scheme and value, in whatever way it is written. -/
def Spelled (i : Identifier) (v : Json) : Prop :=
  v.IsObjectOf i.toMembers ["type", "value"]

theorem spelled_toJson (i : Identifier) : i.Spelled i.toJson :=
  Json.isObjectOf_object _ _

theorem lawful_shape : shape.Lawful := by
  constructor
  · simp [shape, FieldSpec.fills_of]
  · simp [shape, FieldSpec.apart_of]

theorem Spelled.reads {i : Identifier} {v : Json} (h : i.Spelled v) (depth : Nat) :
    decoder.Reads (depth + 2) i v := by
  constructor
  · obtain ⟨ms, -, rfl, -⟩ := h
    nofun
  · have hknown : shape.members (depth + 1) shape.blank (Reading.ofJsonMembers i.toMembers) =
        .ok ⟨some i.scheme, some i.value⟩ := rfl
    rw [decoder, Shape.draft_of_isObjectOf lawful_shape rfl h hknown]
    rfl

end Identifier

namespace Shares

def Spelled (s : Shares Binary64) (v : Json) : Prop :=
  ∃ performance mechanical synchronization,
    Json.IsOptional "performance" (fun x v => v = .real x) s.performance performance ∧
    Json.IsOptional "mechanical" (fun x v => v = .real x) s.mechanical mechanical ∧
    Json.IsOptional "synchronization" (fun x v => v = .real x) s.synchronization
      synchronization ∧
    v.IsObjectOf (performance ++ mechanical ++ synchronization)
      ["performance", "mechanical", "synchronization"]

theorem spelled_toJson (s : Shares Binary64) : s.Spelled s.toJson := by
  have hshare (name : String) (share : Option Binary64) :
      Json.IsOptional name (fun x v => v = .real x) share [(name, .ofOption .real share)] := by
    apply Json.isOptional_ofOption
    exact fun _ => rfl
  exact ⟨_, _, _, hshare _ _, hshare _ _, hshare _ _, Json.isObjectOf_object _ _⟩

theorem lawful_shape : shape.Lawful := by
  constructor
  · simp [shape, FieldSpec.fills_of]
  · simp [shape, FieldSpec.apart_of]

theorem Spelled.reads {s : Shares Binary64} {v : Json} (h : s.Spelled v) (depth : Nat) :
    decoder.Reads (depth + 2) s v := by
  obtain ⟨performance, mechanical, synchronization, hp, hm, hs, hv⟩ := h
  obtain ⟨p, hp', hp⟩ : ∃ x, x.join = s.performance ∧
      shape.members (depth + 1) ⟨none, none, none⟩ (Reading.ofJsonMembers performance) =
        .ok ⟨x, none, none⟩ :=
    Shape.members_optional (t := fun x => Draft.mk x none none)
      rfl rfl rfl (fun _ => rfl) (Json.reads_real _) hp
  obtain ⟨m, hm', hm⟩ : ∃ x, x.join = s.mechanical ∧
      shape.members (depth + 1) ⟨p, none, none⟩ (Reading.ofJsonMembers mechanical) =
        .ok ⟨p, x, none⟩ :=
    Shape.members_optional (t := fun x => Draft.mk p x none)
      rfl rfl rfl (fun _ => rfl) (Json.reads_real _) hm
  obtain ⟨y, hy', hs⟩ : ∃ x, x.join = s.synchronization ∧
      shape.members (depth + 1) ⟨p, m, none⟩ (Reading.ofJsonMembers synchronization) =
        .ok ⟨p, m, x⟩ :=
    Shape.members_optional (t := fun x => Draft.mk p m x)
      rfl rfl rfl (fun _ => rfl) (Json.reads_real _) hs
  have hknown : shape.members (depth + 1) shape.blank (Reading.ofJsonMembers
      (performance ++ mechanical ++ synchronization)) = .ok ⟨p, m, y⟩ :=
    Shape.members_trans (Shape.members_trans hp hm) hs
  constructor
  · obtain ⟨ms, -, rfl, -⟩ := hv
    nofun
  · rw [decoder, Shape.draft_of_isObjectOf lawful_shape rfl hv hknown]
    change Except.ok (Shares.mk p.join m.join y.join) = _
    rw [hp', hm', hy']

end Shares

namespace Link

theorem lawful_shape : shape.Lawful := by
  constructor
  · simp [shape, FieldSpec.fills_of]
  · simp [shape, FieldSpec.apart_of]

def Spelled (l : Link Binary64) (v : Json) : Prop :=
  ∃ a b role shares, l.a.Spelled a ∧ l.b.Spelled b ∧
    Json.IsOptional "role" (fun x v => v = .string x) l.role role ∧
    Json.IsOptional "shares" Shares.Spelled l.shares shares ∧
    v.IsObjectOf ([("kind", .string l.kind.name), ("a", a), ("b", b)] ++ role ++ shares)
      ["kind", "a", "b", "role", "shares"]

theorem spelled_toJson (l : Link Binary64) : l.Spelled l.toJson := by
  have hrole : Json.IsOptional "role" (fun x v => v = .string x) l.role
      [("role", .ofOption .string l.role)] := by
    apply Json.isOptional_ofOption
    exact fun _ => rfl
  exact ⟨_, _, _, _, l.a.spelled_toJson, l.b.spelled_toJson, hrole,
    Json.isOptional_ofOption Shares.spelled_toJson "shares" l.shares, Json.isObjectOf_object _ _⟩

theorem kindDecoder_name (kind : LinkKind) (depth : Nat) :
    kindDecoder depth (.string kind.name) = .ok kind := by
  change Decoder.variant LinkKind.ofName? _ kind.name = _
  rw [Decoder.variant, LinkKind.ofName?_name]

theorem Spelled.reads {l : Link Binary64} {v : Json} (h : l.Spelled v) (depth : Nat) :
    decoder.Reads (depth + 3) l v := by
  obtain ⟨a, b, role, shares, ha, hb, hrole, hshares, hv⟩ := h
  obtain ⟨-, ha⟩ := ha.reads depth
  obtain ⟨-, hb⟩ := hb.reads depth
  have hkind : shape.members (depth + 2) ⟨none, none, none, none, none⟩ (Reading.ofJsonMembers
      [("kind", .string l.kind.name)]) = .ok ⟨some l.kind, none, none, none, none⟩ :=
    Shape.members_field rfl rfl rfl (kindDecoder_name l.kind (depth + 2))
  have hfirst : shape.members (depth + 2) ⟨some l.kind, none, none, none, none⟩
      (Reading.ofJsonMembers [("a", a)]) = .ok ⟨some l.kind, some l.a, none, none, none⟩ :=
    Shape.members_field rfl rfl rfl ha
  have hsecond : shape.members (depth + 2) ⟨some l.kind, some l.a, none, none, none⟩
      (Reading.ofJsonMembers [("b", b)]) = .ok ⟨some l.kind, some l.a, some l.b, none, none⟩ :=
    Shape.members_field rfl rfl rfl hb
  obtain ⟨r, hr', hrole⟩ : ∃ x, x.join = l.role ∧ shape.members (depth + 2)
      ⟨some l.kind, some l.a, some l.b, none, none⟩ (Reading.ofJsonMembers role) =
        .ok ⟨some l.kind, some l.a, some l.b, x, none⟩ :=
    Shape.members_optional (t := fun x => Draft.mk (some l.kind) (some l.a) (some l.b) x none)
      rfl rfl rfl (fun _ => rfl) (Json.reads_string _) hrole
  obtain ⟨y, hy', hshares⟩ : ∃ x, x.join = l.shares ∧ shape.members (depth + 2)
      ⟨some l.kind, some l.a, some l.b, r, none⟩ (Reading.ofJsonMembers shares) =
        .ok ⟨some l.kind, some l.a, some l.b, r, x⟩ :=
    Shape.members_optional (t := fun x => Draft.mk (some l.kind) (some l.a) (some l.b) r x)
      rfl rfl rfl (fun _ => rfl) (fun s v hs => Shares.Spelled.reads hs depth) hshares
  have hends := Shape.members_trans hkind (Shape.members_trans hfirst hsecond)
  have hknown : shape.members (depth + 2) shape.blank (Reading.ofJsonMembers
      ([("kind", .string l.kind.name), ("a", a), ("b", b)] ++ role ++ shares)) =
        .ok ⟨some l.kind, some l.a, some l.b, r, y⟩ :=
    Shape.members_trans (Shape.members_trans hends hrole) hshares
  constructor
  · obtain ⟨ms, -, rfl, -⟩ := hv
    nofun
  · rw [decoder, Shape.draft_of_isObjectOf lawful_shape rfl hv hknown]
    change Except.ok (Link.mk l.kind l.a l.b r.join y.join) = _
    rw [hr', hy']

end Link

namespace Record

variable {depth : Nat} {columns : List String} {ms : List (String × Json)}
  {taken : List (String × String)}

def Spelled (r : Record) (v : Json) : Prop :=
  v.IsObjectOf (("kind", .string r.kind.name) :: r.members.map fun m => (m.1, .string m.2))
    ("kind" :: r.kind.columns)

theorem spelled_toJson (r : Record) : r.Spelled r.toJson :=
  Json.isObjectOf_object _ _

theorem value_ofJson {v : Json} (h : v.isScalar = true) :
    (Reading.ofJson v).value depth = .ok v := by
  cases v <;> first | rfl | cases h

theorem split_append (h : ∀ m ∈ ms, m.1 ≠ "kind" ∧ m.2.isScalar = true) (depth : Nat)
    (kind : Option RecordKind) (kept rest : List (String × Json)) :
    split depth kind kept (Reading.ofJsonMembers (ms ++ rest)) =
      split depth kind (ms.reverse ++ kept) (Reading.ofJsonMembers rest) := by
  induction ms generalizing kept with
  | nil => rfl
  | cons m ms ih =>
    obtain ⟨⟨hname, hscalar⟩, hrest⟩ := List.forall_mem_cons.mp h
    obtain ⟨name, v⟩ := m
    change (if name = "kind" then _ else ((Reading.ofJson v).value depth >>= fun v =>
      split depth kind ((name, v) :: kept) (Reading.ofJsonMembers (ms ++ rest)))) = _
    rw [if_neg hname, value_ofJson hscalar, List.reverse_cons, List.append_assoc]
    exact ih hrest _

theorem split_kind {before after : List (String × Json)} (k : RecordKind)
    (h : ∀ m ∈ before ++ after, m.1 ≠ "kind" ∧ m.2.isScalar = true) :
    split depth none [] (Reading.ofJsonMembers (before ++ ("kind", .string k.name) :: after)) =
      .ok (some k, before ++ after) := by
  obtain ⟨hbefore, hafter⟩ := List.forall_mem_append.mp h
  have htag : tag (.string k.name) = .ok k := by
    rw [tag, Decoder.variant, RecordKind.ofName?_name]
  have hkind (kept : List (String × Json)) :
      split depth none kept (Reading.ofJsonMembers (("kind", .string k.name) :: after)) =
        split depth (some k) kept (Reading.ofJsonMembers after) := by
    rw [Reading.ofJsonMembers, split]
    simp [Reading.name, Reading.ofJson, htag, bind, Except.bind]
  have hrest := split_append hafter depth (some k) before.reverse []
  rw [List.append_nil after] at hrest
  rw [split_append hbefore, hkind, List.append_nil, hrest]
  simp [split, Reading.ofJsonMembers]

theorem columnsAmong_eq_ok (hstring : ∀ m ∈ ms, m.1 ∈ columns → ∃ s, m.2 = .string s)
    (hfresh : ∀ m ∈ ms, m.1 ∈ columns → taken.lookup m.1 = none)
    (hdistinct : ms.Pairwise fun m m' => m.1 ∈ columns → m.1 ≠ m'.1) :
    ∃ all, columnsAmong columns taken ms = .ok all ∧
      (∀ name s, taken.lookup name = some s → all.lookup name = some s) ∧
      ∀ name ∈ columns, ∀ s, (name, .string s) ∈ ms → all.lookup name = some s := by
  induction ms generalizing taken with
  | nil => exact ⟨taken, rfl, fun _ _ h => h, nofun⟩
  | cons m ms ih =>
    obtain ⟨name, v⟩ := m
    obtain ⟨hstring, hstrings⟩ := List.forall_mem_cons.mp hstring
    obtain ⟨hfresh, hfreshs⟩ := List.forall_mem_cons.mp hfresh
    obtain ⟨hdistinct, hdistincts⟩ := List.pairwise_cons.mp hdistinct
    by_cases hcolumn : name ∈ columns
    · obtain ⟨s, rfl⟩ := hstring hcolumn
      have hlookup (other : String) (hne : other ≠ name) :
          ((name, s) :: taken).lookup other = taken.lookup other := by
        rw [List.lookup_cons, beq_false_of_ne hne]
      have hunseen : ∀ m ∈ ms, m.1 ∈ columns → ((name, s) :: taken).lookup m.1 = none := by
        intro m hm hmcolumn
        rw [hlookup _ (hdistinct m hm hcolumn).symm]
        exact hfreshs m hm hmcolumn
      obtain ⟨all, hall, hkept, hfound⟩ := ih hstrings hunseen hdistincts
      refine ⟨all, ?_, fun other x hx => ?_, fun other hother x hx => ?_⟩
      · rw [columnsAmong, if_pos hcolumn, hfresh hcolumn]
        exact hall
      · refine hkept other x ?_
        rwa [hlookup]
        rintro rfl
        rw [hfresh hcolumn] at hx
        cases hx
      · rcases List.mem_cons.mp hx with heq | hx
        · cases heq
          exact hkept name s List.lookup_cons_self
        · exact hfound other hother x hx
    · obtain ⟨all, hall, hkept, hfound⟩ := ih hstrings hfreshs hdistincts
      refine ⟨all, ?_, hkept, fun other hother x hx => ?_⟩
      · rw [columnsAmong, if_neg hcolumn]
        exact hall
      · rcases List.mem_cons.mp hx with heq | hx
        · cases heq
          exact absurd hother hcolumn
        · exact hfound other hother x hx

theorem inOrder_eq_ok {values : List String} (hlength : values.length = columns.length)
    (h : ∀ m ∈ columns.zip values, taken.lookup m.1 = some m.2) :
    inOrder taken columns = .ok ⟨values, hlength⟩ := by
  induction columns generalizing values with
  | nil =>
    obtain rfl := List.length_eq_zero_iff.mp hlength
    rfl
  | cons column columns ih =>
    cases values with
    | nil => cases hlength
    | cons value values =>
      obtain ⟨hvalue, hvalues⟩ := List.forall_mem_cons.mp h
      rw [inOrder, hvalue, ih (Nat.succ.inj hlength) hvalues]
      rfl

theorem nodup_columns (k : RecordKind) : k.columns.Nodup := by
  cases k <;> decide

theorem kind_not_mem_columns (k : RecordKind) : "kind" ∉ k.columns := by
  cases k <;> decide

theorem map_members (r : Record) : r.members.map (·.1) = r.kind.columns :=
  List.map_fst_zip (Nat.le_of_eq r.length_values.symm)

theorem mem_columns {r : Record} {m : String × String} (h : m ∈ r.members) :
    m.1 ∈ r.kind.columns := by
  rw [← map_members]
  exact List.mem_map_of_mem h

theorem pairwise_members (r : Record) {extra : List (String × Json)}
    (hextra : ∀ m ∈ extra, m.1 ∉ r.kind.columns) :
    ((r.members.map fun m => (m.1, Json.string m.2)) ++ extra).Pairwise
      fun m m' => m.1 ∈ r.kind.columns → m.1 ≠ m'.1 := by
  refine List.pairwise_append.mpr ⟨List.pairwise_map.mpr ?_, ?_, ?_⟩
  · have hnodup := nodup_columns r.kind
    rw [← map_members] at hnodup
    refine (List.pairwise_map.mp hnodup).imp ?_
    intro m m' hne _
    exact hne
  · exact List.pairwise_of_forall_mem_list fun m hm _ _ hc => absurd hc (hextra m hm)
  · intro m hm m' hm' hc he
    exact hextra m' hm' (he ▸ hc)

theorem exists_columnsAmong {r : Record} {extra : List (String × Json)}
    (hperm : ms.Perm ((r.members.map fun m => (m.1, Json.string m.2)) ++ extra))
    (hextra : ∀ m ∈ extra, m.1 ∉ r.kind.columns) :
    ∃ all, columnsAmong r.kind.columns [] ms = .ok all ∧
      inOrder all r.kind.columns = .ok ⟨r.values, r.length_values⟩ := by
  have hstring : ∀ m ∈ ms, m.1 ∈ r.kind.columns → ∃ s, m.2 = .string s := by
    intro m hm hc
    rcases List.mem_append.mp (hperm.subset hm) with hm | hm
    · obtain ⟨c, -, rfl⟩ := List.mem_map.mp hm
      exact ⟨c.2, rfl⟩
    · exact absurd hc (hextra m hm)
  have hdistinct : ms.Pairwise fun m m' => m.1 ∈ r.kind.columns → m.1 ≠ m'.1 := by
    refine (hperm.pairwise_iff ?_).mpr (pairwise_members r hextra)
    intro m m' h hc he
    exact h (he ▸ hc) he.symm
  obtain ⟨all, hall, -, hfound⟩ : ∃ all, columnsAmong r.kind.columns [] ms = .ok all ∧ _ ∧
      ∀ name ∈ r.kind.columns, ∀ s, (name, .string s) ∈ ms → all.lookup name = some s :=
    columnsAmong_eq_ok hstring (fun _ _ _ => rfl) hdistinct
  refine ⟨all, hall, inOrder_eq_ok r.length_values fun m hm => ?_⟩
  apply hfound m.1 (mem_columns hm) m.2
  exact hperm.symm.subset (List.mem_append_left _ (List.mem_map_of_mem hm))

theorem Spelled.reads {r : Record} {v : Json} (h : r.Spelled v) (depth : Nat) :
    decoder.Reads (depth + 2) r v := by
  obtain ⟨ms, extra, rfl, hperm, hextra⟩ := h
  refine ⟨nofun, ?_⟩
  obtain ⟨before, after, rfl⟩ := List.append_of_mem (hperm.symm.subset List.mem_cons_self)
  have hothers : (before ++ after).Perm
      ((r.members.map fun m => (m.1, Json.string m.2)) ++ extra) :=
    (List.perm_middle.symm.trans hperm).cons_inv
  have hscalars : ∀ m ∈ before ++ after, m.1 ≠ "kind" ∧ m.2.isScalar = true := by
    intro m hm
    rcases List.mem_append.mp (hothers.subset hm) with hm | hm
    · obtain ⟨c, hc, rfl⟩ := List.mem_map.mp hm
      exact ⟨fun e => kind_not_mem_columns r.kind (e ▸ mem_columns hc), rfl⟩
    · exact ⟨fun e => (hextra m hm).1 (e ▸ List.mem_cons_self), (hextra m hm).2⟩
  obtain ⟨all, hall, hvalues⟩ := exists_columnsAmong hothers fun m hm hc =>
    (hextra m hm).1 (List.mem_cons_of_mem _ hc)
  rw [Reading.ofJson, decoder]
  change (split _ none [] _ >>= _) = _
  rw [split_kind r.kind hscalars]
  change (columnsAmong r.kind.columns [] (before ++ after) >>= _) = _
  rw [hall]
  change (inOrder all r.kind.columns >>= _) = _
  rw [hvalues]
  rfl

end Record

end MusicIndex
